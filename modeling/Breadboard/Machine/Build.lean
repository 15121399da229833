import Breadboard.Board.Basic
import Breadboard.Config.Record
import Breadboard.Cpu.Processor
import Breadboard.Text.Uppercase
/-
  Building a machine: 64 KiB of RAM, ROMs at their addresses, a decoder, and a processor.

  Every ROM gets an enable wire named after it, and one window of the decoder as long as the chip.
  Reads inside a window go to the ROM, where windows overlap to the one added first; everything else
  goes to the RAM, so writes reach the RAM under a ROM.

  A ROM must have a possible number of address lines and must end within the address space; the first
  one that does not is the error.  A machine that has been built has been powered up: its interrupt
  wires and select wires are high, and the processor has read its reset vector.
-/
namespace Breadboard

/-- Why a machine cannot be built or run, by the part that it failed in. -/
inductive MachineError where
  /-- A name was missing on the board. -/
  | board (reason : BoardError)
  /-- A chip could not be made. -/
  | chip (reason : ChipError)
  /-- An instruction could not be executed. -/
  | fault (reason : Fault)
  /-- A ROM does not end within the address space. -/
  | romOutOfRange (name : String) (base : UInt16) (length : Nat)
  /-- The run could not start at its pace. -/
  | pace (reason : PaceError)
deriving DecidableEq, Repr

open Text in
/-- The error in words, which are mostly those of the part that it comes from. -/
def MachineError.message : MachineError → String
  | .board reason => reason.message
  | .chip reason => reason.message
  | .fault reason => reason.message
  | .romOutOfRange name base length =>
    s!"ROM {name} at {Hex.markedAddress base} ({length} bytes) does not fit the address space"
  | .pace reason => s!"failed to start scheduler threads: {reason.message}"

/-- A ROM to be put into a machine, with the bytes it is to hold.  They need not be as many as the chip
    has. -/
structure RomSlot where
  name : String
  image : Array UInt8
  base : UInt16
  addressLines : Nat
deriving Repr

/-- A board with everything on it, and the registers of the processor that is plugged in. -/
structure Machine where
  board : Board
  registers : Registers
  /-- The RAM of the board, for whoever looks into it. -/
  ram : Ram

/-- A computation that reports, and that ends when a machine cannot be built. -/
abbrev Building := ExceptT MachineError Logged

namespace RomSlot

/-- A ROM whose image is read from a file.  The number of its address lines is checked before the file is
    read. -/
def ofFile (files : Files) (config : RomConfig) : Building RomSlot := do
  let lines := config.addressLines.toNat
  -- a chip that cannot exist has no size, so there is nothing to compare an image with
  if let .error reason := checkLines lines then
    throw (.chip reason)
  match ← Image.load files config.path (span lines) with
  | .error reason => throw (.chip reason)
  | .ok image =>
    if let .mismatch expected actual := image.fit then
      note (.fileMismatch config.name actual expected)
    return { name := config.name, image := image.bytes, base := config.base, addressLines := lines }

/-- All ROMs of a description, in its order; the first that cannot be had is the error. -/
def ofConfig (files : Files) (config : MachineConfig) : Building (List RomSlot) :=
  config.roms.mapM (ofFile files)

/-- The name of a ROM's enable wire: its own name in capitals, and an ending that says what the wire is
    for. -/
def enableLine (slot : RomSlot) : String :=
  Text.uppercase slot.name ++ "_OE"

end RomSlot

namespace Machine

/-- Gives every ROM its enable wire.  Two ROMs of one name get two wires, and only the later one can be
    found by name. -/
def layEnables : List RomSlot → Board → List WireId × Board
  | [], b => ([], b)
  | slot :: slots, b =>
    let (wire, b) := b.addLine slot.enableLine
    let (wires, b) := layEnables slots b
    (wire :: wires, b)

/-- Makes a ROM and the window at which it answers, which has to end within the address space. -/
def mapRom (address data : BusId) (slot : RomSlot) (enable : WireId) :
    Building (Rom × Window) := do
  match ← Rom.make slot.name slot.image slot.addressLines address data enable with
  | .error reason => throw (.chip reason)
  | .ok rom =>
    if 0x10000 < slot.base.toNat + rom.capacity then
      throw (.romOutOfRange slot.name slot.base rom.capacity)
    note (.romMapped slot.name slot.base (slot.base.toNat + rom.capacity - 1))
    return (rom, { base := slot.base, length := rom.capacity, enable })

/-- The outcome of a step that looks up names or makes chips, as the outcome of a step of building. -/
def orElse {α ε : Type} (wrap : ε → MachineError) : Except ε α → Building α
  | .ok v => return v
  | .error e => throw (wrap e)

/-- A machine's parts on their board, not yet installed.  Wires are laid before chips are made, and the
    decoder comes last. -/
def assemble (slots : List RomSlot) : Building (Board × Ram) := do
  let bare ← Board.forProcessor
  let (ramSelect, b) := bare.addLine Board.ramSelectLine
  let (enables, b) := layEnables slots b
  let address ← orElse .board (b.bus Board.addressBus)
  let data ← orElse .board (b.bus Board.dataBus)
  let rw ← orElse .board (b.line Board.rwLine)
  let clock ← orElse .board (b.line Board.clockLine)
  let (ram, b) ← orElse .chip (b.makeRam maxAddressLines address data rw ramSelect)
  -- the wires have been laid in the order of the slots, so each ROM gets its own
  let mapped ← (slots.zip enables).mapM fun (slot, enable) => mapRom address data slot enable
  -- the decoder looks at the windows in this order, so where two overlap the earlier one counts
  let decoder : Decoder := { address, rw, clock, ramSelect, windows := mapped.map (·.2) }
  let b := mapped.foldl (fun b entry => b.addDevice (.rom entry.1)) (b.addDevice (.ram ram))
  return (← orElse .board (b.addDevice (.decoder decoder)).plugIn, ram)

/-- The processor as it sees its circuit: the registers of the machine, and the world at its pins. -/
def processor (m : Machine) : Processor Fabric :=
  { registers := m.registers, world := m.board.circuit }

/-- The machine after its processor has done something; the names on the board and its list of chips are not
    the processor's business. -/
def withProcessor (m : Machine) (p : Processor Fabric) : Machine :=
  { m with registers := p.registers, board := { m.board with circuit := p.world } }

/-- Installs the parts, lets the interrupt wires rest high, and powers up chips and processor. -/
def boot (b : Board) (ram : Ram) (budget : Budget) : Building Machine := do
  let nmi ← orElse .board (b.line Board.nmiLine)
  let irq ← orElse .board (b.line Board.irqLine)
  let reset ← orElse .board (b.line Board.resetLine)
  let b ← b.installAll
  let b := b.attachInterrupts nmi irq reset
  -- the latches do not listen for this, so nothing is requested by it
  let b := [nmi, irq, reset].foldl (fun b wire => (b.drive wire .high).2) b
  let b := b.powerUpAll
  let b := { b with circuit := b.circuit.onPanel fun panel => { panel with budget } }
  let m : Machine := { board := b, registers := {}, ram }
  let p ← m.processor.powerUp
  -- reading the vector has driven the clock high
  return m.withProcessor p.endCycle

/-- Builds a machine that spends the credit of `budget`.  After it the processor is where its reset vector
    points. -/
def build (slots : List RomSlot) (budget : Budget) : Building Machine := do
  let (b, ram) ← assemble slots
  boot b ram budget

end Machine

end Breadboard
