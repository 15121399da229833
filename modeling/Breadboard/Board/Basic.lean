import Breadboard.Circuit.Dispatch
import Breadboard.Text.Shown
/-
  A board: a circuit whose wires and buses have names, and the chips on it.

  Two names may stand for the same wire.  A name given again stands for the new wire from then on; what
  was connected by the old one stays connected.  A chip on the board does nothing until it is installed,
  which is when it starts to listen on its wires; installing it twice makes it listen twice.
-/
namespace Breadboard

/-- Names, and what they stand for.  No name is in it twice, and looking one up finds the latest meaning. -/
abbrev Directory (α : Type) := List (String × α)

/-- Gives a name a meaning, in place of any it had.  Whoever has found the old meaning before keeps it. -/
def Directory.put {α : Type} (d : Directory α) (name : String) (v : α) : Directory α :=
  (name, v) :: d.filter (·.1 ≠ name)

/-- All names, in alphabetical order, whatever the order they were given in. -/
def Directory.names {α : Type} (d : Directory α) : List String :=
  (d.map (·.1)).mergeSort (· ≤ ·)

/-- A name that the board does not know, and what it was looked up as. -/
inductive BoardError where
  | missingBus (name : String)
  | missingLine (name : String)
deriving DecidableEq, Repr

open Text in
/-- The error in words, with the name in quotes as it was asked for. -/
def BoardError.message : BoardError → String
  | .missingBus name => s!"no bus named {quoted name} on the board"
  | .missingLine name => s!"no line named {quoted name} on the board"

/-- Named wires and buses, the chips on them, and the circuit that they make. -/
structure Board where
  lines : Directory WireId := []
  buses : Directory BusId := []
  devices : List Device := []
  circuit : Circuit := { memory := {} }

namespace Board

/-- What the circuit of the board is made of, without the panel. -/
def fabric (b : Board) : Fabric :=
  b.circuit.memory

/-- The wire of a name, if the board has one. -/
def line (b : Board) (name : String) : Except BoardError WireId :=
  match b.lines.lookup name with
  | some wire => .ok wire
  | none => .error (.missingLine name)

/-- The bus of a name, if the board has one. -/
def bus (b : Board) (name : String) : Except BoardError BusId :=
  match b.buses.lookup name with
  | some bus => .ok bus
  | none => .error (.missingBus name)

/-- Changes the fabric, and the names not; nor the panel. -/
def onFabric (b : Board) (f : Fabric → Fabric) : Board :=
  { b with circuit := b.circuit.onFabric f }

/-- Names a wire; a wire that had the name before is still there, but cannot be found by it. -/
def nameLine (b : Board) (name : String) (wire : WireId) : Board :=
  { b with lines := b.lines.put name wire }

/-- Names a bus, in the same way; a bus that had the name before cannot be found by it any more. -/
def nameBus (b : Board) (name : String) (bus : BusId) : Board :=
  { b with buses := b.buses.put name bus }

/-- Lays a new wire and gives it a name, which may be one that is in use. -/
def addLine (b : Board) (name : String) : WireId × Board :=
  let (wire, fabric) := b.fabric.addWire {}
  (wire, (b.onFabric fun _ => fabric).nameLine name wire)

/-- Lays a new bus and gives it a name, which may be one that is in use. -/
def addBus (b : Board) (name : String) (bus : Bus) : BusId × Board :=
  let (id, fabric) := b.fabric.addBus bus
  (id, (b.onFabric fun _ => fabric).nameBus name id)

/-! ## The processor's place -/

/-- The name of the bus that the processor puts addresses on. -/
def addressBus : String := "address"
/-- The name of the bus that bytes come and go on. -/
def dataBus : String := "data"
/-- The name of the wire that is high for a read and low for a write. -/
def rwLine : String := "RW"
/-- The name of the wire whose going low requests an NMI. -/
def nmiLine : String := "NMI"
/-- The name of the wire whose going low requests an IRQ. -/
def irqLine : String := "IRQ"
/-- The name of the wire whose going low requests a reset. -/
def resetLine : String := "RESET"
/-- The name of the wire that is high while chips do their work. -/
def clockLine : String := "CLK2"
/-- The name of the wire that selects the RAM when it is low. -/
def ramSelectLine : String := "RAM_CS"

/-- A board with the buses and wires that a processor connects to, in the order of their numbers. -/
def forProcessor : Logged Board := do
  let address ← Bus.ofWidth 16
  let data ← Bus.ofWidth 8
  let withBuses := ((({} : Board).addBus addressBus address).2.addBus dataBus data).2
  return [rwLine, nmiLine, irqLine, resetLine, clockLine].foldl (fun b name => (b.addLine name).2)
    withBuses

/-- Where a processor plugs in, by the names of its buses and wires; a name that is missing is the error. -/
def socket (b : Board) : Except BoardError Socket := do
  return {
    address := ← b.bus addressBus
    data := ← b.bus dataBus
    rw := ← b.line rwLine
    clock := ← b.line clockLine }

/-- Plugs the processor in: from now on its accesses go to the wires that have these names now. -/
def plugIn (b : Board) : Except BoardError Board := do
  let socket ← b.socket
  return b.onFabric fun f => { f with socket }

/-- Drives a wire; the result is the level it had, as for anybody who drives one. -/
def drive (b : Board) (wire : WireId) (level : Level) : Level × Board :=
  let (previous, circuit) := Circuit.drive wire level b.circuit
  (previous, { b with circuit })

/-- Lets the three interrupt wires latch their requests when they go low.  High levels mean nothing to
    them. -/
def attachInterrupts (b : Board) (nmi irq reset : WireId) : Board :=
  b.onFabric fun f =>
    ((f.listen nmi .low (.request .nmi)).listen irq .low (.request .irq)).listen reset .low
      (.request .reset)

/-! ## Chips -/

/-- Makes a RAM whose cells are all zero.  It is not installed yet, so nothing can select it. -/
def makeRam (b : Board) (lines : Nat) (address data : BusId) (rw select : WireId) :
    Except ChipError (Ram × Board) := do
  checkLines lines
  let (store, fabric) := b.fabric.addStore (.blank lines)
  return ({ lines, store, address, data, rw, select }, b.onFabric fun _ => fabric)

/-- Puts a chip on the board, after those that are there; installing it is another step. -/
def addDevice (b : Board) (d : Device) : Board :=
  { b with devices := b.devices ++ [d] }

/-- Lets a chip listen on its wires.  What a chip does for an access it does because one of these wires is
    driven. -/
def install (b : Board) : Device → Logged Board
  | .rom chip => do
    note (.romInstalled chip.name chip.capacity)
    return b.onFabric (·.listen chip.enable .low (.rom chip))
  | .ram chip => do
    note (.ramInstalled chip.capacity)
    return b.onFabric (·.listen chip.select .low (.ram chip))
  | .decoder chip =>
    return b.onFabric fun f =>
      -- selecting comes first: the chip is called, and then all wires are let go again
      (f.listen chip.clock .high (.select chip)).listen chip.clock .high (.release chip)

/-- Brings a chip to the state it has when power comes on: a RAM is blank, and a decoder lets its wires
    go high. -/
def powerUp (b : Board) : Device → Board
  -- a ROM keeps its bytes without power
  | .rom _ => b
  | .ram chip => b.onFabric (·.setStore chip.store (.blank chip.lines))
  | .decoder chip => chip.outputs.foldl (fun b wire => (b.drive wire .high).2) b

/-- Installs all chips, in the order they were added, which is the order in which one wire calls them. -/
def installAll (b : Board) : Logged Board :=
  b.devices.foldlM install b

/-- Powers up all chips, in the order they were added; only a RAM and a decoder have anything to do. -/
def powerUpAll (b : Board) : Board :=
  b.devices.foldl powerUp b

end Board

end Breadboard
