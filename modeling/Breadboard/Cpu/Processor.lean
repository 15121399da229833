import Breadboard.Cpu.Documented
import Breadboard.Cpu.Execute
import Breadboard.Log.Journal
import Breadboard.Memory.World
/-
  The processor: registers, and the world at its pins.

  `cycle` does one thing at a time.  A pending RESET goes before everything else; then NMI and then IRQ
  are entered through the BRK routine without fetching an opcode; otherwise the instruction at the
  program counter is executed.  What it costs is charged to the budget afterwards.  A fault charges
  nothing and leaves the program counter at the instruction that failed.

  The request for an interrupt is taken back at the end of its entry, after the last access.

  `runLoop` goes from instruction to instruction as far as the panel allows.  Before each instruction the
  panel is asked.  A stop ends the run; a fault ends it too, before the clock cycle of the failed instruction
  would have ended.  While the panel says to hold, nothing is executed, and it is up to `asleep` to say what
  the rest of the world does to the panel meanwhile; if that is nothing, the run is stuck.  `fuel` bounds the
  number of instructions and sleeps.
-/
namespace Breadboard

/-- A processor and what it is plugged into.  Everything about it that others may touch is on the panel of
    its world. -/
structure Processor (μ : Type) where
  registers : Registers := {}
  world : World μ

namespace Processor

variable {μ α : Type} [Memory μ]

/-- The cycles a reset takes, which are charged like those of an instruction. -/
def resetCycles : Nat := 7

/-- Carries out a microprogram in the world at the pins; the registers as they are at a fault are kept. -/
def perform (p : Processor μ) (m : Micro α) : Except Fault α × Processor μ :=
  let ((outcome, registers), world) := (m p.registers).play p.world
  (outcome, { registers, world })

/-- Changes the panel, and nothing else in the world; whatever others do to a running processor is of this
    kind. -/
def onPanel (p : Processor μ) (f : Panel → Panel) : Processor μ :=
  { p with world := { p.world with panel := f p.world.panel } }

/-- Charges the budget, and counts the cycles in the register for it; both wrap. -/
def charge (p : Processor μ) (cycles : Nat) : Processor μ :=
  { p.onPanel (·.charge cycles) with
    registers := { p.registers with cycles := p.registers.cycles + UInt64.ofNat cycles } }

/-- Clears the registers and all requests, and starts at the reset vector.  The counter of cycles and the
    address latch are not registers that are cleared. -/
def powerUp (p : Processor μ) : Logged (Processor μ) := do
  let cleared :=
    { p.onPanel (fun panel => { panel with requests := {} }) with
      registers := { p.registers with a := 0, x := 0, y := 0, flags := {}, sp := 0xFD } }
  let (_, started) := cleared.perform do
    let target ← Micro.readWord resetVector
    modify fun r => { r with pc := target }
  -- reading the vector cannot fail, so its outcome is of no interest
  note (.resetVector started.registers.pc)
  return started

/-- Reads the opcode at the program counter, and steps over it; after a fault the step is taken back, the
    latch is not. -/
def fetchOpcode (p : Processor μ) : UInt8 × Processor μ :=
  let pc := p.registers.pc
  let (opcode, world) := Memory.read pc p.world
  (opcode, { registers := { p.registers with pc := pc + 1, addressLatch := pc }, world })

/-- The end of an interrupt's entry takes back its request.  Whatever was requested again in the course of
    the entry is taken back with it. -/
def answer (p : Processor μ) : Option Interrupt → Processor μ
  | none => p
  | some interrupt =>
    p.onPanel fun panel => { panel with requests := panel.requests.clear interrupt }

/-- Executes an instruction that started at `start`, as itself or for an interrupt that is being entered.
    After a fault nothing is charged, and the program counter is back at `start`. -/
def run (p : Processor μ) (i : Instruction) (servicing : Option Interrupt) (start : UInt16) :
    Logged (Except Fault Nat × Processor μ) := do
  note (.trace start i p.registers)
  match p.perform (i.execute servicing start) with
  | (.ok extra, p) =>
    let cycles := i.cycles + extra
    return (.ok cycles, (p.answer servicing).charge cycles)
  | (.error fault, p) =>
    match fault with
    | .unimplementedOpcode opcode pc => note (.unimplemented opcode pc)
    | _ => pure ()
    -- what the instruction has read so far has been read, and the latch is where that was
    return (.error fault, { p with registers := { p.registers with pc := start } })

/-- Executes one instruction, or services one request; the result is the cycles charged. -/
def cycle (p : Processor μ) : Logged (Except Fault Nat × Processor μ) := do
  let requests := p.world.panel.requests
  let start := p.registers.pc
  if requests.reset then
    let p ← p.powerUp
    return (.ok resetCycles, p.charge resetCycles)
  match requests.next? with
  | some interrupt =>
    note (.servicing interrupt start)
    -- 0x00 is the opcode of BRK; it is not read from anywhere
    p.run (.decode 0x00) (some interrupt) start
  | none =>
    -- from here on even an instruction that fails has made one access
    let (opcode, p) := p.fetchOpcode
    p.run (.decode opcode) none start

/-- Lets the world end its clock cycle; nothing happens to the processor then. -/
def endCycle (p : Processor μ) : Processor μ :=
  { p with world := Memory.endCycle p.world }

/-- One instruction and, if it succeeds, the end of its clock cycle; a failed instruction leaves the clock
    as it is. -/
def step (p : Processor μ) : Logged (Except Fault Nat × Processor μ) := do
  match ← p.cycle with
  | (.ok cycles, p) => return (.ok cycles, p.endCycle)
  | (.error fault, p) => return (.error fault, p)

end Processor

/-! ## Running -/

/-- How a run ends.  The last two are for runs that would go on if there were more to go on with. -/
inductive Ending where
  /-- The panel has ordered a halt. -/
  | stopped
  /-- An instruction could not be executed. -/
  | failed (fault : Fault)
  /-- Held, with nothing left that could change that. -/
  | stuck
  /-- The bound on instructions and sleeps has been reached. -/
  | outOfFuel
deriving DecidableEq, Repr

namespace Processor

variable {μ : Type} [Memory μ]

/-- Runs until the panel orders a halt, or an instruction fails.  What happens while the processor sleeps
    comes from `asleep`. -/
def runLoop (asleep : Panel → Option Panel) : Nat → Processor μ → Logged (Ending × Processor μ)
  | 0, p => return (.outOfFuel, p)
  | fuel + 1, p => do
    match p.world.panel.order with
    -- a stop goes before credit and before a pause, so a paused run can be stopped
    | .halt => return (.stopped, p)
    -- this is the only place where somebody else gets a turn
    | .hold =>
      match asleep p.world.panel with
      | none => return (.stuck, p)
      | some panel => runLoop asleep fuel (p.onPanel fun _ => panel)
    | .go =>
      match ← p.step with
      | (.ok _, p) => runLoop asleep fuel p
      | (.error fault, p) =>
        note (.fatal fault)
        return (.failed fault, p)

/-! ## Counted runs -/

/-- What a counted run comes to, up to its first fault. -/
structure Tally where
  /-- How many instructions succeeded. -/
  ran : Nat := 0
  /-- The cycles they were charged. -/
  charged : Nat := 0
  /-- The fault that ended it, if one did. -/
  fault : Option Fault := none
deriving DecidableEq, Repr

/-- Advances so many times, or until the program counter is at `goal`, or until a fault. -/
def advanceFor (advance : Processor μ → Logged (Except Fault Nat × Processor μ))
    (goal : Option UInt16) : Nat → Tally → Processor μ → Logged (Tally × Processor μ)
  | 0, tally, p => return (tally, p)
  | n + 1, tally, p => do
    if goal = some p.registers.pc then
      return (tally, p)
    match ← advance p with
    | (.error fault, p) => return ({ tally with fault := some fault }, p)
    | (.ok cycles, p) =>
      advanceFor advance goal n
        { tally with ran := tally.ran + 1, charged := tally.charged + cycles } p

end Processor

end Breadboard
