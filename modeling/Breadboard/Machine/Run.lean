import Breadboard.Machine.Build
import Breadboard.Board.Probing
import Breadboard.Config.Json
/-
  A machine at work: single steps, pulses on its wires, and paced runs.

  A run is paced by a clock that grants a quantum of cycles as the run begins, and another one each time
  the processor has to wait for credit.
-/
namespace Breadboard

namespace Machine

/-- Changes the panel of a machine, as anybody may while it runs. -/
def onPanel (m : Machine) (f : Panel → Panel) : Machine :=
  { m with board := { m.board with circuit := m.board.circuit.onPanel f } }

/-- The panel of a machine, by which others follow and hold its run. -/
def panel (m : Machine) : Panel :=
  m.board.circuit.panel

/-- Executes one instruction of the machine's processor, or services a request. -/
def step (m : Machine) : Logged (Except Fault Nat × Machine) := do
  let (outcome, p) ← m.processor.step
  return (outcome, m.withProcessor p)

/-- Drives a wire low and then high again, by its name; on an interrupt wire that makes a request. -/
def pulse (m : Machine) (name : String) : Except BoardError Machine := do
  let wire ← m.board.line name
  -- listeners are called for both levels, even if the wire was at one of them already
  let low := (m.board.drive wire .low).2
  return { m with board := (low.drive wire .high).2 }

/-- Lets the panel count clock cycles, after everything else that they do, because its listener is the last
    one. -/
def countClock (m : Machine) : Except BoardError Machine := do
  let clock ← m.board.line Board.clockLine
  return { m with board := m.board.onFabric (·.listen clock .low .countdown) }

/-- What a paced run comes to, if it does not fail; a failure is told by its error. -/
inductive RunOutcome where
  /-- It was stopped, after so many cycles. -/
  | stopped (cycles : UInt64)
  /-- It was still going when the fuel ran out. -/
  | unfinished

/-- What happens while the processor waits: the clock grants another quantum, unless the run is
    paused, which only the panel can end. -/
def tick (quantum : Int64) (panel : Panel) : Option Panel :=
  if panel.control.paused then none else some (panel.grant quantum)

/-- Runs at a pace until the panel orders a halt.  The clock is simulated: it ticks whenever the processor
    has to wait for it. -/
def run (m : Machine) (pace : Pace) (fuel : Nat) :
    Logged (Except MachineError RunOutcome × Machine) := do
  match ← pace.start with
  | .error reason => return (.error (.pace reason), m)
  | .ok quantum =>
    -- the clock ticks for the first time as the run begins
    let granted := m.processor.onPanel (·.grant quantum)
    let (ending, p) ← granted.runLoop (tick quantum) fuel
    pace.finish
    let outcome :=
      match ending with
      -- the counter may have wrapped meanwhile, and the difference is right all the same
      | .stopped => .ok (.stopped (p.registers.cycles - m.registers.cycles))
      | .failed fault => .error (.fault fault)
      | .stuck | .outOfFuel => .ok .unfinished
    return (outcome, m.withProcessor p)

end Machine

/-! ## How registers and machines are shown -/

open Config

/-- The registers by name, the status both as a byte and flag by flag. -/
def Registers.toJson (r : Registers) : Json :=
  .ofMembers [
    ("a", .ofNat r.a.toNat), ("x", .ofNat r.x.toNat), ("y", .ofNat r.y.toNat),
    ("sp", .ofNat r.sp.toNat), ("pc", .ofNat r.pc.toNat), ("p", .ofNat r.flags.toByte.toNat),
    ("flags", r.flags.toJson), ("address_latch", .ofNat r.addressLatch.toNat),
    ("cycles", .ofNat r.cycles.toNat)]

/-- The levels of all named wires, high as true, by name. -/
def Board.levels (b : Board) : List (String × Bool) :=
  b.lines.names.filterMap fun name =>
    (b.lines.lookup name).map fun wire => (name, (b.fabric.wire wire).level.isHigh)

/-- The registers, the budget and the levels of the wires, by name, everything in the order of names. -/
def Machine.toJson (m : Machine) : Json :=
  Json.sorted <| .ofMembers [
    ("cpu", m.registers.toJson),
    ("budget", .ofMembers [
      ("credit", .ofInt m.panel.budget.credit.toInt),
      ("grants", .ofNat m.panel.budget.grants.toNat)]),
    ("lines", .ofMembers (m.board.levels.map fun (name, high) => (name, .bool high)))]

end Breadboard
