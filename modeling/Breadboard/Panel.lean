/-
  The control panel: everything about a running processor that others may touch while it runs.

  Listeners on the interrupt wires latch requests, a front end stops, pauses and resumes the run, and
  the clock grants credit.  The processor looks at the panel between instructions.

  Cycle credit is shared by the processor that spends it and the clock that grants it.  A grant sets the
  credit to a quantum, less the debt that the last instruction may have left, so unspent credit does not
  pile up and overdrawn credit is not forgotten.  A charge takes the cost of an instruction after it has
  run, which is why credit can go below zero.  Credit is a signed and the counters are unsigned 64-bit
  words, and all of them wrap.
-/
namespace Breadboard

/-! ## Credit -/

/-- The credit and its counters.  A processor may only take from the credit, a clock only add to it, and
    each may do so at any time. -/
structure Budget where
  /-- The cycles that may still be spent; below zero after an instruction that cost more than there was. -/
  credit : Int64 := 0
  /-- Cycles charged since they were last taken. -/
  executed : UInt64 := 0
  /-- How many grants there were. -/
  grants : UInt64 := 0
  /-- Whether a wake-up is waiting to be taken. -/
  released : Bool := false
deriving DecidableEq, Repr, Inhabited

namespace Budget

/-- Sets the credit to `quantum` less any debt, and wakes a sleeper.  What was left of an earlier grant is
    dropped. -/
def grant (b : Budget) (quantum : Int64) : Budget :=
  { b with
    -- credit that is left over is lost, a debt is not
    credit := quantum + if b.credit < 0 then b.credit else 0
    grants := b.grants + 1
    released := true }

/-- Takes the cost of an instruction that has run.  It does not ask whether the credit covers it: that was
    settled before. -/
def charge (b : Budget) (cycles : Nat) : Budget :=
  { b with
    credit := b.credit - Int64.ofNat cycles
    executed := b.executed + UInt64.ofNat cycles }

/-- Whether an instruction may start.  One cycle of credit is enough, whatever the instruction will cost. -/
def affordable (b : Budget) : Bool :=
  1 ≤ b.credit

/-- The cycles charged since this was last asked; the count begins again at zero. -/
def takeExecuted (b : Budget) : UInt64 × Budget :=
  (b.executed, { b with executed := 0 })

/-- Leaves a wake-up for whoever sleeps, or will; a second one before the first is taken is the same one. -/
def wake (b : Budget) : Budget :=
  { b with released := true }

end Budget

/-! ## Requests, controls, and the panel -/

/-- The interrupts that push a return address and jump through a vector; a reset does neither. -/
inductive Interrupt where
  | nmi
  | irq
deriving DecidableEq, Repr

/-- What an interrupt is called in the report that it is serviced. -/
def Interrupt.name : Interrupt → String
  | .nmi => "Nmi"
  | .irq => "Irq"

/-- The inputs that can ask for the processor's attention, each with a latch of its own. -/
inductive Request where
  | nmi
  | irq
  | reset
deriving DecidableEq, Repr

/-- The requests that have been made and not been answered yet.  One that is made twice is answered once. -/
structure Requests where
  nmi : Bool := false
  irq : Bool := false
  reset : Bool := false
deriving DecidableEq, Repr, Inhabited

namespace Requests

/-- Latches a request; the other two are left as they are. -/
def raise (r : Requests) : Request → Requests
  | .nmi => { r with nmi := true }
  | .irq => { r with irq := true }
  | .reset => { r with reset := true }

/-- Takes back the request for one interrupt; those for a reset are taken back by powering up. -/
def clear (r : Requests) : Interrupt → Requests
  | .nmi => { r with nmi := false }
  | .irq => { r with irq := false }

/-- The interrupt to service next, if there is one: NMI goes before IRQ. -/
def next? (r : Requests) : Option Interrupt :=
  if r.nmi then some .nmi else if r.irq then some .irq else none

end Requests

/-- How a front end holds a run: for good, or until it is resumed. -/
structure Control where
  stopped : Bool := false
  paused : Bool := false
deriving DecidableEq, Repr, Inhabited

/-- Everything that the processor shares with the rest of the world, except for the bus. -/
structure Panel where
  requests : Requests := {}
  control : Control := {}
  budget : Budget := {}
  /-- How many more clock cycles may end before the run is stopped, if that has been ordered. -/
  countdown : Option Nat := none
deriving DecidableEq, Repr, Inhabited

/-- What the processor is to do next, as it is settled before each instruction. -/
inductive Order where
  /-- End the run. -/
  | halt
  /-- Start no instruction for now. -/
  | hold
  /-- Execute an instruction. -/
  | go
deriving DecidableEq, Repr

namespace Panel

/-- A stop ends the run, even a paused one; a pause holds it whatever the credit is. -/
def order (p : Panel) : Order :=
  if p.control.stopped then .halt
  else if p.control.paused then .hold
  -- one cycle is enough to start with
  else if p.budget.affordable then .go
  else .hold

/-- Latches a request.  This works at any time, also while the processor is held. -/
def raise (p : Panel) (r : Request) : Panel :=
  { p with requests := p.requests.raise r }

/-- Orders a halt, and wakes whoever sleeps so that the order is seen. -/
def stop (p : Panel) : Panel :=
  { p with control := { p.control with stopped := true }, budget := p.budget.wake }

/-- Holds the run from the next instruction on.  Nobody has to be woken for that. -/
def pause (p : Panel) : Panel :=
  { p with control := { p.control with paused := true } }

/-- Takes a pause back, and wakes whoever sleeps; a stop cannot be taken back. -/
def resume (p : Panel) : Panel :=
  { p with control := { p.control with paused := false }, budget := p.budget.wake }

/-- Grants a quantum of credit, and wakes whoever sleeps, for there may be enough now. -/
def grant (p : Panel) (quantum : Int64) : Panel :=
  { p with budget := p.budget.grant quantum }

/-- Charges the cost of an instruction to the budget, after the instruction. -/
def charge (p : Panel) (cycles : Nat) : Panel :=
  { p with budget := p.budget.charge cycles }

/-- A clock cycle has ended; the last one that was allowed stops the run. -/
def countDown (p : Panel) : Panel :=
  match p.countdown with
  | none => p
  | some (n + 2) => { p with countdown := some (n + 1) }
  -- with one cycle left or none this is the last
  | some _ => { p.stop with countdown := some 0 }

end Panel

end Breadboard
