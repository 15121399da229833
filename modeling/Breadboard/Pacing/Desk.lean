import Breadboard.Panel
/-
  The two sides of the pacing: the processor that waits at the panel, and those who work on the panel.

  A waiter waits until it may execute an instruction.  It looks at the stop, then at the pause, then at the
  credit, each in a step of its own, so the panel may change in between.  When it may not go on it sleeps
  until the wake-up slot is full, empties the slot, and looks at everything again.  `settle` lets a waiter go
  on until it sleeps or has its answer.

  A plan says what is done at the panel, and after how many instructions.  A front desk is one budget, and
  the controls that have been handed out for it.
-/
namespace Breadboard

/-- Where somebody is who waits for leave.  While it is up it looks at one thing at a time, and always in
    the same order. -/
inductive Waiter where
  /-- About to look at the stop, which comes first. -/
  | checkStop
  /-- About to look at the pause, after there was no stop. -/
  | checkPause
  /-- About to look at the credit, after there was no pause. -/
  | checkCredit
  /-- Asleep until the wake-up slot is full. -/
  | asleep
  /-- Awake, about to empty the slot. -/
  | awake
  /-- Back, with leave to execute an instruction or with the order to end. -/
  | answered (leave : Bool)
deriving DecidableEq, Repr

namespace Waiter

/-- The next step, unless there is none to make for now: a sleeper waits for the slot, and an answer is
    final. -/
def step? (panel : Panel) : Waiter → Option (Waiter × Panel)
  | .checkStop => some (if panel.control.stopped then .answered false else .checkPause, panel)
  | .checkPause => some (if panel.control.paused then .asleep else .checkCredit, panel)
  | .checkCredit => some (if panel.budget.affordable then .answered true else .asleep, panel)
  | .asleep => if panel.budget.released then some (.awake, panel) else none
  | .awake =>
    some (.checkStop, { panel with budget := { panel.budget with released := false } })
  | .answered _ => none

/-- Makes steps while there are steps to make, at most so many; what happens at the panel comes between such
    rounds. -/
def steps : Nat → Waiter → Panel → Waiter × Panel
  | 0, w, panel => (w, panel)
  | n + 1, w, panel =>
    match w.step? panel with
    | none => (w, panel)
    | some (w, panel) => steps n w panel

/-- Lets the waiter go on until it sleeps or has its answer; emptying the slot leaves it empty, so there
    are at most two rounds. -/
def settle (w : Waiter) (panel : Panel) : Waiter × Panel :=
  steps 10 w panel

/-- What the waiter has been told, if it has its answer already. -/
def answer? : Waiter → Option Bool
  | .answered leave => some leave
  | _ => none

end Waiter

/-! ## Plans

After instruction number k the planned interventions of that number are made, then the run is stopped if it
has gone on for long enough, and then credit is refilled: grants are taken from a supply until an instruction
can be afforded, and when the supply is used up the run is stopped. -/

/-- Something done at the panel by somebody who watches a run. -/
inductive Intervention where
  | raise (request : Request)
  | stop
deriving DecidableEq, Repr

/-- Does it, by the same door as anybody else at the panel. -/
def Intervention.apply (panel : Panel) : Intervention → Panel
  | .raise request => panel.raise request
  | .stop => panel.stop

/-- What is still to be done in the course of a run.  Nothing of it depends on what the processor computes. -/
structure Plan where
  /-- How many instructions have been executed. -/
  count : Nat := 0
  /-- What is done after which instruction. -/
  interventions : List (Nat × Intervention) := []
  /-- After how many instructions the run is stopped. -/
  stopAfter : Option Nat := none
  /-- The quanta still to be granted. -/
  supply : List Int64 := []
deriving DecidableEq, Repr

namespace Plan

/-- Grants from the supply until an instruction can be afforded; the run is stopped when there is nothing
    left to grant. -/
def refill : List Int64 → Panel → List Int64 × Panel
  | supply, panel =>
    if panel.budget.affordable then (supply, panel)
    else
      match supply with
      | [] => ([], panel.stop)
      | quantum :: rest => refill rest (panel.grant quantum)

/-- Sees to the credit before the first instruction, as `act` does after each. -/
def start (plan : Plan) (panel : Panel) : Plan × Panel :=
  let (supply, panel) := refill plan.supply panel
  ({ plan with supply }, panel)

/-- What is done after one more instruction: the interventions that are due, then the stop, then the
    credit. -/
def act (plan : Plan) (panel : Panel) : Plan × Panel :=
  let count := plan.count + 1
  let due := plan.interventions.filter (·.1 = count)
  let panel := due.foldl (fun panel entry => entry.2.apply panel) panel
  let panel := if plan.stopAfter.any (· ≤ count) then panel.stop else panel
  { plan with count }.start panel

end Plan

/-! ## The front desk

Every control is a handle on a stop and a pause flag.  A new control has flags of its own; a copy of a
control shares its flags. -/

/-- A budget that several controls share, each with a stop and a pause that it may share with others or have
    to itself. -/
structure Desk where
  /-- The one budget; every control grants into it. -/
  budget : Budget := {}
  /-- The flags that handles refer to. -/
  flags : List Control := [{}]
  /-- Which flags each handle refers to. -/
  handles : List Nat := [0]
deriving DecidableEq, Repr

/-- What can be done with a control in hand; only a stop and a pause depend on which control it is. -/
inductive DeskAction where
  | grant (quantum : Int64)
  | wake
  | stop
  | pause
  | resume
deriving DecidableEq, Repr

/-- Does it at the panel that belongs to the control. -/
def DeskAction.apply (panel : Panel) : DeskAction → Panel
  | .grant quantum => panel.grant quantum
  | .wake => { panel with budget := panel.budget.wake }
  | .stop => panel.stop
  | .pause => panel.pause
  | .resume => panel.resume

namespace Desk

/-- Hands out a control with flags of its own, which nobody has stopped or paused yet. -/
def issue (d : Desk) : Desk :=
  { d with flags := d.flags ++ [{}], handles := d.handles ++ [d.flags.length] }

/-- Hands out another handle on the flags of a control: what is done with one is done with both. -/
def copy (d : Desk) (handle : Nat) : Desk :=
  { d with handles := d.handles ++ [d.handles.getD handle 0] }

/-- The panel as a control sees it: the common budget, and its own flags.  Nothing can be requested here. -/
def panel (d : Desk) (handle : Nat) : Panel :=
  { budget := d.budget, control := d.flags.getD (d.handles.getD handle 0) {} }

/-- The desk after a control has changed its panel: the budget for all, the flags for those that share
    them. -/
def withPanel (d : Desk) (handle : Nat) (panel : Panel) : Desk :=
  { d with
    budget := panel.budget, flags := d.flags.set (d.handles.getD handle 0) panel.control }

/-- Does something with a control, and puts down for everybody else what has changed. -/
def act (d : Desk) (handle : Nat) (action : DeskAction) : Desk :=
  d.withPanel handle (action.apply (d.panel handle))

/-- Waits for leave to execute an instruction, while the given things are done one after the other; the
    answer, if there is one in the end. -/
def acquire (d : Desk) (handle : Nat) (meanwhile : List DeskAction) : Option Bool × Desk :=
  let first := Waiter.settle .checkStop (d.panel handle)
  let (waiter, panel) := meanwhile.foldl
    (fun (waiter, panel) action => Waiter.settle waiter (action.apply panel)) first
  (waiter.answer?, d.withPanel handle panel)

end Desk

namespace Budget

/-- Charges a cost as often as the credit allows, and counts the charges. -/
def drain (b : Budget) (cost : Nat) : Nat × Budget :=
  if b.affordable && cost ≠ 0 then
    let times := (b.credit.toInt.toNat + cost - 1) / cost
    (times, b.charge (times * cost))
  else (0, b)

end Budget

end Breadboard
