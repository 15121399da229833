import Breadboard.Cpu.Processor
/-
  What comes of a computation, apart from what it reports.

  Reporting is all that the processor's steps use the journal for, so each of them has a plain form
  that needs none: `poweredUp`, `ran`, `cycled` and `stepped`.  The lemmas say, for every journal, that
  the plain form is what comes of the step.  Everything else about the processor is proved of the plain
  forms.
-/
namespace Breadboard

/-- What comes of one computation and then another, when it is known what comes of the first. -/
theorem fst_bind {α β : Type} {x : Logged α} {f : α → Logged β} {a : α} {j : Journal}
    (h : (x.run j).1 = a) : ((x >>= f).run j).1 = ((f a).run (x.run j).2).1 := by
  subst h
  rfl

namespace Processor

variable {μ : Type} [Memory μ]

/-- The registers cleared and no request pending: a processor that has lost power, just before it reads its
    vector. -/
def cleared (p : Processor μ) : Processor μ :=
  { p.onPanel (fun panel => { panel with requests := {} }) with
    registers := { p.registers with a := 0, x := 0, y := 0, flags := {}, sp := 0xFD } }

/-- Reads the reset vector, and starts there.  This is the microprogram inside `powerUp`, given a name so
    that it can be followed by itself. -/
def bootstrap : Micro Unit := do
  let target ← Micro.readWord resetVector
  modify fun r => { r with pc := target }

/-- What comes of `powerUp`; the report on the reset vector is all that it lacks. -/
def poweredUp (p : Processor μ) : Processor μ :=
  (p.cleared.perform bootstrap).2

/-- What comes of `run`.  The trace and the report on an unimplemented opcode are left out. -/
def ran (p : Processor μ) (i : Instruction) (servicing : Option Interrupt) (start : UInt16) :
    Except Fault Nat × Processor μ :=
  match p.perform (i.execute servicing start) with
  | (.ok extra, q) => (.ok (i.cycles + extra), (q.answer servicing).charge (i.cycles + extra))
  | (.error fault, q) => (.error fault, { q with registers := { q.registers with pc := start } })

/-- What comes of `cycle`, which is where most proofs about the processor begin. -/
def cycled (p : Processor μ) : Except Fault Nat × Processor μ :=
  if p.world.panel.requests.reset then (.ok resetCycles, p.poweredUp.charge resetCycles)
  else
    match p.world.panel.requests.next? with
    | some interrupt => p.ran (.decode 0x00) (some interrupt) p.registers.pc
    | none => p.fetchOpcode.2.ran (.decode p.fetchOpcode.1) none p.registers.pc

/-- What comes of `step`; only a step that succeeds ends its clock cycle. -/
def stepped (p : Processor μ) : Except Fault Nat × Processor μ :=
  match p.cycled with
  | (.ok cycles, q) => (.ok cycles, q.endCycle)
  | (.error fault, q) => (.error fault, q)

/-- Powering up reports where it starts, and that is the only difference to the plain form. -/
theorem fst_powerUp (p : Processor μ) (j : Journal) : (p.powerUp.run j).1 = p.poweredUp := rfl

/-- Executing an instruction comes to the same under every journal, whether it succeeds or fails. -/
theorem fst_run (p : Processor μ) (i : Instruction) (servicing : Option Interrupt)
    (start : UInt16) (j : Journal) :
    ((p.run i servicing start).run j).1 = p.ran i servicing start := by
  unfold run ran
  rcases p.perform (i.execute servicing start) with ⟨fault | extra, q⟩
  · cases fault <;> rfl
  · rfl

/-- A cycle comes to the same under every journal.  Proofs turn to `cycled` with this and see no journal
    again. -/
theorem fst_cycle (p : Processor μ) (j : Journal) : (p.cycle.run j).1 = p.cycled := by
  simp only [cycle, cycled]
  by_cases hreset : p.world.panel.requests.reset = true
  · rw [if_pos hreset, if_pos hreset]
    rfl
  · rw [if_neg hreset, if_neg hreset]
    cases p.world.panel.requests.next? with
    | none => exact fst_run p.fetchOpcode.2 (.decode p.fetchOpcode.1) none p.registers.pc j
    | some interrupt => exact fst_run p (.decode 0x00) (some interrupt) p.registers.pc _

/-- A step comes to the same under every journal. -/
theorem fst_step (p : Processor μ) (j : Journal) : (p.step.run j).1 = p.stepped := by
  unfold step stepped
  rw [fst_bind (fst_cycle p j)]
  rcases p.cycled with ⟨fault | cycles, q⟩ <;> rfl

end Processor

/-! ## What a processor can be asked for from outside

In any order and as often as one likes a request is latched, a quantum is granted, the count of executed
cycles is taken, or a cycle is run.  Only the last two have something to say; `Transcript` keeps what they
say, in the order of saying. -/

/-- One thing that is asked of a processor by somebody who has no access to its memory. -/
inductive Call where
  | request (kind : Request)
  | grant (quantum : Int64)
  | takeExecuted
  | cycle
deriving DecidableEq, Repr

/-- What a processor has said, in two lists because the two kinds of answers are compared in different
    ways. -/
structure Transcript where
  /-- The outcomes of the cycles. -/
  outcomes : List (Except Fault Nat) := []
  /-- The counts that were taken. -/
  taken : List UInt64 := []

/-- One transcript, and then another; each list goes on where it was. -/
def Transcript.append (t u : Transcript) : Transcript where
  outcomes := t.outcomes ++ u.outcomes
  taken := t.taken ++ u.taken

namespace Processor

variable {μ : Type} [Memory μ]

/-- Does one thing that is asked; only taking the count and running a cycle say anything. -/
def serve (p : Processor μ) : Call → Logged (Transcript × Processor μ)
  | .request kind => return ({}, p.onPanel (·.raise kind))
  | .grant quantum => return ({}, p.onPanel (·.grant quantum))
  | .takeExecuted =>
    let (executed, budget) := p.world.panel.budget.takeExecuted
    return ({ taken := [executed] }, p.onPanel fun panel => { panel with budget })
  | .cycle => do
    let (outcome, p) ← p.cycle
    return ({ outcomes := [outcome] }, p)

/-- Does what is asked, one thing after the other, and keeps everything that is said. -/
def serveAll : List Call → Processor μ → Logged (Transcript × Processor μ)
  | [], p => return ({}, p)
  | call :: calls, p => do
    let (first, p) ← p.serve call
    let (rest, p) ← serveAll calls p
    return (first.append rest, p)

/-- What comes of `serve`, with the journal left out as before. -/
def served (p : Processor μ) : Call → Transcript × Processor μ
  | .request kind => ({}, p.onPanel (·.raise kind))
  | .grant quantum => ({}, p.onPanel (·.grant quantum))
  | .takeExecuted => ({ taken := [p.world.panel.budget.executed] }, p.onPanel fun panel =>
      { panel with budget := { panel.budget with executed := 0 } })
  | .cycle => ({ outcomes := [p.cycled.1] }, p.cycled.2)

/-- What comes of `serveAll`; inductions on a list of calls go by this form. -/
def servedAll : List Call → Processor μ → Transcript × Processor μ
  | [], p => ({}, p)
  | call :: calls, p =>
    let rest := servedAll calls (p.served call).2
    ((p.served call).1.append rest.1, rest.2)

/-- Whatever is asked comes to the same under every journal. -/
theorem fst_serve (p : Processor μ) (call : Call) (j : Journal) :
    ((p.serve call).run j).1 = p.served call := by
  cases call with
  | request kind => rfl
  | grant quantum => rfl
  | takeExecuted => rfl
  | cycle =>
    unfold serve served
    rw [fst_bind (p.fst_cycle j)]
    rfl

/-- A list of calls comes to the same under every journal.  By induction: what one call leaves in the
    journal does not matter to the next. -/
theorem fst_serveAll (calls : List Call) (p : Processor μ) (j : Journal) :
    ((p.serveAll calls).run j).1 = p.servedAll calls := by
  induction calls generalizing p j with
  | nil => rfl
  | cons call calls ih =>
    unfold serveAll servedAll
    rw [fst_bind (p.fst_serve call j)]
    dsimp only
    rw [fst_bind (ih (p.served call).2 _)]
    rfl

end Processor

end Breadboard
