import Breadboard.Proofs.Service
import Breadboard.Proofs.Wiring
/-
  Interrupt requests, over whole runs.

  A bench goes through any operations in any order: requests are made by calls and by wires, taken back,
  and serviced by cycles of the processor, which may fail.  Three parties share the latch, so what is
  pending is put in terms of the operations alone.  An operation may ask for an input (`Asks`), and it may
  consume what is pending (`Consumes`), which for a cycle depends on what it services.  A request is
  pending exactly when some operation asked for it and no operation after that consumed it.

  `pending_applied` is that for one operation; the wires stay attached all the while (`Latches`), so that
  driving one low keeps being a request.  `pending_undergo` follows by induction over the operations.
-/
namespace Breadboard

namespace Bench

/-- What can be done to a bench from outside.  Requests come by calls and by wires, are taken back, and are
    consumed by cycles of the processor. -/
inductive Operation where
  /-- Make a request by a call. -/
  | request (kind : Request)
  /-- Drive the wire of an input, to whatever level. -/
  | drive (kind : Request) (level : Level)
  /-- Take back the request for one interrupt. -/
  | clear (i : Interrupt)
  /-- Take back all requests. -/
  | clearAll
  | powerUp
  /-- One cycle of the processor, whatever comes of it. -/
  | cycle

/-- The bench after an operation, with the messages it writes.  A failing cycle is an operation like any
    other and leaves the bench in the state it failed in. -/
def apply (b : Bench) : Operation → Logged Bench
  | .request kind => return b.onPanel (·.raise kind)
  | .drive kind level => return (b.drive kind level).2
  | .clear i => return b.onPanel fun panel => { panel with requests := panel.requests.clear i }
  | .clearAll => return b.onPanel ({ · with requests := {} })
  | .powerUp => return { b with processor := ← b.processor.powerUp }
  | .cycle => return { b with processor := (← b.processor.cycle).2 }

/-- The bench after a list of operations in the order given, under a journal that nobody looks at
    afterwards. -/
def undergo (b : Bench) (operations : List Operation) (j : Journal) : Bench :=
  ((operations.foldlM apply b).run j).1

/-- The latched requests of a bench, which all operations share and which are all that this file is about. -/
abbrev requests (b : Bench) : Requests :=
  b.processor.requests

/-- Whether an operation asks for an input: by a call, or by driving its wire low, at whatever level it
    was. -/
def Operation.Asks (op : Operation) (kind : Request) : Prop :=
  match op with
  | .request made => made = kind
  | .drive made level => made = kind ∧ level = .low
  | _ => False

/-- Whether an operation consumes the request for an input.  A cycle does if it services that input, and
    the service of a RESET consumes all requests. -/
def Operation.Consumes (op : Operation) (b : Bench) (kind : Request) : Prop :=
  match op with
  | .clear i => i.request = kind
  | .clearAll | .powerUp => True
  | .cycle => b.requests.serviced? = some .reset ∨ b.requests.serviced? = some kind
  | _ => False

/-- None of the operations in `later` consumes the request, when those in `past` have gone before. -/
def Spared (b : Bench) (j : Journal) (kind : Request) (past later : List Operation) : Prop :=
  ∀ meanwhile op rest, later = meanwhile ++ op :: rest →
    ¬op.Consumes (b.undergo (past ++ meanwhile) j) kind

/-- Some operation of `later` asks for the input, and none after it consumes the request. -/
def Outstanding (b : Bench) (j : Journal) (kind : Request) (past later : List Operation) : Prop :=
  ∃ before op rest, later = before ++ op :: rest ∧ op.Asks kind ∧
    b.Spared j kind (past ++ before ++ [op]) rest

/-! ## One operation -/

/-- What comes of an operation, whatever is in the journal: `apply` without the messages, and the form in
    which all of the following is proved. -/
def applied (b : Bench) : Operation → Bench
  | .request kind => b.onPanel (·.raise kind)
  | .drive kind level => (b.drive kind level).2
  | .clear i => b.onPanel fun panel => { panel with requests := panel.requests.clear i }
  | .clearAll => b.onPanel ({ · with requests := {} })
  | .powerUp => { b with processor := b.processor.poweredUp }
  | .cycle => { b with processor := b.processor.cycled.2 }

/-- An operation under a journal comes to what `applied` says, whatever the journal lets through. -/
theorem fst_apply (b : Bench) (op : Operation) (j : Journal) :
    ((b.apply op).run j).1 = b.applied op := by
  cases op with
  | request kind => rfl
  | drive kind level => rfl
  | clear i => rfl
  | clearAll => rfl
  | powerUp => rfl
  | cycle =>
    -- the only operation with messages of its own that matter is a cycle, which may fail with a report
    unfold applied
    rw [← Processor.fst_cycle b.processor j]
    rfl

/-- What the journal holds makes no difference to a run, which is therefore a plain fold of the operations
    over the bench. -/
theorem undergo_eq (b : Bench) (operations : List Operation) (j : Journal) :
    b.undergo operations j = operations.foldl applied b := by
  unfold undergo
  induction operations generalizing b j with
  | nil => rfl
  | cons op operations ih =>
    rw [List.foldlM_cons, fst_bind (fst_apply b op j), ih, List.foldl_cons]

/-- The last operation of a run applies to the bench that the ones before it left. -/
theorem undergo_snoc (b : Bench) (past : List Operation) (op : Operation) (j : Journal) :
    b.undergo (past ++ [op]) j = (b.undergo past j).applied op := by
  simp only [undergo_eq, List.foldl_append, List.foldl_cons, List.foldl_nil]

variable {b : Bench}

/-- A bench that is attached has on each input wire the one listener that latches the request of that
    input. -/
theorem latches_attach (p : Processor (Recorded Flat)) :
    ({ processor := p } : Bench).attach.wires.Latches wire where
  onLow kind := by cases kind <;> rfl
  onHigh kind := by cases kind <;> rfl

/-- Driving an input wire low makes the request of that input and lowers the wire, whatever its level was
    before. -/
theorem drive_low (h : b.wires.Latches wire) (kind : Request) :
    (b.drive kind .low).2 =
      { b.onPanel (·.raise kind) with wires := b.wires.setLevel (wire kind) .low } := by
  unfold drive
  rw [h.drive_low (c := ⟨b.wires, b.panel⟩)]
  rfl

/-- Driving an input wire high raises the wire and makes no request, nor does it take one back. -/
theorem drive_high (h : b.wires.Latches wire) (kind : Request) :
    (b.drive kind .high).2 = { b with wires := b.wires.setLevel (wire kind) .high } := by
  unfold drive
  rw [h.drive_high (c := ⟨b.wires, b.panel⟩)]
  rfl

/-- The wires stay attached through every operation, since no operation changes more on the fabric than a
    level. -/
theorem latches_applied (h : b.wires.Latches wire) (op : Operation) :
    (b.applied op).wires.Latches wire := by
  cases op with
  | drive kind level =>
    -- a level is all that changes on a fabric
    cases level with
    | low =>
      simp only [applied, drive_low h]
      exact h.of_sameBuild (Fabric.sameBuild_setLevel ..)
    | high =>
      simp only [applied, drive_high h]
      exact h.of_sameBuild (Fabric.sameBuild_setLevel ..)
  | request kind => exact h
  | clear i => exact h
  | clearAll => exact h
  | powerUp => exact h
  | cycle => exact h

/-- What is pending after an operation: what it asked for, and what was pending and is not consumed. -/
theorem pending_applied (h : b.wires.Latches wire) (op : Operation) (kind : Request) :
    (b.applied op).requests.pending kind = true ↔
      op.Asks kind ∨ b.requests.pending kind = true ∧ ¬op.Consumes b kind := by
  cases op with
  | request made =>
    refine (Requests.pending_raise b.requests made kind).trans ?_
    simp [Operation.Asks, Operation.Consumes]
  | drive made level =>
    -- it does not matter at what level the wire was before
    cases level with
    | low =>
      simp only [applied, drive_low h]
      refine (Requests.pending_raise b.requests made kind).trans ?_
      simp [Operation.Asks, Operation.Consumes]
    | high =>
      simp only [applied, drive_high h]
      simp [Operation.Asks, Operation.Consumes]
  | clear i =>
    refine (Requests.pending_clear b.requests i kind).trans ?_
    simp [Operation.Asks, Operation.Consumes]
  | clearAll =>
    have hnone : (b.applied .clearAll).requests.pending kind = false := Requests.pending_none kind
    simp [hnone, Operation.Asks, Operation.Consumes]
  | powerUp =>
    have hnone : (b.applied .powerUp).requests.pending kind = false := Requests.pending_none kind
    simp [hnone, Operation.Asks, Operation.Consumes]
  | cycle =>
    refine (Processor.pending_cycled b.processor kind).trans ?_
    simp [Operation.Asks, Operation.Consumes]

/-! ## A run -/

/-- Hence the wires are still attached after a run of any length, by induction over its operations. -/
theorem latches_undergo (h : b.wires.Latches wire) (past : List Operation) (j : Journal) :
    (b.undergo past j).wires.Latches wire := by
  rw [undergo_eq]
  induction past generalizing b with
  | nil => exact h
  | cons op past ih => exact ih (latches_applied h op)

/-- Where nothing follows, nothing is consumed. -/
theorem spared_nil (b : Bench) (j : Journal) (kind : Request) (past : List Operation) :
    b.Spared j kind past [] := by
  intro meanwhile op rest hsplit
  exact absurd hsplit (by simp)

/-- A request is spared by a list of operations if the first one spares it and so do the others, with the
    first one counted to the past. -/
theorem spared_cons (b : Bench) (j : Journal) (kind : Request) (past : List Operation)
    (op : Operation) (later : List Operation) :
    b.Spared j kind past (op :: later) ↔
      ¬op.Consumes (b.undergo past j) kind ∧ b.Spared j kind (past ++ [op]) later := by
  constructor
  · intro h
    refine ⟨?_, fun meanwhile op' rest hsplit => ?_⟩
    · simpa using h [] op later rfl
    · simpa using h (op :: meanwhile) op' rest (by rw [hsplit]; rfl)
  -- the operation in question is the first one, or it comes in the tail
  · rintro ⟨hfirst, hrest⟩ meanwhile op' rest hsplit
    cases meanwhile with
    | nil =>
      obtain ⟨rfl, rfl⟩ := List.cons_eq_cons.mp hsplit
      simpa using hfirst
    | cons op'' meanwhile =>
      obtain ⟨rfl, rfl⟩ := List.cons_eq_cons.mp hsplit
      simpa using hrest meanwhile op' rest rfl

/-- A request is outstanding after a list of operations if the first one asks for it and the others spare
    it, or if the others leave it outstanding by themselves. -/
theorem outstanding_cons (b : Bench) (j : Journal) (kind : Request) (past : List Operation)
    (op : Operation) (later : List Operation) :
    b.Outstanding j kind past (op :: later) ↔
      op.Asks kind ∧ b.Spared j kind (past ++ [op]) later ∨
        b.Outstanding j kind (past ++ [op]) later := by
  constructor
  -- again the operation that asks is the first one, or it comes in the tail
  · rintro ⟨before, op', rest, hsplit, hasks, hspared⟩
    cases before with
    | nil =>
      obtain ⟨rfl, rfl⟩ := List.cons_eq_cons.mp hsplit
      exact .inl ⟨hasks, by simpa using hspared⟩
    | cons op'' before =>
      obtain ⟨rfl, rfl⟩ := List.cons_eq_cons.mp hsplit
      exact .inr ⟨before, op', rest, rfl, hasks, by simpa using hspared⟩
  · rintro (⟨hasks, hspared⟩ | ⟨before, op', rest, hsplit, hasks, hspared⟩)
    · exact ⟨[], op, later, rfl, hasks, by simpa using hspared⟩
    · exact ⟨op :: before, op', rest, by rw [hsplit]; rfl, hasks, by simpa using hspared⟩

/-- What is pending in the end: what has been asked for and not consumed since, and what was pending
    when the operations began and has not been consumed by any of them. -/
theorem pending_undergo (h : b.wires.Latches wire) (j : Journal) (kind : Request)
    (past later : List Operation) :
    (b.undergo (past ++ later) j).requests.pending kind = true ↔
      b.Outstanding j kind past later ∨
        (b.undergo past j).requests.pending kind = true ∧ b.Spared j kind past later := by
  induction later generalizing past with
  | nil =>
    -- with no operations left nothing has been asked for, and what is pending was pending before
    have hnone : ¬b.Outstanding j kind past [] := by
      rintro ⟨before, op, rest, hsplit, -⟩
      exact absurd hsplit (by simp)
    simp [hnone, spared_nil]
  | cons op later ih =>
    -- the first operation goes over to the past; what it leaves pending is known from the one step
    have hstep := pending_applied (latches_undergo h past j) op kind
    rw [← undergo_snoc] at hstep
    rw [List.append_cons, ih, hstep, outstanding_cons, spared_cons]
    rw [or_and_right, and_assoc, or_left_comm, ← or_assoc]

/-! ## Arbitration -/

/-- In every run on a bench with its wires attached, a request is pending exactly when it was asked for
    after everything that consumed it, be it at the start; and wherever the run has got to, a cycle
    services what comes first among what is pending, or else executes an instruction. -/
theorem arbitration (p : Processor (Recorded Flat)) (operations : List Operation) (j : Journal) :
    let start := ({ processor := p } : Bench).attach
    let b := start.undergo operations j
    (∀ kind, b.requests.pending kind = true ↔
      start.Outstanding j kind [] operations ∨
        start.requests.pending kind = true ∧ start.Spared j kind [] operations) ∧
      ∀ j', b.processor.Serves (b.processor.cycle.run j').1 := by
  intro start b
  refine ⟨fun kind => ?_, fun j' => ?_⟩
  · exact pending_undergo (latches_attach p) j kind [] operations
  · rw [Processor.fst_cycle]
    exact Processor.serves_cycled b.processor

end Bench

end Breadboard
