import Breadboard.Proofs.Unreported
/-
  What an instruction can cost.

  A microprogram ends with the cycles that are charged on top of the descriptor's own.  `Ensures` says of
  its results what holds whatever is on the bus and in the registers; it needs no induction but the one
  over traffic, in `Traffic.Always`, and one rule for each way of putting microprograms together.

  Only descriptors with the page-cross mark cost anything on top: one cycle for reaching the operand, and
  one for a branch.  None of those with the mark costs more than 5 to begin with, and none at all more
  than 7.  So nothing that a processor does in one go costs more than 7 cycles (`Processor.cost_le`).
-/
namespace Breadboard

variable {α β : Type}

/-! ## What holds of every result -/

namespace Traffic

/-- However the bus answers, the result is such.  The bytes that are read are all tried, so nothing has to
    be known of the memory. -/
def Always (P : α → Prop) : Traffic α → Prop
  | .done result => P result
  | .read _ next => ∀ v, (next v).Always P
  | .write _ _ next => next.Always P

/-- What holds of everything holds of the result. -/
theorem always_of_forall {P : α → Prop} (h : ∀ a, P a) (t : Traffic α) : t.Always P := by
  induction t with
  | done result => exact h result
  | read address next ih => exact ih
  | write address value next ih => exact ih

/-- The rule for one traffic after another: what is known of the first result can be used for the second. -/
theorem Always.bind {P : α → Prop} {Q : β → Prop} {t : Traffic α} {f : α → Traffic β}
    (h : t.Always P) (hnext : ∀ a, P a → (f a).Always Q) : (t.bind f).Always Q := by
  induction t with
  | done result => exact hnext result h
  | read address next ih => exact fun v => ih v (h v)
  | write address value next ih => exact ih h

/-- A bus is one way to answer, so what always holds holds on every bus. -/
theorem Always.play {μ : Type} [Memory μ] {P : α → Prop} {t : Traffic α} (h : t.Always P)
    (w : World μ) : P (t.play w).1 := by
  induction t generalizing w with
  | done result => exact h
  | read address next ih => exact ih _ (h _) _
  | write address value next ih => exact ih h _

end Traffic

namespace Micro

/-- If it comes to an end without a fault, its result is such. -/
def Ensures (m : Micro α) (P : α → Prop) : Prop :=
  ∀ r, (m r).Always fun x => ∀ a, x.1 = .ok a → P a

variable {P : α → Prop} {Q : β → Prop}

theorem ensures_pure {a : α} (h : P a) : Ensures (pure a) P := by
  intro r b hb
  obtain rfl : a = b := Except.ok.inj hb
  exact h

/-- A fault has no result, so nothing is asked of it. -/
theorem ensures_throw (fault : Fault) : Ensures (throw fault : Micro α) P := by
  intro r a ha
  cases ha

/-- Nothing is said about the result; this is for steps whose result does not bear on the cost. -/
theorem ensures_any (m : Micro α) : Ensures m fun _ => True :=
  fun r => Traffic.always_of_forall (fun _ _ _ => trivial) (m r)

/-- The rule for one microprogram after another, where a fault in the first ends both. -/
theorem Ensures.bind {m : Micro α} {f : α → Micro β} (h : Ensures m P)
    (hnext : ∀ a, P a → Ensures (f a) Q) : Ensures (m >>= f) Q := by
  intro r
  refine Traffic.Always.bind (h r) ?_
  rintro ⟨outcome, r'⟩ hP
  cases outcome with
  | ok a => exact hnext a (hP a rfl) r'
  | error fault => exact fun _ hb => nomatch hb

/-- Whatever comes first, the rest decides: most steps of a routine have no part in what it answers. -/
theorem ensures_after (m : Micro α) {f : α → Micro β} (h : ∀ a, Ensures (f a) Q) :
    Ensures (m >>= f) Q :=
  (ensures_any m).bind fun a _ => h a

end Micro

/-! ## What routines cost on top -/

namespace Instruction

open Micro

/-- A crossing costs one cycle at most, and nothing without the mark. -/
theorem crossingCost_le (i : Instruction) (base address : UInt16) :
    i.crossingCost base address ≤ i.pageCross.toNat := by
  unfold crossingCost
  cases i.pageCross with
  | false => simp
  | true =>
    split
    · exact Nat.le_refl 1
    · exact Nat.zero_le 1

/-- Reaching an operand costs at most one cycle, in every mode; only the indexed modes cost anything. -/
theorem locate_cost (i : Instruction) : i.locate.Ensures fun x => x.2 ≤ i.pageCross.toNat := by
  unfold locate
  cases i.mode with
  | implied => exact ensures_throw _
  | accumulator => exact ensures_pure (Nat.zero_le _)
  | immediate => exact ensures_after _ fun _ => ensures_after _ fun _ => ensures_pure (Nat.zero_le _)
  | absolute => exact ensures_after _ fun _ => ensures_pure (Nat.zero_le _)
  | indirect => exact ensures_after _ fun _ => ensures_after _ fun _ => ensures_pure (Nat.zero_le _)
  -- of all modes only these two and the one of ($zp),Y can cross a page
  | absoluteX | absoluteY =>
    exact ensures_after _ fun _ => ensures_after _ fun _ => ensures_pure (i.crossingCost_le ..)
  | indexedIndirect =>
    exact ensures_after _ fun _ => ensures_after _ fun _ => ensures_after _ fun _ =>
      ensures_pure (Nat.zero_le _)
  | indirectIndexed =>
    exact ensures_after _ fun _ => ensures_after _ fun _ => ensures_after _ fun _ =>
      ensures_pure (i.crossingCost_le ..)
  | zeroPage => exact ensures_after _ fun _ => ensures_pure (Nat.zero_le _)
  | zeroPageX | zeroPageY | relative =>
    exact ensures_after _ fun _ => ensures_after _ fun _ => ensures_pure (Nat.zero_le _)

/-- Reading the operand adds nothing to what reaching it costs. -/
theorem operandByte_cost (i : Instruction) :
    i.operandByte.Ensures fun x => x.2 ≤ i.pageCross.toNat :=
  i.locate_cost.bind fun _ hcost => ensures_after _ fun _ => ensures_pure hcost

/-- The most that a routine charges on top: reaching an operand, and taking a branch. -/
def most (i : Instruction) : Nat :=
  2 * i.pageCross.toNat

/-- A routine that never asks for more than reaching its operand and taking a branch cost. -/
abbrev Modest (i : Instruction) (m : Micro Nat) : Prop :=
  m.Ensures (· ≤ i.most)

/-- What reaching an operand costs is within the bound of every routine. -/
theorem modest_of_operand {i : Instruction} {extra : Nat} (h : extra ≤ i.pageCross.toNat) :
    extra ≤ i.most := by
  unfold most
  omega

/-- A routine that answers nothing on top is within every bound. -/
theorem modest_pure_zero (i : Instruction) : i.Modest (pure 0) :=
  ensures_pure (Nat.zero_le _)

/-- A refusal answers nothing at all, and so it is within every bound. -/
theorem modest_unexpected (i : Instruction) : i.Modest i.unexpected :=
  ensures_throw _

theorem modest_refuseMode (i : Instruction) : i.Modest i.refuseMode :=
  ensures_throw _

/-- An addition costs what reaching its operand costs, in decimal mode as well. -/
theorem modest_adc (i : Instruction) : i.Modest i.adc :=
  i.operandByte_cost.bind fun _ hcost => ensures_after _ fun _ =>
    ensures_pure (modest_of_operand hcost)

theorem modest_sbc (i : Instruction) : i.Modest i.sbc :=
  i.operandByte_cost.bind fun _ hcost => ensures_after _ fun _ =>
    ensures_pure (modest_of_operand hcost)

theorem modest_bit (i : Instruction) : i.Modest i.bit :=
  i.operandByte_cost.bind fun _ hcost => ensures_after _ fun _ =>
    ensures_pure (modest_of_operand hcost)

/-- The four cases, one of them a refusal, go on with the same answer. -/
theorem modest_logic (i : Instruction) : i.Modest i.logic := by
  refine i.operandByte_cost.bind ?_
  rintro ⟨m, extra⟩ hcost
  have hextra : Ensures (pure extra) (· ≤ i.most) := ensures_pure (modest_of_operand hcost)
  dsimp only
  split <;> exact ensures_after _ fun _ => hextra

/-- Neither the register nor the result of a compare bears on its cost. -/
theorem modest_compare (i : Instruction) : i.Modest i.compare := by
  refine ensures_after _ fun r => ?_
  split
  · exact i.modest_unexpected
  · split
    · exact i.modest_refuseMode
    · exact i.modest_refuseMode
    · exact i.modest_refuseMode
    · exact i.operandByte_cost.bind fun _ hcost => ensures_after _ fun _ =>
        ensures_pure (modest_of_operand hcost)

/-- A load costs what reaching its operand costs, whichever register it is for. -/
theorem modest_load (i : Instruction) : i.Modest i.load := by
  unfold load
  split
  case h_4 => exact i.modest_unexpected
  all_goals
    exact i.operandByte_cost.bind fun _ hcost => ensures_after _ fun _ =>
      ensures_pure (modest_of_operand hcost)

/-- A store reaches its operand as a load does, and pays for it if its descriptor has the mark. -/
theorem modest_store (i : Instruction) : i.Modest i.store := by
  refine ensures_after _ fun r => ?_
  split
  · exact i.modest_unexpected
  · split
    · exact i.modest_refuseMode
    · exact i.modest_refuseMode
    · exact i.modest_refuseMode
    · exact i.locate_cost.bind fun _ hcost => ensures_after _ fun _ =>
        ensures_pure (modest_of_operand hcost)

/-- What is done with the operand after it was reached, twice on the bus, costs nothing on top: the
    descriptor allows for it. -/
theorem modest_shift (i : Instruction) : i.Modest i.shift := by
  rw [shift_eq]
  split
  any_goals
    exact i.locate_cost.bind fun _ hcost => ensures_after _ fun _ => ensures_after _ fun _ =>
      ensures_after _ fun _ => ensures_after _ fun _ => ensures_pure (modest_of_operand hcost)
  exact i.modest_unexpected

theorem modest_stepMemory (i : Instruction) : i.Modest i.stepMemory := by
  rw [stepMemory_eq]
  split
  · exact i.modest_unexpected
  · exact i.locate_cost.bind fun _ hcost => ensures_after _ fun _ => ensures_after _ fun _ =>
      ensures_after _ fun _ => ensures_pure (modest_of_operand hcost)

/-- What works on registers alone costs nothing on top. -/
theorem modest_stepIndex (i : Instruction) : i.Modest i.stepIndex := by
  refine ensures_after _ fun r => ?_
  split
  · exact i.modest_unexpected
  · exact ensures_after _ fun _ => i.modest_pure_zero

theorem modest_transfer (i : Instruction) : i.Modest i.transfer := by
  refine ensures_after _ fun r => ?_
  split
  · exact i.modest_unexpected
  · exact ensures_after _ fun _ => i.modest_pure_zero

theorem modest_flag (i : Instruction) : i.Modest i.flag := by
  refine ensures_after _ fun r => ?_
  split
  · exact i.modest_unexpected
  · exact ensures_after _ fun _ => i.modest_pure_zero

/-- A branch that is taken may cross a page twice over, once to its operand and once to its target; it is
    the one routine with a bound of two. -/
theorem modest_branch (i : Instruction) : i.Modest i.branch := by
  refine ensures_after _ fun r => ?_
  split
  · exact i.modest_unexpected
  · refine i.locate_cost.bind ?_
    rintro ⟨operand, extra⟩ hcost
    have hextra : extra ≤ i.pageCross.toNat := hcost
    cases operand with
    | accumulator => exact i.modest_refuseMode
    | cell target =>
      simp only
      split
      -- a branch that is taken can pay twice, once for its mode and once for its own crossing
      · refine ensures_after _ fun r => ensures_after _ fun _ => ensures_pure ?_
        have hcrossing := i.crossingCost_le r.pc target
        unfold most
        omega
      · exact ensures_pure (modest_of_operand hextra)

/-- A jump answers what reaching its operand costs; the target may be anywhere. -/
theorem modest_jmp (i : Instruction) : i.Modest i.jmp := by
  unfold jmp
  split
  case h_3 => exact i.modest_refuseMode
  all_goals
    refine i.locate_cost.bind ?_
    rintro ⟨operand, extra⟩ hcost
    have hextra := modest_of_operand hcost
    cases operand with
    | accumulator => exact ensures_pure hextra
    | cell target => exact ensures_after _ fun _ => ensures_pure hextra

/-- A call costs nothing on top, because its operand is read as a word of the program. -/
theorem modest_jsr (i : Instruction) : i.Modest i.jsr := by
  unfold jsr
  split
  · exact ensures_after _ fun _ => ensures_after _ fun _ => ensures_after _ fun _ =>
      ensures_after _ fun _ => i.modest_pure_zero
  · exact i.modest_refuseMode

/-- No routine answers more than its descriptor allows.  One case for each routine, and those without an
    operand share a lemma. -/
theorem modest_execute (i : Instruction) (servicing : Option Interrupt) (start : UInt16) :
    i.Modest (i.execute servicing start) := by
  unfold execute
  cases i.handler with
  | adc => exact i.modest_adc
  | sbc => exact i.modest_sbc
  | logic => exact i.modest_logic
  | bit => exact i.modest_bit
  | compare => exact i.modest_compare
  | load => exact i.modest_load
  | store => exact i.modest_store
  | shift => exact i.modest_shift
  | stepMemory => exact i.modest_stepMemory
  | stepIndex => exact i.modest_stepIndex
  | transfer => exact i.modest_transfer
  | flag => exact i.modest_flag
  | branch => exact i.modest_branch
  | jmp => exact i.modest_jmp
  | jsr => exact i.modest_jsr
  -- what goes over the stack has a fixed price
  | brk | rti | rts | pha | php | pla | plp => exact ensures_after _ fun _ => i.modest_pure_zero
  | nop => exact i.modest_pure_zero
  | unimplemented => exact ensures_throw _

/-! ## What descriptors cost -/

/-- No descriptor costs more than 7 cycles, also with the most that can come on top. -/
theorem cycles_decode (opcode : UInt8) : (decode opcode).cycles + (decode opcode).most ≤ 7 := by
  have hlisted : ∀ i ∈ documented, i.cycles + i.most ≤ 7 := by decide +kernel
  unfold decode
  cases hfind : documented.find? (·.opcode == opcode) with
  | none =>
    -- an opcode that is not documented has a descriptor that costs nothing
    exact Nat.zero_le 7
  | some i => exact hlisted i (List.mem_of_find?_eq_some hfind)

end Instruction

/-! ## What a processor charges -/

namespace Processor

variable {μ : Type} [Memory μ]

/-- What comes of `run`, apart from the charge, which is put off to the end. -/
def performed (p : Processor μ) (i : Instruction) (servicing : Option Interrupt)
    (start : UInt16) : Except Fault Nat × Processor μ :=
  match p.perform (i.execute servicing start) with
  | (.ok extra, q) => (.ok (i.cycles + extra), q.answer servicing)
  | (.error fault, q) => (.error fault, { q with registers := { q.registers with pc := start } })

/-- What comes of `cycle`, apart from the charge.  The cost is known then, and has not been taken from the
    credit yet. -/
def worked (p : Processor μ) : Except Fault Nat × Processor μ :=
  if p.world.panel.requests.reset then (.ok resetCycles, p.poweredUp)
  else
    match p.world.panel.requests.next? with
    | some interrupt => p.performed (.decode 0x00) (some interrupt) p.registers.pc
    | none => p.fetchOpcode.2.performed (.decode p.fetchOpcode.1) none p.registers.pc

/-- Charges what is owed; a fault owes nothing, and is handed on as it is. -/
def settled : Except Fault Nat × Processor μ → Except Fault Nat × Processor μ
  | (.ok cycles, p) => (.ok cycles, p.charge cycles)
  | (.error fault, p) => (.error fault, p)

/-- To run an instruction is to perform it and then to charge for it. -/
theorem ran_eq (p : Processor μ) (i : Instruction) (servicing : Option Interrupt)
    (start : UInt16) : p.ran i servicing start = settled (p.performed i servicing start) := by
  unfold ran performed
  rcases p.perform (i.execute servicing start) with ⟨fault | extra, q⟩ <;> rfl

/-- The charge is the last thing that a cycle does, so a cycle can be cut in two there. -/
theorem cycled_eq (p : Processor μ) : p.cycled = settled p.worked := by
  unfold cycled worked
  split
  · rfl
  · cases p.world.panel.requests.next? with
    | some interrupt => exact p.ran_eq _ _ _
    | none => exact p.fetchOpcode.2.ran_eq _ _ _

/-- An instruction costs at most 7 cycles, whichever opcode it is and whatever is in memory.  The
    descriptor's own cycles and its mark bound each other. -/
theorem performed_le (p : Processor μ) (opcode : UInt8) (servicing : Option Interrupt)
    (start : UInt16) {cycles : Nat}
    (h : (p.performed (.decode opcode) servicing start).1 = .ok cycles) : cycles ≤ 7 := by
  have hmost := (Instruction.modest_execute (.decode opcode) servicing start p.registers).play p.world
  unfold performed perform at h
  rcases hplay : ((Instruction.decode opcode).execute servicing start p.registers).play p.world
    with ⟨⟨outcome, r⟩, w⟩
  rw [hplay] at h hmost
  cases outcome with
  | error fault => cases h
  | ok extra =>
    -- what comes on top depends on the mark of the descriptor, and so does the bound
    obtain rfl : (Instruction.decode opcode).cycles + extra = cycles := Except.ok.inj h
    have hextra : extra ≤ (Instruction.decode opcode).most := hmost extra rfl
    have hcycles := Instruction.cycles_decode opcode
    omega

/-- Nothing that a processor does in one go costs more than 7 cycles. -/
theorem cost_le (p : Processor μ) {cycles : Nat} (h : p.worked.1 = .ok cycles) : cycles ≤ 7 := by
  unfold worked at h
  split at h
  · obtain rfl : resetCycles = cycles := Except.ok.inj h
    exact Nat.le_refl 7
  · split at h
    · exact performed_le _ _ _ _ h
    · exact performed_le _ _ _ _ h

end Processor

end Breadboard
