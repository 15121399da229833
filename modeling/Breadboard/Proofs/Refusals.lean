import Breadboard.Proofs.Aftermath
/-
  What becomes of a descriptor that does not fit its routine.

  The parts of a descriptor are independent of each other, so a routine can be handed any combination: a
  mnemonic that it does not serve, a mode in which there is no operand or none that it can use.  What it does
  with one is settled by the descriptor alone, whatever is in the registers and on the bus (`Reception`):
  it goes through to its end, or it refuses before it has done anything (`Micro.Refuses`), or it looks for
  the operand and only then refuses (`Micro.Regrets`).  The last of these happens in one routine, the one
  that combines a byte with A, and only with a mnemonic; by then it has read, and nothing else.

  So an instruction that is refused has changed nothing, apart from where the program is read on and which
  address was last on the bus, and for all faults but one not even that (`Refused`).
-/
namespace Breadboard

variable {α β : Type}

/-! ## Looking without touching -/

namespace Traffic

/-- It makes no write, and whatever it reads from the bus, its result is of the given kind. -/
def Reads (P : α → Prop) : Traffic α → Prop
  | .done result => P result
  | .read _ next => ∀ v, (next v).Reads P
  | .write .. => False

/-- One reading after another is a reading, if what the first comes to is enough for the second.  Induction
    on the traffic. -/
theorem Reads.bind {P : α → Prop} {Q : β → Prop} {t : Traffic α} {f : α → Traffic β}
    (h : t.Reads P) (hnext : ∀ a, P a → (f a).Reads Q) : (t.bind f).Reads Q := by
  induction t with
  | done result => exact hnext result h
  | read address next ih => exact fun v => ih v (h v)
  | write address value next ih => exact h.elim

/-- A memory that answers by itself is as it was: its bytes can only be changed by a write, and there is
    none. -/
theorem Reads.play {P : α → Prop} {t : Traffic α} (h : t.Reads P) (w : World (Recorded Flat)) :
    P (t.play w).1 ∧ (t.play w).2.memory.memory = w.memory.memory ∧
      (t.play w).2.panel = w.panel := by
  induction t generalizing w with
  | done result => exact ⟨h, rfl, rfl⟩
  | read address next ih => exact ih _ (h _) _
  | write address value next ih => exact h.elim

end Traffic

namespace Micro

/-- With any registers, it reads and does nothing else, and ends without a fault; only the program counter
    and the address latch can have moved. -/
def Looks (s : Micro α) : Prop :=
  ∀ r, (s r).Reads fun x => (∃ a, x.1 = .ok a) ∧ ∃ pc latch, x.2 = r.placed pc latch

theorem looks_pure (a : α) : Looks (pure a) :=
  fun r => ⟨⟨a, rfl⟩, r.pc, r.addressLatch, rfl⟩

/-- One look after another is a look, since the second may start from any registers. -/
theorem Looks.then {s : Micro α} {f : α → Micro β} (h : Looks s) (hnext : ∀ a, Looks (f a)) :
    Looks (s >>= f) := by
  intro r
  refine Traffic.Reads.bind (h r) ?_
  rintro ⟨outcome, r'⟩ ⟨⟨a, rfl⟩, pc, latch, rfl⟩
  exact hnext a (r.placed pc latch)

theorem looks_get : Looks get :=
  fun r => ⟨⟨r, rfl⟩, r.pc, r.addressLatch, rfl⟩

/-- A read moves the address latch to where it has read, and nothing else. -/
theorem looks_readByte (address : UInt16) : Looks (readByte address) :=
  fun r v => ⟨⟨v, rfl⟩, r.pc, address, rfl⟩

theorem looks_readWord (address : UInt16) : Looks (readWord address) :=
  (looks_readByte _).then fun _ => (looks_readByte _).then fun _ => looks_pure _

/-- The same, with an address that stays within the first page. -/
theorem looks_readPageZeroWord (cell : UInt8) : Looks (readPageZeroWord cell) :=
  (looks_readByte _).then fun _ => (looks_readByte _).then fun _ => looks_pure _

/-- To step over a byte of the program is to move the program counter, and nothing else. -/
theorem looks_step : Looks (modify fun r => { r with pc := r.pc + 1 }) :=
  fun r => ⟨⟨(), rfl⟩, r.pc + 1, r.addressLatch, rfl⟩

theorem looks_fetchByte : Looks fetchByte :=
  looks_get.then fun _ => (looks_readByte _).then fun _ => looks_step.then fun _ => looks_pure _

theorem looks_fetchWord : Looks fetchWord :=
  looks_fetchByte.then fun _ => looks_fetchByte.then fun _ => looks_pure _

end Micro

open Micro

/-- What is in an operand can be found out by looking, be it in A or in memory. -/
theorem Operand.looks_fetch (operand : Operand) : Looks operand.fetch := by
  cases operand with
  | accumulator => exact looks_get.then fun _ => looks_pure _
  | cell address => exact looks_readByte address

namespace Instruction

variable {i : Instruction}

/-- Where an operand is can be found out by looking, in every mode that has one: by cases on the mode. -/
theorem looks_locate (h : i.mode ≠ .implied) : i.locate.Looks := by
  unfold locate
  cases hmode : i.mode with
  | implied => exact absurd hmode h
  | accumulator => exact looks_pure _
  | immediate => exact fun r => ⟨⟨_, rfl⟩, r.pc + 1, r.addressLatch, rfl⟩
  | absolute => exact looks_fetchWord.then fun _ => looks_pure _
  | indirect => exact looks_fetchWord.then fun _ => (looks_readWord _).then fun _ => looks_pure _
  | absoluteX | absoluteY =>
    exact looks_fetchWord.then fun _ => looks_get.then fun _ => looks_pure _
  | indexedIndirect =>
    exact looks_fetchByte.then fun _ => looks_get.then fun _ =>
      (looks_readPageZeroWord _).then fun _ => looks_pure _
  | indirectIndexed =>
    exact looks_fetchByte.then fun _ => (looks_readPageZeroWord _).then fun _ =>
      looks_get.then fun _ => looks_pure _
  | zeroPage => exact looks_fetchByte.then fun _ => looks_pure _
  | zeroPageX | zeroPageY | relative =>
    exact looks_fetchByte.then fun _ => looks_get.then fun _ => looks_pure _

/-- And so can the byte that is there, since a look may follow a look. -/
theorem looks_operandByte (h : i.mode ≠ .implied) : i.operandByte.Looks :=
  (looks_locate h).then fun x => x.1.looks_fetch.then fun _ => looks_pure _

end Instruction

/-! ## Refusing -/

namespace Micro

/-- With any registers, it ends in this fault at once: there is no access, and nothing has moved. -/
def Refuses (s : Micro α) (fault : Fault) : Prop :=
  ∀ r, s r = .done (.error fault, r)

theorem refuses_throw (fault : Fault) : Refuses (throw fault : Micro α) fault :=
  fun _ => rfl

/-- What would have come next makes no difference, for it is never come to. -/
theorem Refuses.bind {s : Micro α} {fault : Fault} (h : s.Refuses fault) (f : α → Micro β) :
    (s >>= f).Refuses fault := by
  intro r
  show (s r).bind _ = _
  rw [h r]
  rfl

/-- To look at the registers is nothing yet: a refusal that comes after it comes at once. -/
theorem refuses_of_get {fault : Fault} {f : Registers → Micro β} (h : ∀ r, (f r).Refuses fault) :
    (get >>= f).Refuses fault :=
  fun r => h r r

/-- With any registers, it looks for something and then ends in this fault. -/
def Regrets (s : Micro α) (fault : Fault) : Prop :=
  ∀ r, (s r).Reads fun x => x.1 = .error fault ∧ ∃ pc latch, x.2 = r.placed pc latch

/-- To look for something and then to refuse is to regret, whatever has been found. -/
theorem regrets_of_looks {s : Micro α} {f : α → Micro β} {fault : Fault} (h : Looks s)
    (hnext : ∀ a, (f a).Refuses fault) : (s >>= f).Regrets fault := by
  intro r
  refine Traffic.Reads.bind (h r) ?_
  rintro ⟨outcome, r'⟩ ⟨⟨a, rfl⟩, pc, latch, rfl⟩
  -- of all that the look has done, only the two addresses are left
  show ((f a) (r.placed pc latch)).Reads _
  rw [hnext a]
  exact ⟨rfl, pc, latch, rfl⟩

end Micro

/-- The faults that are found before anything has been done.  A mnemonic that does not belong is not among
    them. -/
def Fault.outright : Fault → Bool
  | .unimplementedOpcode .. | .invalidMode .. | .impliedOperand .. => true
  | .unexpectedMnemonic .. => false

namespace Instruction

/-- What a routine does with a descriptor, in every state of the registers. -/
inductive Reception (s : Micro α) : Prop where
  /-- It goes through to its end. -/
  | accepts (h : s.Succeeds)
  /-- It refuses before anything else. -/
  | refuses (fault : Fault) (h : s.Refuses fault)
  /-- It refuses when it has looked for the operand. -/
  | regrets (fault : Fault) (hlate : fault.outright = false) (h : s.Regrets fault)

theorem Reception.of_throw (fault : Fault) : Reception (throw fault : Micro α) :=
  .refuses fault (refuses_throw fault)

variable {i : Instruction}

/-! ## The operand -/

/-- In the implied mode there is nothing to look for, and this is found out without looking. -/
theorem refuses_locate (h : i.mode = .implied) : i.locate.Refuses (.impliedOperand i.mnemonic) := by
  unfold locate
  rw [h]
  exact refuses_throw _

/-- So neither is there a byte, and the fault is the same. -/
theorem refuses_operandByte (h : i.mode = .implied) :
    i.operandByte.Refuses (.impliedOperand i.mnemonic) :=
  (refuses_locate h).bind _

/-- Whether an operand is found depends on the mode, and nothing has been done before. -/
theorem Reception.of_locate {f : Operand × Nat → Micro β} (h : ∀ x, (f x).Succeeds) :
    Reception (i.locate >>= f) := by
  by_cases himplied : i.mode = .implied
  · exact .refuses _ ((refuses_locate himplied).bind f)
  · exact .accepts ((succeeds_locate himplied).then h)

/-- A routine that starts with the byte of its operand is accepted or refused by the mode alone. -/
theorem Reception.of_operandByte {f : UInt8 × Nat → Micro β} (h : ∀ x, (f x).Succeeds) :
    Reception (i.operandByte >>= f) := by
  by_cases himplied : i.mode = .implied
  · exact .refuses _ ((refuses_operandByte himplied).bind f)
  · exact .accepts ((succeeds_operandByte himplied).then h)

/-! ## Routines that do not look at the mnemonic -/

/-- The sum takes any operand that there is, whatever the mnemonic. -/
theorem reception_adc : Reception i.adc :=
  .of_operandByte fun _ => (succeeds_modify _).then fun _ => succeeds_pure _

theorem reception_sbc : Reception i.sbc :=
  .of_operandByte fun _ => (succeeds_modify _).then fun _ => succeeds_pure _

theorem reception_bit : Reception i.bit :=
  .of_operandByte fun _ => (succeeds_modify _).then fun _ => succeeds_pure _

/-- A jump has two modes, and every other is refused before the target is looked for. -/
theorem reception_jmp : Reception i.jmp := by
  by_cases hmode : i.mode ∈ [.absolute, .indirect]
  · exact .accepts (succeeds_jmp hmode)
  · unfold jmp
    split
    case h_1 habsolute => exact absurd (by simp [habsolute]) hmode
    case h_2 hindirect => exact absurd (by simp [hindirect]) hmode
    case h_3 => exact .of_throw _

/-- A call has only one mode. -/
theorem reception_jsr : Reception i.jsr := by
  by_cases hmode : i.mode ∈ [.absolute]
  · exact .accepts (succeeds_jsr hmode)
  · unfold jsr
    split
    case h_1 habsolute => exact absurd (by simp [habsolute]) hmode
    case h_2 => exact .of_throw _

/-! ## Routines that choose by the mnemonic -/

/-- A load asks which register it is for, and only then does it look for the byte. -/
theorem reception_load : Reception i.load := by
  unfold load
  split
  -- the last branch is that of a mnemonic that loads nothing
  case h_4 => exact .of_throw _
  all_goals exact .of_operandByte fun _ => (succeeds_modify _).then fun _ => succeeds_pure _

/-- A shift asks for its direction first.  From there on everything that it does succeeds in every mode with
    an operand. -/
theorem reception_shift : Reception i.shift := by
  rw [shift_eq]
  split
  case h_5 => exact .of_throw _
  all_goals
    exact .of_locate fun x => x.1.succeeds_fetch.then fun _ => succeeds_get.then fun _ =>
      (x.1.succeeds_store _).then fun _ => (succeeds_modify _).then fun _ => succeeds_pure _

/-- So does a step in memory, once it is known whether it goes up or down. -/
theorem reception_stepMemory : Reception i.stepMemory := by
  rw [stepMemory_eq]
  split
  case h_1 => exact .of_throw _
  case h_2 =>
    exact .of_locate fun x => x.1.succeeds_fetch.then fun _ => (x.1.succeeds_store _).then fun _ =>
      (succeeds_modify _).then fun _ => succeeds_pure _

/-- The one routine that looks for its operand before it looks at the mnemonic.  Only here can there be an
    access before a refusal. -/
theorem reception_logic : Reception i.logic := by
  by_cases himplied : i.mode = .implied
  · exact .refuses _ ((refuses_operandByte himplied).bind _)
  · by_cases hserves : i.mnemonic.handler = .logic
    · exact .accepts (succeeds_logic hserves himplied)
    · refine .regrets (.unexpectedMnemonic i.mnemonic i.handler) rfl ?_
      refine regrets_of_looks (looks_operandByte himplied) fun x => ?_
      dsimp only
      split
      case h_4 => exact (refuses_throw _).bind _
      all_goals
        rename_i hmnemonic
        -- the other branches are those of the mnemonics that it serves
        rw [hmnemonic] at hserves
        exact absurd rfl hserves

/-! ## Routines that choose by the mnemonic, with the registers in view

Which mnemonics they serve does not depend on what is in the registers. -/

/-- A mnemonic of another routine compares no register, whatever is in the registers. -/
theorem comparedRegister?_eq_none (r : Registers) {m : Mnemonic} (h : m.handler ≠ .compare) :
    comparedRegister? r m = none := by
  revert h
  cases m <;> simp [Mnemonic.handler, comparedRegister?]

/-- Nor does it store one, unless it belongs to the stores. -/
theorem storedRegister?_eq_none (r : Registers) {m : Mnemonic} (h : m.handler ≠ .store) :
    storedRegister? r m = none := by
  revert h
  cases m <;> simp [Mnemonic.handler, storedRegister?]

/-- Nor does it move anything from one register to another, unless it belongs to the transfers. -/
theorem transferred?_eq_none (r : Registers) {m : Mnemonic} (h : m.handler ≠ .transfer) :
    transferred? r m = none := by
  revert h
  cases m <;> simp [Mnemonic.handler, transferred?]

/-- Nor does it count in an index register, unless it belongs there. -/
theorem indexStepped?_eq_none (r : Registers) {m : Mnemonic} (h : m.handler ≠ .stepIndex) :
    indexStepped? r m = none := by
  revert h
  cases m <;> simp [Mnemonic.handler, indexStepped?]

/-- Nor does it set or clear a flag, unless it belongs to the flags. -/
theorem flagged?_eq_none (f : Flags) {m : Mnemonic} (h : m.handler ≠ .flag) :
    flagged? f m = none := by
  revert h
  cases m <;> simp [Mnemonic.handler, flagged?]

/-- Nor does it branch, on whatever flags, unless it is a branch. -/
theorem taken?_eq_none (f : Flags) {m : Mnemonic} (h : m.handler ≠ .branch) : taken? f m = none := by
  revert h
  cases m <;> simp [Mnemonic.handler, taken?]

/-- A transfer is without an operand, so the mnemonic alone decides. -/
theorem reception_transfer : Reception i.transfer := by
  by_cases hserves : i.mnemonic.handler = .transfer
  · exact .accepts (succeeds_transfer hserves)
  · refine .refuses (.unexpectedMnemonic i.mnemonic i.handler) (refuses_of_get fun r => ?_)
    rw [transferred?_eq_none r hserves]
    exact refuses_throw _

/-- So it does for the steps of an index register. -/
theorem reception_stepIndex : Reception i.stepIndex := by
  by_cases hserves : i.mnemonic.handler = .stepIndex
  · exact .accepts (succeeds_stepIndex hserves)
  · refine .refuses (.unexpectedMnemonic i.mnemonic i.handler) (refuses_of_get fun r => ?_)
    rw [indexStepped?_eq_none r hserves]
    exact refuses_throw _

theorem reception_flag : Reception i.flag := by
  by_cases hserves : i.mnemonic.handler = .flag
  · exact .accepts (succeeds_flag hserves)
  · refine .refuses (.unexpectedMnemonic i.mnemonic i.handler) (refuses_of_get fun r => ?_)
    rw [flagged?_eq_none r.flags hserves]
    exact refuses_throw _

/-- The fault of a mode that a routine has no use for is thrown without any access. -/
theorem refuses_refuseMode {mode : Mode} (h : i.mode = mode) :
    Refuses (i.refuseMode : Micro Nat) (.invalidMode i.mnemonic mode) :=
  h ▸ refuses_throw _

/-- A comparison refuses a mode that it has no use for before the operand is looked for; but first of all it
    asks for the register. -/
theorem reception_compare : Reception i.compare := by
  by_cases hserves : i.mnemonic.handler = .compare
  case neg =>
    refine .refuses (.unexpectedMnemonic i.mnemonic i.handler) (refuses_of_get fun r => ?_)
    rw [comparedRegister?_eq_none r hserves]
    exact refuses_throw _
  case pos =>
    have hserved := fun r => Option.ne_none_iff_exists'.mp (comparedRegister?_isSome r hserves)
    cases hmode : i.mode with
    -- the register is found, and then there is no operand
    | implied =>
      refine .refuses (.impliedOperand i.mnemonic) (refuses_of_get fun r => ?_)
      obtain ⟨value, hvalue⟩ := hserved r
      rw [hvalue, hmode]
      exact (refuses_operandByte hmode).bind _
    | accumulator | relative | indirect =>
      refine .refuses (.invalidMode i.mnemonic i.mode) (refuses_of_get fun r => ?_)
      obtain ⟨value, hvalue⟩ := hserved r
      rw [hvalue, hmode]
      exact refuses_refuseMode hmode
    | _ => exact .accepts (succeeds_compare hserves (by simp [hmode]))

/-- So does a store.  It has no use for a byte of the program, for A, and for the target of a branch. -/
theorem reception_store : Reception i.store := by
  by_cases hserves : i.mnemonic.handler = .store
  case neg =>
    refine .refuses (.unexpectedMnemonic i.mnemonic i.handler) (refuses_of_get fun r => ?_)
    rw [storedRegister?_eq_none r hserves]
    exact refuses_throw _
  case pos =>
    have hserved := fun r => Option.ne_none_iff_exists'.mp (storedRegister?_isSome r hserves)
    cases hmode : i.mode with
    | implied =>
      refine .refuses (.impliedOperand i.mnemonic) (refuses_of_get fun r => ?_)
      obtain ⟨value, hvalue⟩ := hserved r
      rw [hvalue, hmode]
      exact (refuses_locate hmode).bind _
    | immediate | accumulator | relative =>
      refine .refuses (.invalidMode i.mnemonic i.mode) (refuses_of_get fun r => ?_)
      obtain ⟨value, hvalue⟩ := hserved r
      rw [hvalue, hmode]
      exact refuses_refuseMode hmode
    | _ => exact .accepts (succeeds_store hserves (by simp [hmode]))

/-- That A is no target comes out only when the target has been looked for, but to find A takes no access. -/
theorem reception_branch : Reception i.branch := by
  by_cases hserves : i.mnemonic.handler = .branch
  case neg =>
    refine .refuses (.unexpectedMnemonic i.mnemonic i.handler) (refuses_of_get fun r => ?_)
    rw [taken?_eq_none r.flags hserves]
    exact refuses_throw _
  case pos =>
    have hserved := fun r : Registers => Option.ne_none_iff_exists'.mp (taken?_isSome r.flags hserves)
    cases hmode : i.mode with
    | implied =>
      refine .refuses (.impliedOperand i.mnemonic) (refuses_of_get fun r => ?_)
      obtain ⟨taken, htaken⟩ := hserved r
      rw [htaken]
      exact (refuses_locate hmode).bind _
    | accumulator =>
      refine .refuses (.invalidMode i.mnemonic i.mode) (refuses_of_get fun r => ?_)
      obtain ⟨taken, htaken⟩ := hserved r
      have hlocate : i.locate = pure (.accumulator, 0) := by
        unfold locate
        rw [hmode]
      rw [htaken, hlocate]
      exact refuses_throw _
    | _ => exact .accepts (succeeds_branch hserves (by simp [hmode]))

/-! ## All routines -/

/-- Whatever a descriptor is made of, it is accepted in every state or refused in every state. -/
theorem reception_execute (i : Instruction) (servicing : Option Interrupt) (start : UInt16) :
    Reception (i.execute servicing start) := by
  unfold execute
  cases i.handler with
  | adc => exact reception_adc
  | sbc => exact reception_sbc
  | logic => exact reception_logic
  | bit => exact reception_bit
  | compare => exact reception_compare
  | load => exact reception_load
  | store => exact reception_store
  | shift => exact reception_shift
  | stepMemory => exact reception_stepMemory
  | stepIndex => exact reception_stepIndex
  | transfer => exact reception_transfer
  | flag => exact reception_flag
  | branch => exact reception_branch
  | jmp => exact reception_jmp
  | jsr => exact reception_jsr
  -- these have neither a mnemonic nor a mode to choose by
  | brk => exact .accepts ((succeeds_enter _).then fun _ => succeeds_pure _)
  | rti => exact .accepts (succeeds_rti.then fun _ => succeeds_pure _)
  | rts => exact .accepts (succeeds_rts.then fun _ => succeeds_pure _)
  | pha => exact .accepts (succeeds_pha.then fun _ => succeeds_pure _)
  | php => exact .accepts (succeeds_php.then fun _ => succeeds_pure _)
  | pla => exact .accepts (succeeds_pla.then fun _ => succeeds_pure _)
  | plp => exact .accepts (succeeds_plp.then fun _ => succeeds_pure _)
  | nop => exact .accepts (succeeds_pure _)
  | unimplemented => exact .of_throw _

end Instruction

/-! ## What is left of the state -/

namespace Processor

/-- What a refused instruction leaves of a processor `p`. -/
structure Refused (fault : Fault) (p q : Processor (Recorded Flat)) : Prop where
  /-- If the fault is one that is found at once, everything: also the tape, on which every access would be. -/
  untouched : fault.outright = true → q = p
  /-- In any case the registers, but for the program counter and the address latch. -/
  registers : ∃ pc latch, q.registers = p.registers.placed pc latch
  /-- All bytes of the memory. -/
  memory : q.flat = p.flat
  /-- All pending requests, and what the budget holds. -/
  panel : q.world.panel = p.world.panel

variable {s : Micro α} {fault : Fault}

/-- A processor that is to do something which refuses stays as it is, in every respect. -/
theorem perform_of_refuses (h : s.Refuses fault) (p : Processor (Recorded Flat)) :
    p.perform s = (.error fault, p) := by
  unfold perform
  rw [h p.registers]
  rfl

/-- After a late refusal, what the look has moved has moved; everything else is as it was. -/
theorem perform_of_regrets (h : s.Regrets fault) (hlate : fault.outright = false)
    (p : Processor (Recorded Flat)) :
    (p.perform s).1 = .error fault ∧ Refused fault p (p.perform s).2 := by
  obtain ⟨⟨houtcome, hregisters⟩, hmemory, hpanel⟩ := (h p.registers).play p.world
  refine ⟨houtcome, ?_, hregisters, hmemory, hpanel⟩
  -- a late fault is not found at once, so this part says nothing
  intro houtright
  rw [hlate] at houtright
  cases houtright

/-- A descriptor that is refused in one state is refused in all of them, with the same fault: by cases on
    how it is received. -/
theorem refused_of_reception (h : Instruction.Reception s) {p : Processor (Recorded Flat)}
    (herror : (p.perform s).1 = .error fault) (q : Processor (Recorded Flat)) :
    (q.perform s).1 = .error fault ∧ Refused fault q (q.perform s).2 := by
  cases h with
  | accepts hsucceeds =>
    -- what goes through in every state has not failed in this one
    obtain ⟨a, hok, -⟩ := (hsucceeds p.registers).play p.world
    have houtcome : (p.perform s).1 = .ok a := hok
    rw [herror] at houtcome
    cases houtcome
  | refuses found hrefuses =>
    rw [perform_of_refuses hrefuses] at herror ⊢
    obtain rfl : found = fault := Except.error.inj herror
    exact ⟨rfl, fun _ => rfl, ⟨_, _, rfl⟩, rfl, rfl⟩
  | regrets found hlate hregrets =>
    rw [(perform_of_regrets hregrets hlate p).1] at herror
    obtain rfl : found = fault := Except.error.inj herror
    exact perform_of_regrets hregrets hlate q

/-- A descriptor that a routine cannot execute is refused before anything has been touched.  Whatever it is
    made of, and whether the opcode table lists it or not: if executing it fails, then registers, memory,
    pending requests and budget are what they were.  An opcode without a meaning, a mode that the routine
    has no use for and a mode without an operand are found without any access to the bus, and not even the
    program counter and the address latch have moved; only a mnemonic can be refused after the operand has
    been read.  The fault is that of the descriptor: it is the same in every other state. -/
theorem refuses_cleanly (i : Instruction) (servicing : Option Interrupt) (start : UInt16)
    (p : Processor (Recorded Flat)) (fault : Fault)
    (h : (p.perform (i.execute servicing start)).1 = .error fault) :
    Refused fault p (p.perform (i.execute servicing start)).2 ∧
      ∀ q : Processor (Recorded Flat), (q.perform (i.execute servicing start)).1 = .error fault := by
  have hreception := i.reception_execute servicing start
  exact ⟨(refused_of_reception hreception h p).2, fun q => (refused_of_reception hreception h q).1⟩

/-- A descriptor that sends a load to the routine of the logical operations, in a mode that can be chosen. -/
def misfit (mode : Mode) : Instruction where
  opcode := 0xAD
  mnemonic := .lda
  mode := mode
  length := 3
  cycles := 4
  pageCross := false
  handler := .logic

/-- The same descriptor in two modes: with an operand the mnemonic is refused after three reads, and without
    one nothing is read at all. -/
theorem refuses_cleanly_misfit :
    let late := cornered.perform ((misfit .absolute).execute none 0xFFFF)
    let early := cornered.perform ((misfit .implied).execute none 0xFFFF)
    late.1 = .error (.unexpectedMnemonic .lda .logic) ∧ late.2.tape.length = 3 ∧
      Refused (.unexpectedMnemonic .lda .logic) cornered late.2 ∧
      early.1 = .error (.impliedOperand .lda) ∧ early.2 = cornered := by
  have hlate : (cornered.perform ((misfit .absolute).execute none 0xFFFF)).1 =
      .error (.unexpectedMnemonic .lda .logic) := rfl
  have hearly : (cornered.perform ((misfit .implied).execute none 0xFFFF)).1 =
      .error (.impliedOperand .lda) := rfl
  refine ⟨hlate, by decide +kernel, ?_, hearly, ?_⟩
  · exact (refuses_cleanly (misfit .absolute) none 0xFFFF cornered _ hlate).1
  · exact (refuses_cleanly (misfit .implied) none 0xFFFF cornered _ hearly).1.untouched rfl

end Processor

end Breadboard
