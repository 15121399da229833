import Breadboard.Proofs.Nesting
/-
  Where the program goes after an instruction, and what getting there costs on top.

  Both are said from the descriptor alone, without a word about routines.  `Instruction.successor` is the
  next program counter: behind the instruction, whose length is in the opcode table, unless it is one of the
  few that go elsewhere.  `Instruction.surcharge` is the one cycle for an indexed operand, or a taken
  branch, that ends up in another page.

  The routines know neither of the two.  They consume operand bytes where they look for their operand, and
  the cycle comes from there as well, or from the branch routine.  `Micro.Ends` says what a microprogram
  ends with on a flat memory, `Advances` that a routine ends behind its operand bytes with what reaching the
  operand costs; there is a lemma for each routine, and `ends_execute` puts them together.
-/
namespace Breadboard

variable {α β : Type}

/-! ## Conditions and targets

The registers `r` are those before the opcode is read: `r.pc` is where it is. -/

namespace Mnemonic

/-- The flag that a branch looks at, and what it has to be for the branch to be taken.  No other mnemonic
    has one. -/
def condition? : Mnemonic → Option ((Flags → Bool) × Bool)
  | .bcc => some (Flags.carry, false)
  | .bcs => some (Flags.carry, true)
  | .bne => some (Flags.zero, false)
  | .beq => some (Flags.zero, true)
  | .bpl => some (Flags.negative, false)
  | .bmi => some (Flags.negative, true)
  | .bvc => some (Flags.overflow, false)
  | .bvs => some (Flags.overflow, true)
  | _ => none

/-- Whether it is a branch, and one that is taken with these flags. -/
def branches (f : Flags) (mnemonic : Mnemonic) : Bool :=
  match mnemonic.condition? with
  | some (flag, wanted) => flag f == wanted
  | none => false

end Mnemonic

section

variable (r : Registers) (m : Flat)

/-- Where a branch leads: its operand is the signed distance from the address behind it. -/
def branchTarget : UInt16 :=
  .ofInt (r.pc.toNat + 2 + (Mode.operandByte r m).toInt8.toInt)

/-- The word that is pulled from the stack after so many bytes. -/
def pulledWord (bytes : UInt8) : UInt16 :=
  word (m.read (stackCell (r.sp + bytes + 1))) (m.read (stackCell (r.sp + bytes + 2)))

namespace Mode

/-- What the index is added to, for the three modes in which that may end up in another page. -/
def unindexed? : Mode → Option UInt16
  | .absoluteX | .absoluteY => some (operandWord r m)
  | .indirectIndexed => some (pointee r m .indirectIndexed)
  | _ => none

/-- Whether indexing leads to another page than it started from. -/
def strays (mode : Mode) : Bool :=
  match mode.unindexed? r m, mode.cell? r m with
  | some base, some address => page base != page address
  | _, _ => false

end Mode

namespace Instruction

/-- Whether a branch is taken and leads to another page than that of the address behind it. -/
def leaps (i : Instruction) : Bool :=
  i.mnemonic.branches r.flags && page (r.pc + 2) != page (branchTarget r m)

/-- What it costs on top of what its descriptor says, given that the descriptor provides for it. -/
def surcharge (i : Instruction) : Nat :=
  if i.pageCross && (i.mode.strays r m || i.leaps r m) then 1 else 0

/-- The program counter afterwards.  JMP, JSR, RTS, RTI and BRK each have a line of their own; what is left
    are the branches and whatever goes on behind its own length. -/
def successor (i : Instruction) : UInt16 :=
  match i.mnemonic with
  | .jmp =>
    if i.mode = .indirect then
      -- the high byte comes from the next address, in the next page if need be
      word (m.read (Mode.operandWord r m)) (m.read (Mode.operandWord r m + 1))
    else Mode.operandWord r m
  | .jsr => Mode.operandWord r m
  | .rts => pulledWord r m 0 + 1
  | .rti => pulledWord r m 1
  | .brk => word (m.read 0xFFFE) (m.read 0xFFFF)
  | mnemonic =>
    match mnemonic.condition? with
    | some (flag, wanted) => if flag r.flags = wanted then branchTarget r m else r.pc + 2
    | none => r.pc + UInt16.ofNat i.length

end Instruction

end

/-- The sum of integers wraps to the sum that the processor forms, in which the distance is extended to
    sixteen bits. -/
theorem branchTarget_eq (r : Registers) (m : Flat) :
    branchTarget r m = r.pc + 2 + (Mode.operandByte r m).toInt8.toInt16.toUInt16 := by
  -- the distance has few enough values to look at them all, and the program counter is dealt with in
  -- general
  have hall : ∀ n : Fin 256, UInt16.ofInt (UInt8.ofNat n).toInt8.toInt =
      (UInt8.ofNat n).toInt8.toInt16.toUInt16 := by decide +kernel
  have hdistance := hall ⟨(Mode.operandByte r m).toNat, (Mode.operandByte r m).toNat_lt⟩
  simp only [UInt8.ofNat_toNat] at hdistance
  have hpc : UInt16.ofInt r.pc.toNat = r.pc := by
    have hlt := r.pc.toNat_lt
    have hnat : ((r.pc.toNat : Int) % 2 ^ 16).toNat = r.pc.toNat := by omega
    rw [UInt16.ofInt, hnat, UInt16.ofNat_toNat]
  rw [branchTarget, UInt16.ofInt_add, UInt16.ofInt_add, hdistance, hpc]
  rfl

namespace Mnemonic

variable {mnemonic : Mnemonic}

/-- The branch routine takes the same branches, by all combinations of the flags. -/
theorem taken?_eq (h : mnemonic.handler = .branch) (f : Flags) :
    Instruction.taken? f mnemonic = some (mnemonic.branches f) := by
  revert h
  obtain ⟨negative, overflow, _, _, _, _, zero, carry⟩ := f
  cases mnemonic <;> simp [handler, Instruction.taken?, branches, condition?]

/-- A mnemonic that the branch routine does not serve has no condition. -/
theorem condition?_eq_none (h : mnemonic.handler ≠ .branch) : mnemonic.condition? = none := by
  revert h
  cases mnemonic <;> simp [handler, condition?]

/-- Hence it never counts as a branch that is taken. -/
theorem branches_eq_false (h : mnemonic.handler ≠ .branch) (f : Flags) :
    mnemonic.branches f = false := by
  rw [branches, condition?_eq_none h]

end Mnemonic

/-- The routines that do not always go on behind their instruction. -/
def Handler.diverts : Handler → Bool
  | .branch | .jmp | .jsr | .rts | .rti | .brk => true
  | _ => false

namespace Instruction

variable {i : Instruction}

/-- For a branch the successor is its target or what comes behind its two bytes. -/
theorem successor_of_branch (h : i.mnemonic.handler = .branch) (r : Registers) (m : Flat) :
    i.successor r m = if i.mnemonic.branches r.flags then branchTarget r m else r.pc + 2 := by
  unfold successor Mnemonic.branches
  revert h
  cases i.mnemonic <;> simp [Mnemonic.handler, Mnemonic.condition?]

/-- For whatever does not go elsewhere it is what comes behind the length in the table. -/
theorem successor_of_not_diverts (h : i.mnemonic.handler.diverts = false) (r : Registers)
    (m : Flat) : i.successor r m = r.pc + UInt16.ofNat i.length := by
  unfold successor
  revert h
  cases i.mnemonic <;> simp [Mnemonic.handler, Handler.diverts, Mnemonic.condition?]

end Instruction

/-! ## Microprograms and what they end with -/

/-- So much is charged on top, and the program goes on here. -/
structure Lands (extra : Nat) (pc : UInt16) (result : Nat) (r : Registers) : Prop where
  extra : result = extra
  pc : r.pc = pc

namespace Micro

/-- On this memory and with these registers it ends without a fault, and what it ends with is such.  Unlike
    `Completes` this is about one state, since where an instruction goes depends on what is there. -/
def Ends (s : Micro α) (m : Flat) (r : Registers) (P : α → Registers → Prop) : Prop :=
  ∃ a r', (s r).result m = (.ok a, r') ∧ P a r'

variable {m : Flat} {r : Registers} {P : α → Registers → Prop} {Q : β → Registers → Prop}

/-- The rest has to be right on any memory, because what comes before it may have written. -/
theorem Ends.bind {s : Micro α} {f : α → Micro β} (h : s.Ends m r P)
    (hnext : ∀ a r' m', P a r' → (f a).Ends m' r' Q) : (s >>= f).Ends m r Q := by
  obtain ⟨a, r', hresult, hP⟩ := h
  obtain ⟨b, r'', hresult', hQ⟩ := hnext a r' (((s r).accesses m).foldl Flat.replay m) hP
  refine ⟨b, r'', ?_, hQ⟩
  refine (Traffic.result_bind (s r) _ m).trans ?_
  rw [hresult]
  exact hresult'

theorem Ends.imp {P' : α → Registers → Prop} {s : Micro α} (h : s.Ends m r P)
    (hP : ∀ a r', P a r' → P' a r') : s.Ends m r P' := by
  obtain ⟨a, r', hresult, ha⟩ := h
  exact ⟨a, r', hresult, hP a r' ha⟩

theorem ends_pure {a : α} (h : P a r) : (pure a : Micro α).Ends m r P :=
  ⟨a, r, rfl, h⟩

/-- What follows a look at the registers is still on the same memory. -/
theorem ends_of_get {f : Registers → Micro β} (h : (f r).Ends m r Q) : (get >>= f).Ends m r Q :=
  h

theorem ends_set (r' : Registers) : (set r' : Micro Unit).Ends m r fun _ r'' => r'' = r' :=
  ⟨(), r', rfl, rfl⟩

theorem ends_modify (f : Registers → Registers) :
    (modify f : Micro Unit).Ends m r fun _ r' => r' = f r :=
  ⟨(), f r, rfl, rfl⟩

end Micro

open Micro

/-- Fetching an operand that has been found leaves the program counter alone, and storing to it does below. -/
theorem Operand.ends_fetch {m : Flat} {r : Registers} (operand : Operand) :
    operand.fetch.Ends m r fun _ r' => r'.pc = r.pc := by
  cases operand with
  | accumulator => exact ⟨_, _, rfl, rfl⟩
  | cell address => exact ⟨_, _, rfl, rfl⟩

theorem Operand.ends_store {m : Flat} {r : Registers} (operand : Operand) (v : UInt8) :
    (operand.store v).Ends m r fun _ r' => r'.pc = r.pc := by
  cases operand with
  | accumulator => exact ⟨_, _, rfl, rfl⟩
  | cell address => exact ⟨_, _, rfl, rfl⟩

namespace Instruction

variable {i : Instruction} {m : Flat} {r : Registers}

/-- What reaching the operand costs on top, which is all the surcharge there is but for branches. -/
def reach (i : Instruction) (r : Registers) (m : Flat) : Nat :=
  if i.pageCross && i.mode.strays r m then 1 else 0

/-- The address behind the operand bytes, which is where the routine leaves the program counter unless it
    goes elsewhere. -/
def behind (i : Instruction) (r : Registers) : UInt16 :=
  r.pc + UInt16.ofNat (1 + i.mode.operandBytes)

/-- Finding an operand consumes its bytes, ends at its cell, and has a price: the modes that cannot stray
    are free, and the others ask whether they did. -/
theorem ends_locate (himplied : i.mode ≠ .implied) :
    i.locate.Ends m r.opened fun x r' => Lands (i.reach r m) (i.behind r) x.2 r' ∧
      (i.mode ≠ .immediate → x.1.cell? = i.mode.cell? r m) := by
  have hone : r.pc + 1 + 1 = r.pc + UInt16.ofNat (1 + 1) := UInt16.add_assoc _ _ _
  have htwo : r.pc + 1 + 1 + 1 = r.pc + UInt16.ofNat (1 + 2) := by
    rw [UInt16.add_assoc, UInt16.add_assoc]
    rfl
  -- the price in a mode without indexing, put as the definition puts it
  have hfree : 0 = if (i.pageCross && false) = true then 1 else 0 := by simp
  unfold locate reach behind
  cases hmode : i.mode with
  | implied => exact absurd hmode himplied
  | accumulator => exact ⟨_, _, rfl, ⟨hfree, rfl⟩, fun _ => rfl⟩
  | immediate => exact ⟨_, _, rfl, ⟨hfree, hone⟩, fun h => absurd rfl h⟩
  | absolute | indirect => exact ⟨_, _, rfl, ⟨hfree, htwo⟩, fun _ => rfl⟩
  | absoluteX | absoluteY => exact ⟨_, _, rfl, ⟨rfl, htwo⟩, fun _ => rfl⟩
  | indirectIndexed => exact ⟨_, _, rfl, ⟨rfl, hone⟩, fun _ => rfl⟩
  | indexedIndirect | zeroPage | zeroPageX | zeroPageY =>
    exact ⟨_, _, rfl, ⟨hfree, hone⟩, fun _ => rfl⟩
  | relative =>
    have hnext : r.pc + 1 + 1 = r.pc + 2 := hone
    refine ⟨_, _, rfl, ⟨hfree, hone⟩, fun _ => ?_⟩
    simp only [Mode.cell?, ← hnext]
    rfl

/-! ## The routines that go on behind their operand -/

/-- It hands on a price that has been found before, and leaves the program counter alone.  This is what
    routines do once they have their operand. -/
def Passes (extra : Nat) (s : Micro Nat) : Prop :=
  ∀ m r, s.Ends m r (Lands extra r.pc)

/-- The routine finds its operand, asks what reaching it costs, and goes on behind it.  Most routines do
    just that. -/
def Advances (i : Instruction) (s : Micro Nat) : Prop :=
  ∀ m r, s.Ends m r.opened (Lands (i.reach r m) (i.behind r))

/-- A change of the registers that keeps the program counter hands the price on. -/
theorem passes_modify {f : Registers → Registers} (hf : ∀ r, (f r).pc = r.pc) (extra : Nat) :
    Passes extra (do modify f; return extra) := by
  intro m r
  refine (ends_modify f).bind fun _ r' m' hr' => ends_pure ⟨rfl, ?_⟩
  rw [hr', hf]

/-- So does what comes after a fetch, if it does for every byte. -/
theorem Passes.after_fetch {extra : Nat} {next : UInt8 → Micro Nat} (operand : Operand)
    (hnext : ∀ v, Passes extra (next v)) : Passes extra (operand.fetch >>= next) := by
  intro m r
  refine operand.ends_fetch.bind fun v r' m' hpc => ?_
  exact (hnext v m' r').imp fun _ r'' ⟨hextra, hpc'⟩ => ⟨hextra, hpc'.trans hpc⟩

theorem Passes.after_store {extra : Nat} {next : Micro Nat} (operand : Operand) (v : UInt8)
    (hnext : Passes extra next) : Passes extra (do operand.store v; next) := by
  intro m r
  refine (operand.ends_store v).bind fun _ r' m' hpc => ?_
  exact (hnext m' r').imp fun _ r'' ⟨hextra, hpc'⟩ => ⟨hextra, hpc'.trans hpc⟩

/-- A routine that finds its operand and then hands on the price advances. -/
theorem Advances.of_locate (h : i.mode ≠ .implied) {next : Operand × Nat → Micro Nat}
    (hnext : ∀ x, Passes x.2 (next x)) : i.Advances (i.locate >>= next) := by
  intro m r
  refine (ends_locate h).bind fun x r' m' ⟨⟨hextra, hpc⟩, _⟩ => ?_
  exact (hnext x m' r').imp fun _ r'' ⟨hextra', hpc'⟩ => ⟨hextra'.trans hextra, hpc'.trans hpc⟩

theorem Advances.of_operandByte (h : i.mode ≠ .implied) {next : UInt8 × Nat → Micro Nat}
    (hnext : ∀ x, Passes x.2 (next x)) : i.Advances (i.operandByte >>= next) := by
  intro m r
  -- the byte comes with the price of finding it
  have hbyte : i.operandByte.Ends m r.opened fun x => Lands (i.reach r m) (i.behind r) x.2 := by
    refine (ends_locate h).bind fun x r' m' ⟨⟨hextra, hpc⟩, _⟩ => ?_
    exact x.1.ends_fetch.bind fun v r'' m'' hpc' => ends_pure ⟨hextra, hpc'.trans hpc⟩
  refine hbyte.bind fun x r' m' ⟨hextra, hpc⟩ => ?_
  exact (hnext x m' r').imp fun _ r'' ⟨hextra', hpc'⟩ => ⟨hextra'.trans hextra, hpc'.trans hpc⟩

/-- The routines one by one, beginning with those that take their operand byte into the registers. -/
theorem advances_adc (h : i.mode ≠ .implied) : i.Advances i.adc :=
  .of_operandByte h fun x => passes_modify (f := fun r => r.add x.1) (fun _ => rfl) x.2

theorem advances_sbc (h : i.mode ≠ .implied) : i.Advances i.sbc :=
  .of_operandByte h fun x => passes_modify (f := fun r => r.subtract x.1) (fun _ => rfl) x.2

theorem advances_bit (h : i.mode ≠ .implied) : i.Advances i.bit :=
  .of_operandByte h fun x => passes_modify (f := fun r => r.testBits x.1) (fun _ => rfl) x.2

/-- What a logical operation makes of its byte goes into the accumulator. -/
theorem advances_logic (hserves : i.mnemonic.handler = .logic) (h : i.mode ≠ .implied) :
    i.Advances i.logic := by
  refine .of_operandByte h ?_
  rintro ⟨v, extra⟩
  have hset : ∀ f : Registers → UInt8,
      Passes extra (do modify fun r => r.setA (f r); return extra) :=
    fun f => passes_modify (f := fun r => r.setA (f r)) (fun _ => rfl) extra
  dsimp only
  split
  case h_4 hand hora heor =>
    revert hserves hand hora heor
    cases i.mnemonic <;> simp [Mnemonic.handler]
  all_goals exact hset _

/-- A comparison looks at its register before it finds the operand, which makes no difference. -/
theorem advances_compare (hserves : i.mnemonic.handler = .compare)
    (h : i.mode ∉ [.implied, .accumulator, .relative, .indirect]) : i.Advances i.compare := by
  intro m r
  unfold compare
  refine ends_of_get ?_
  split
  case h_1 hnone => exact absurd hnone (comparedRegister?_isSome r.opened hserves)
  case h_2 value _ =>
    split
    case h_4 =>
      have hmode : i.mode ≠ .implied := List.ne_of_not_mem_cons h
      have hcompares := Advances.of_operandByte hmode fun x =>
        passes_modify (f := fun r => r.compare value x.1) (fun _ => rfl) x.2
      exact hcompares m r
    all_goals
      rename_i hmode
      rw [hmode] at h
      exact absurd h (by decide)

/-- Loading goes to A, X or Y and never to the program counter. -/
theorem loaded_pc (v : UInt8) (r : Registers) (mnemonic : Mnemonic) :
    ((loaded? v r mnemonic).getD r).pc = r.pc := by
  cases mnemonic <;> rfl

/-- A load hands on the price, whichever register it goes to. -/
theorem advances_load (hserves : i.mnemonic.handler = .load) (h : i.mode ≠ .implied) :
    i.Advances i.load := by
  unfold load
  split
  case h_4 hlda hldx hldy =>
    revert hserves hlda hldx hldy
    cases i.mnemonic <;> simp [Mnemonic.handler]
  all_goals
    exact .of_operandByte h fun x =>
      passes_modify (f := fun r => (loaded? x.1 r i.mnemonic).getD r)
        (fun r => loaded_pc x.1 r i.mnemonic) x.2

theorem advances_store (hserves : i.mnemonic.handler = .store)
    (h : i.mode ∉ [.implied, .immediate, .accumulator, .relative]) : i.Advances i.store := by
  intro m r
  have himplied : i.mode ≠ .implied := List.ne_of_not_mem_cons h
  unfold store
  refine ends_of_get ?_
  split
  case h_1 hnone => exact absurd hnone (storedRegister?_isSome r.opened hserves)
  case h_2 value _ =>
    split
    case h_4 =>
      have hstores : ∀ x : Operand × Nat, Passes x.2 (do x.1.store value; return x.2) :=
        fun x => .after_store x.1 value fun _ _ => ends_pure ⟨rfl, rfl⟩
      exact Advances.of_locate himplied hstores m r
    all_goals
      rename_i hmode
      rw [hmode] at h
      exact absurd h (by decide)

/-- Shifting goes on behind its operand, after a fetch and a store. -/
theorem advances_shift (hserves : i.mnemonic.handler = .shift) (himplied : i.mode ≠ .implied) :
    i.Advances i.shift := by
  rw [shift_eq]
  split
  case h_5 hasl hrol hlsr hror =>
    revert hserves hasl hrol hlsr hror
    cases i.mnemonic <;> simp [Mnemonic.handler]
  all_goals
    refine .of_locate himplied ?_
    rintro ⟨operand, extra⟩
    refine .after_fetch operand fun v m r => ends_of_get ?_
    -- what the shift makes of the byte does not matter
    generalize (shifted? v r.flags.carry _).getD (v, false) = shifted
    obtain ⟨result, carry⟩ := shifted
    refine Passes.after_store operand result (passes_modify ?_ extra) m r
    exact fun _ => rfl

theorem advances_stepMemory (hserves : i.mnemonic.handler = .stepMemory)
    (himplied : i.mode ≠ .implied) : i.Advances i.stepMemory := by
  rw [stepMemory_eq]
  split
  case h_1 hnone => exact absurd hnone (memoryStep?_isSome hserves)
  case h_2 step _ =>
    exact .of_locate himplied fun x => .after_fetch x.1 fun v => .after_store x.1 (v + step)
      (passes_modify (f := fun r => { r with flags := r.flags.setZN (v + step) }) (fun _ => rfl) x.2)

/-! ## The routines that have no operand -/

theorem passes_zero : Passes 0 (pure 0) :=
  fun _ _ => ends_pure ⟨rfl, rfl⟩

/-- Counting in an index register is free and stays where it is. -/
theorem passes_stepIndex (hserves : i.mnemonic.handler = .stepIndex) : Passes 0 i.stepIndex := by
  intro m r
  unfold stepIndex
  refine ends_of_get ?_
  split
  case h_1 hnone => exact absurd hnone (indexStepped?_isSome r hserves)
  case h_2 r' hr' =>
    have hpc : r'.pc = r.pc := by
      revert hr'
      cases i.mnemonic <;> simp [indexStepped?] <;> rintro rfl <;> rfl
    exact (ends_set r').bind fun _ r'' m' heq => ends_pure ⟨rfl, by rw [heq, hpc]⟩

/-- So is a transfer; none goes to the program counter. -/
theorem passes_transfer (hserves : i.mnemonic.handler = .transfer) : Passes 0 i.transfer := by
  intro m r
  unfold transfer
  refine ends_of_get ?_
  split
  case h_1 hnone => exact absurd hnone (transferred?_isSome r hserves)
  case h_2 r' hr' =>
    have hpc : r'.pc = r.pc := by
      revert hr'
      cases i.mnemonic <;> simp [transferred?] <;> rintro rfl <;> rfl
    exact (ends_set r').bind fun _ r'' m' heq => ends_pure ⟨rfl, by rw [heq, hpc]⟩

theorem passes_flag (hserves : i.mnemonic.handler = .flag) : Passes 0 i.flag := by
  intro m r
  unfold flag
  refine ends_of_get ?_
  split
  case h_1 hnone => exact absurd hnone (flagged?_isSome r.flags hserves)
  case h_2 flags _ =>
    exact (ends_set _).bind fun _ r'' m' heq => ends_pure ⟨rfl, by rw [heq]⟩

/-- The routines that push or pull one byte move the stack pointer only. -/
theorem passes_stack {s : Micro Unit} (h : s ∈ [pha, php, pla, plp]) :
    Passes 0 (do s; return 0) := by
  intro m r
  simp only [List.mem_cons, List.not_mem_nil, or_false] at h
  rcases h with rfl | rfl | rfl | rfl <;> exact ⟨_, _, rfl, rfl, rfl⟩

/-! ## The routines that go elsewhere -/

/-- What is not a branch can only pay for reaching its operand. -/
theorem surcharge_of_not_branch (h : i.mnemonic.handler ≠ .branch) (r : Registers) (m : Flat) :
    i.surcharge r m = i.reach r m := by
  unfold surcharge reach leaps
  rw [Mnemonic.branches_eq_false h, Bool.false_and, Bool.or_false]

/-- A mode that has nothing to add an index to reaches its operand for free. -/
theorem reach_eq_zero (h : i.mode.unindexed? r m = none) : i.reach r m = 0 := by
  unfold reach Mode.strays
  rw [h]
  simp

/-- A branch lands at its target or behind its operand, and pays if it is taken into another page. -/
theorem ends_branch (hserves : i.mnemonic.handler = .branch) (hmode : i.mode = .relative)
    (m : Flat) (r : Registers) :
    i.branch.Ends m r.opened (Lands (i.surcharge r m) (i.successor r m)) := by
  have himplied : i.mode ≠ .implied := by rw [hmode]; decide
  have himmediate : i.mode ≠ .immediate := by rw [hmode]; decide
  have hreach : i.reach r m = 0 := reach_eq_zero (by rw [hmode]; rfl)
  have hstrays : i.mode.strays r m = false := by rw [hmode]; rfl
  have hbehind : i.behind r = r.pc + 2 := by rw [behind, hmode]; rfl
  unfold branch
  refine ends_of_get ?_
  rw [Mnemonic.taken?_eq hserves]
  refine (ends_locate himplied).bind ?_
  rintro ⟨operand, extra⟩ r' m' ⟨⟨hextra, hpc⟩, hcell⟩
  obtain rfl : extra = 0 := hextra.trans hreach
  have hpc : r'.pc = r.pc + 2 := hpc.trans hbehind
  have hcell : operand.cell? = some (branchTarget r m) := by
    rw [branchTarget_eq, hcell himmediate, hmode]
    rfl
  rw [successor_of_branch hserves, surcharge, leaps, hstrays, Bool.false_or]
  cases operand with
  | accumulator => cases hcell
  | cell target =>
    obtain rfl : target = branchTarget r m := Option.some.inj hcell
    -- the branch looks at the flags before its operand is found, and at the program counter after
    have hflags : r.opened.flags = r.flags := rfl
    rw [hflags]
    cases hbranches : i.mnemonic.branches r.flags with
    | false => exact ends_pure ⟨by simp, hpc⟩
    | true =>
      refine ends_of_get ((ends_set _).bind fun _ r'' m'' heq => ends_pure ⟨?_, by rw [heq]; rfl⟩)
      rw [hpc, crossingCost, Bool.true_and, Nat.zero_add]

/-- A jump lands where its mode finds the cell: at its operand, or where the pointer leads. -/
theorem ends_jmp (hserves : i.mnemonic.handler = .jmp) (h : i.mode ∈ [.absolute, .indirect])
    (m : Flat) (r : Registers) :
    i.jmp.Ends m r.opened (Lands (i.surcharge r m) (i.successor r m)) := by
  have hmnemonic : i.mnemonic = .jmp := by
    revert hserves
    cases i.mnemonic <;> simp [Mnemonic.handler]
  have hcost : i.surcharge r m = i.reach r m :=
    surcharge_of_not_branch (by rw [hserves]; decide) r m
  have himplied : i.mode ≠ .implied := fun hmode => by simp [hmode] at h
  have himmediate : i.mode ≠ .immediate := fun hmode => by simp [hmode] at h
  -- the successor was given by cases on the mode, and so was the cell
  have htarget : i.mode.cell? r m = some (i.successor r m) := by
    rw [successor, hmnemonic]
    rcases List.mem_cons.mp h with hmode | hmode
    · rw [hmode]
      rfl
    · rw [List.mem_singleton.mp hmode]
      rfl
  unfold jmp
  split
  case h_3 habsolute hindirect =>
    rcases List.mem_cons.mp h with hmode | hmode
    · exact absurd hmode habsolute
    · exact absurd (List.mem_singleton.mp hmode) hindirect
  all_goals
    refine (ends_locate himplied).bind ?_
    rintro ⟨operand, extra⟩ r' m' ⟨⟨hextra, hpc⟩, hcell⟩
    have hcell := (hcell himmediate).trans htarget
    cases operand with
    | accumulator => cases hcell
    | cell target =>
      obtain rfl : target = i.successor r m := Option.some.inj hcell
      refine (ends_modify _).bind fun _ r'' m'' heq => ends_pure ⟨hextra.trans hcost.symm, ?_⟩
      rw [heq]

/-- The target is read before the return address is pushed, so the pushes cannot change it. -/
theorem ends_jsr (hmode : i.mode = .absolute) (m : Flat) (r : Registers) :
    i.jsr.Ends m r.opened (Lands 0 (Mode.operandWord r m)) := by
  unfold jsr
  rw [hmode]
  exact ⟨_, _, rfl, rfl, rfl⟩

end Instruction

namespace Micro

/-- RTS lands behind the word that it pulls. -/
theorem ends_rts (m : Flat) (r : Registers) :
    rts.Ends m r fun _ r' => r'.pc = pulledWord r m 0 + 1 := by
  have hzero : r.sp + 0 = r.sp := UInt8.add_zero _
  have htwo : r.sp + 1 + 1 = r.sp + 2 := UInt8.add_assoc _ _ _
  refine ⟨_, _, rfl, ?_⟩
  rw [pulledWord, hzero, ← htwo]

/-- RTI lands at the word that it pulls, the status having been pulled first. -/
theorem ends_rti (m : Flat) (r : Registers) :
    rti.Ends m r fun _ r' => r'.pc = pulledWord r m 1 := by
  have htwo : r.sp + 1 + 1 + 1 = r.sp + 1 + 2 := UInt8.add_assoc _ _ _
  refine ⟨_, _, rfl, ?_⟩
  rw [pulledWord, ← htwo]

/-- The vector is read after three pushes, none of which can have changed it. -/
theorem ends_enter (m : Flat) (r : Registers) :
    (enter none).Ends m r fun _ r' => r'.pc = word (m.read 0xFFFE) (m.read 0xFFFF) := by
  let status := { r.flags with unused := true, brk := true }.toByte
  have htwo : r.sp - 1 - 1 = r.sp - 2 := by grind
  have hhandler := (m.offStack_pushFrame r.sp (r.pc + 1) status).handler .irq
  have hvector : m.handler .irq = word (m.read 0xFFFE) (m.read 0xFFFF) := rfl
  rw [← hvector, ← hhandler]
  unfold Flat.pushFrame
  rw [← htwo]
  exact ⟨_, _, rfl, rfl⟩

end Micro

/-! ## A whole instruction -/

namespace Instruction

variable {i : Instruction}

/-- A routine without an operand advances behind its one byte. -/
theorem Advances.of_passes {s : Micro Nat} (hmode : i.mode = .implied) (h : Passes 0 s) :
    i.Advances s := by
  intro m r
  have hreach : i.reach r m = 0 := reach_eq_zero (by rw [hmode]; rfl)
  have hbehind : i.behind r = r.pc + 1 := by rw [behind, hmode]; rfl
  rw [hreach, hbehind]
  exact h m r.opened

/-- A routine that goes on behind its operand has consumed as many bytes as the table says. -/
theorem Advances.lands {s : Micro Nat} (h : i.Advances s)
    (hdiverts : i.mnemonic.handler.diverts = false) (hlength : i.length = 1 + i.mode.operandBytes)
    (m : Flat) (r : Registers) : s.Ends m r.opened (Lands (i.surcharge r m) (i.successor r m)) := by
  have hbranch : i.mnemonic.handler ≠ .branch := by
    intro heq
    rw [heq] at hdiverts
    cases hdiverts
  rw [surcharge_of_not_branch hbranch, successor_of_not_diverts hdiverts, hlength]
  exact h m r

/-- A routine without an operand that goes elsewhere. -/
theorem lands_of_ends {s : Micro Unit} {m : Flat} {r : Registers} (hmode : i.mode = .implied)
    (hbranch : i.mnemonic.handler ≠ .branch)
    (h : s.Ends m r.opened fun _ r' => r'.pc = i.successor r m) :
    (do s; return 0 : Micro Nat).Ends m r.opened (Lands (i.surcharge r m) (i.successor r m)) := by
  have hfree : i.surcharge r m = 0 :=
    (surcharge_of_not_branch hbranch r m).trans (reach_eq_zero (by rw [hmode]; rfl))
  exact h.bind fun _ r' m' hpc => ends_pure ⟨hfree.symm, hpc⟩

/-- The rows of branches are all alike in mode, cycles and surcharge. -/
theorem branch_documented : ∀ i ∈ documented, i.handler = .branch →
    i.mode = .relative ∧ i.cycles = 2 ∧ i.pageCross = true := by
  decide +kernel

/-- Whatever is in the registers and in the memory, a documented instruction lands where it should, at the
    price it should have. -/
theorem ends_execute (hi : i ∈ documented) (start : UInt16) (m : Flat) (r : Registers) :
    (i.execute none start).Ends m r.opened (Lands (i.surcharge r m) (i.successor r m)) := by
  obtain ⟨hserves, htakes⟩ := fits_documented i hi
  have hapt := apt_documented i hi
  have hlength := length_eq_of_documented i hi
  have hrelative := branch_documented i hi
  unfold execute
  -- from here on the cases are those of the routine
  generalize i.handler = handler at hserves htakes hapt hrelative
  have hdiverts : handler.diverts = false → i.mnemonic.handler.diverts = false := by
    rw [hserves]
    exact id
  cases handler with
  | adc => exact (advances_adc htakes).lands (hdiverts rfl) hlength m r
  | sbc => exact (advances_sbc htakes).lands (hdiverts rfl) hlength m r
  | logic => exact (advances_logic hserves htakes).lands (hdiverts rfl) hlength m r
  | bit => exact (advances_bit htakes).lands (hdiverts rfl) hlength m r
  | compare => exact (advances_compare hserves htakes).lands (hdiverts rfl) hlength m r
  | load => exact (advances_load hserves htakes).lands (hdiverts rfl) hlength m r
  | store => exact (advances_store hserves htakes).lands (hdiverts rfl) hlength m r
  | shift => exact (advances_shift hserves htakes).lands (hdiverts rfl) hlength m r
  | stepMemory => exact (advances_stepMemory hserves htakes).lands (hdiverts rfl) hlength m r
  | stepIndex =>
    exact (Advances.of_passes hapt (passes_stepIndex hserves)).lands (hdiverts rfl) hlength m r
  | transfer =>
    exact (Advances.of_passes hapt (passes_transfer hserves)).lands (hdiverts rfl) hlength m r
  | flag => exact (Advances.of_passes hapt (passes_flag hserves)).lands (hdiverts rfl) hlength m r
  | nop => exact (Advances.of_passes hapt passes_zero).lands (hdiverts rfl) hlength m r
  | pha | php | pla | plp =>
    exact (Advances.of_passes hapt (passes_stack (by simp))).lands (hdiverts rfl) hlength m r
  | branch => exact ends_branch hserves (hrelative rfl).1 m r
  | jmp => exact ends_jmp hserves htakes m r
  | jsr =>
    have hmode : i.mode = .absolute := List.mem_singleton.mp htakes
    have hmnemonic : i.mnemonic = .jsr := Mnemonic.eq_of_handler hserves (by decide)
    have hfree : i.surcharge r m = 0 :=
      (surcharge_of_not_branch (by rw [hserves]; decide) r m).trans
        (reach_eq_zero (by rw [hmode]; rfl))
    rw [hfree, successor, hmnemonic]
    exact ends_jsr hmode m r
  | rts =>
    have hmnemonic : i.mnemonic = .rts := Mnemonic.eq_of_handler hserves (by decide)
    refine lands_of_ends hapt (by rw [hserves]; decide) ?_
    rw [successor, hmnemonic]
    exact ends_rts m r.opened
  | rti =>
    have hmnemonic : i.mnemonic = .rti := Mnemonic.eq_of_handler hserves (by decide)
    refine lands_of_ends hapt (by rw [hserves]; decide) ?_
    rw [successor, hmnemonic]
    exact ends_rti m r.opened
  | brk =>
    have hmnemonic : i.mnemonic = .brk := Mnemonic.eq_of_handler hserves (by decide)
    refine lands_of_ends hapt (by rw [hserves]; decide) ?_
    rw [successor, hmnemonic]
    exact ends_enter m r.opened
  | unimplemented => exact absurd htakes id

end Instruction

/-! ## A cycle -/

/-- On a flat memory, what a traffic brings depends on the memory alone and not on the panel. -/
theorem Traffic.fst_play (t : Traffic α) (w : World Flat) : (t.play w).1 = t.result w.memory := by
  induction t generalizing w with
  | done result => rfl
  | read address next ih => exact ih _ w
  | write address value next ih => exact ih _

/-- The opcodes of the instructions that push a return address, of which there are two. -/
theorem Instruction.opcode_of_saves {opcode : UInt8} (hdocumented : ¬Undocumented opcode)
    (h : (decode opcode).mnemonic ∈ [.jsr, .brk]) : opcode = 0x20 ∨ opcode = 0x00 := by
  have hrows : ∀ i ∈ documented, i.mnemonic ∈ [.jsr, .brk] → i.opcode = 0x20 ∨ i.opcode = 0x00 := by
    decide +kernel
  have hopcode := hrows (decode opcode) (decode_mem hdocumented) h
  rw [opcode_decode] at hopcode
  exact hopcode

namespace Processor

variable {p : Processor Flat}

/-- The instruction at the program counter, as the memory has it before the cycle. -/
def current (p : Processor Flat) : Instruction :=
  .decode (p.ram.read p.registers.pc)

/-- The return address that a call or a break has pushed, with its high byte first. -/
def savedAddress (p : Processor Flat) (m : Flat) : UInt16 :=
  word (m.read (stackCell (p.registers.sp - 1))) (m.read (stackCell p.registers.sp))

/-- What comes of an instruction that ends on the memory as it is. -/
theorem ran_of_result {p : Processor Flat} {i : Instruction} {start : UInt16} {extra : Nat}
    {r : Registers} (h : (i.execute none start p.registers).result p.ram = (.ok extra, r)) :
    (p.ran i none start).1 = .ok (i.cycles + extra) ∧ (p.ran i none start).2.registers.pc = r.pc := by
  have hplay := (i.execute none start p.registers).fst_play p.world
  unfold ran perform
  rcases hrun : (i.execute none start p.registers).play p.world with ⟨x, w⟩
  rw [hrun] at hplay
  obtain rfl : x = (.ok extra, r) := hplay.trans h
  exact ⟨rfl, rfl⟩

/-- What comes of a cycle that executes an instruction: what it is charged, and where the program goes. -/
theorem cycled_lands (hquiet : p.world.panel.requests = {})
    (hdocumented : ¬Instruction.Undocumented (p.ram.read p.registers.pc)) :
    p.cycled.1 = .ok (p.current.cycles + p.current.surcharge p.registers p.ram) ∧
      p.cycled.2.registers.pc = p.current.successor p.registers p.ram := by
  have hmem : p.current ∈ Instruction.documented := Instruction.decode_mem hdocumented
  obtain ⟨extra, r, hresult, hextra, hpc⟩ :=
    p.current.ends_execute hmem p.registers.pc p.ram p.registers
  have hran := ran_of_result (p := { p with registers := p.registers.opened }) hresult
  rw [cycled_of_quiet hquiet rfl, ← hextra, ← hpc]
  exact hran

/-- What a call or a break has pushed is the address of the instruction plus two, read back from the two top
    cells. -/
theorem savedAddress_cycled (hquiet : p.world.panel.requests = {})
    (hdocumented : ¬Instruction.Undocumented (p.ram.read p.registers.pc))
    (hsaves : p.current.mnemonic ∈ [.jsr, .brk]) :
    p.savedAddress p.cycled.2.ram = p.registers.pc + 2 := by
  unfold savedAddress
  -- the call pushes two bytes and the break three, so the word is found from different ends
  rcases Instruction.opcode_of_saves hdocumented hsaves with hopcode | hopcode
  · have hlo : p.registers.sp - 2 + 1 = p.registers.sp - 1 := by grind
    have hhi : p.registers.sp - 2 + 2 = p.registers.sp := by grind
    obtain ⟨hreadlo, hreadhi⟩ := p.ram.read_pushWord p.registers.sp (p.registers.pc + 2)
    rw [hlo] at hreadlo
    rw [hhi] at hreadhi
    rw [cycled_jsr hquiet hopcode]
    dsimp only [called]
    rw [hreadlo, hreadhi, word_bytes]
  · have hlo : p.registers.sp - 3 + 2 = p.registers.sp - 1 := by grind
    have hhi : p.registers.sp - 3 + 3 = p.registers.sp := by grind
    obtain ⟨-, hreadlo, hreadhi⟩ := p.ram.read_pushFrame p.registers.sp (p.registers.pc + 2)
      { p.registers.flags with unused := true, brk := true }.toByte
    rw [hlo] at hreadlo
    rw [hhi] at hreadhi
    rw [cycled_brk hquiet hopcode]
    dsimp only [broken]
    rw [hreadlo, hreadhi, word_bytes]

/-- Program flow agrees with the opcode table.  With nothing pending and a documented opcode at the program
    counter, a cycle on a flat memory succeeds and leaves the program counter at the successor of the
    instruction: behind its length, unless it is a branch that is taken, a jump, a call, a return or a
    break.  A call saves the address of its own last byte, and a break the address behind the byte that
    follows it; both are the address of the instruction plus two. -/
theorem flows_by_table (p : Processor Flat) (j : Journal) (hquiet : p.world.panel.requests = {})
    (hdocumented : ¬Instruction.Undocumented (p.ram.read p.registers.pc)) :
    (∃ cycles, (p.cycle.run j).1.1 = .ok cycles) ∧
    (p.cycle.run j).1.2.registers.pc = p.current.successor p.registers p.ram ∧
    (p.current.mnemonic ∈ [.jsr, .brk] →
      p.savedAddress (p.cycle.run j).1.2.ram = p.registers.pc + 2) := by
  rw [p.fst_cycle j]
  obtain ⟨houtcome, hpc⟩ := cycled_lands hquiet hdocumented
  exact ⟨⟨_, houtcome⟩, hpc, savedAddress_cycled hquiet hdocumented⟩

/-- A call on the stack page, whose return address is pushed over its own operand. -/
def undermined : Processor Flat where
  registers := { pc := 0x01FC, sp := 0xFE }
  world := { memory := ({} : Flat).storeAt 0x01FC [0x20, 0xCD, 0xAB] }

/-- A branch backwards from the top of the address space, with its operand at the bottom. -/
def straddling : Processor Flat where
  registers := { pc := 0xFFFF, flags := { zero := true } }
  world := { memory := (({} : Flat).write 0xFFFF 0xF0).write 0 0x80 }

/-- The call lands at its operand though it overwrites it, since it has read it before; and the branch
    wraps. -/
theorem flows_by_table_undermined :
    undermined.world.panel.requests = {} ∧
      ¬Instruction.Undocumented (undermined.ram.read undermined.registers.pc) ∧
      (undermined.cycle.run {}).1.2.registers.pc = 0xABCD ∧
      undermined.savedAddress (undermined.cycle.run {}).1.2.ram = 0x01FE ∧
      (straddling.cycle.run {}).1.2.registers.pc = 0xFF81 := by
  have hcall : ¬Instruction.Undocumented (undermined.ram.read undermined.registers.pc) := by
    decide +kernel
  have hbranch : ¬Instruction.Undocumented (straddling.ram.read straddling.registers.pc) := by
    decide +kernel
  obtain ⟨-, hpc, hsaved⟩ := flows_by_table undermined {} rfl hcall
  obtain ⟨-, hback, -⟩ := flows_by_table straddling {} rfl hbranch
  refine ⟨rfl, hcall, ?_, hsaved (by decide +kernel), ?_⟩
  · rw [hpc]
    decide +kernel
  · rw [hback]
    decide +kernel

end Processor

end Breadboard
