import Breadboard.Proofs.Flow
/-
  What an instruction leaves in the registers and in the memory, in full.

  `Instruction.registersAfter` and `Instruction.memoryAfter` give the state behind an instruction as plain
  functions of the state before it: the operand is looked up once, in the memory as it was, and the rest is
  arithmetic.  Of the registers they leave open only the program counter, which `Flow` has settled, and the
  address latch.

  `Micro.Runs` is the evaluation of a microprogram on a flat memory, result, registers and memory.  A
  routine is straight-line code once its operand has been found, so there is an exact lemma for each of them
  (`Leaves`), and `leaves_execute` puts them together.  With what a cycle costs and where it goes, which is
  known already, `cycled_executes` says everything about a cycle that executes an instruction; whoever wants
  to know something particular of an instruction can compute it from there.
-/
namespace Breadboard

variable {α β : Type}

/-! ## Operands -/

namespace Operand

variable (r : Registers) (m : Flat)

/-- The byte that is there, in the accumulator or in the memory. -/
def byte : Operand → UInt8
  | .accumulator => r.a
  | .cell address => m.read address

/-- The registers when a byte has been put there; a cell is not among them. -/
def intoRegisters (v : UInt8) : Operand → Registers
  | .accumulator => { r with a := v }
  | .cell _ => r

/-- The memory when a byte has been put there, which is the same memory if the place is the accumulator. -/
def intoMemory (v : UInt8) : Operand → Flat
  | .accumulator => m
  | .cell address => m.write address v

end Operand

section

variable (r : Registers) (m : Flat)

/-- Where the operand is.  An instruction in implied mode has none and does not ask, so that any answer will
    do for it. -/
def Mode.operand (mode : Mode) : Operand :=
  match mode with
  | .implied | .accumulator => .accumulator
  | .immediate => .cell (r.pc + 1)
  | mode => .cell ((mode.cell? r m).getD 0)

/-- Unless the operand is the accumulator, putting a byte there leaves the registers alone. -/
theorem Mode.intoRegisters_operand {mode : Mode} {r : Registers} {m : Flat}
    (himplied : mode ≠ .implied) (haccumulator : mode ≠ .accumulator) (v : UInt8) :
    (mode.operand r m).intoRegisters r v = r := by
  cases mode with
  | implied => exact absurd rfl himplied
  | accumulator => exact absurd rfl haccumulator
  | _ => rfl

/-- The byte that an instruction works on: the accumulator, the byte behind the opcode, or the byte at the
    effective address. -/
def Mode.argument (mode : Mode) : UInt8 :=
  (mode.operand r m).byte r m

/-- What is on top of the stack, that is, what a pull would bring. -/
def topOfStack : UInt8 :=
  m.read (stackCell (r.sp + 1))

end

/-! ## The state behind an instruction

The registers `r` are those before the opcode is read. -/

/-- The bitwise combination that a mnemonic stands for. -/
def Mnemonic.combination? : Mnemonic → Option (UInt8 → UInt8 → UInt8)
  | .and => some (· &&& ·)
  | .ora => some (· ||| ·)
  | .eor => some (· ^^^ ·)
  | _ => none

namespace Instruction

variable (i : Instruction) (r : Registers) (m : Flat)

/-- What a shift makes of its operand, and the carry it leaves behind. -/
def shiftResult : UInt8 × Bool :=
  (shifted? (i.mode.argument r m) r.flags.carry i.mnemonic).getD (i.mode.argument r m, false)

/-- What INC or DEC makes of its operand, wrapping around at either end. -/
def stepResult : UInt8 :=
  i.mode.argument r m + (memoryStep? i.mnemonic).getD 0

/-- The registers afterwards, but for the program counter and the address latch.  One line for each routine
    says what becomes of them. -/
def registersAfter : Registers :=
  let operand := i.mode.operand r m
  let v := i.mode.argument r m
  match i.mnemonic.handler with
  | .adc => r.add v
  | .sbc => r.subtract v
  | .logic => r.setA ((i.mnemonic.combination?.map fun combine => combine r.a v).getD r.a)
  | .bit => r.testBits v
  | .compare => r.compare ((comparedRegister? r i.mnemonic).getD 0) v
  | .load => (loaded? v r i.mnemonic).getD r
  | .shift =>
    let (result, carry) := i.shiftResult r m
    { operand.intoRegisters r result with flags := { r.flags with carry }.setZN result }
  | .stepMemory =>
    let result := i.stepResult r m
    { operand.intoRegisters r result with flags := r.flags.setZN result }
  | .stepIndex => (indexStepped? r i.mnemonic).getD r
  | .transfer => (transferred? r i.mnemonic).getD r
  | .flag => { r with flags := (flagged? r.flags i.mnemonic).getD r.flags }
  | .brk => { r with sp := r.sp - 3, flags := { r.flags with interruptDisable := true } }
  | .jsr => { r with sp := r.sp - 2 }
  | .rts => { r with sp := r.sp + 2 }
  | .rti => { r with sp := r.sp + 3, flags := r.flags.load (topOfStack r m) true }
  | .pha | .php => { r with sp := r.sp - 1 }
  | .pla => { r with sp := r.sp + 1 }.setA (topOfStack r m)
  | .plp => { r with sp := r.sp + 1, flags := r.flags.load (topOfStack r m) true }
  -- stores and jumps are seen in the memory and in the program counter
  | .store | .branch | .jmp | .nop | .unimplemented => r

/-- The memory afterwards.  Three routines write to where their operand is and four write to the stack; the
    others write nothing. -/
def memoryAfter : Flat :=
  let operand := i.mode.operand r m
  match i.mnemonic.handler with
  | .store => operand.intoMemory m ((storedRegister? r i.mnemonic).getD 0)
  | .shift => operand.intoMemory m (i.shiftResult r m).1
  | .stepMemory => operand.intoMemory m (i.stepResult r m)
  | .jsr => m.pushWord r.sp (r.pc + 2)
  | .brk => m.pushFrame r.sp (r.pc + 2) { r.flags with unused := true, brk := true }.toByte
  | .pha => m.write (stackCell r.sp) r.a
  | .php => m.write (stackCell r.sp) (r.flags.toByte ||| 0x30)
  | _ => m

end Instruction

/-- The registers at another place of the program. -/
def Registers.placed (r : Registers) (pc addressLatch : UInt16) : Registers :=
  { r with pc, addressLatch }

/-! ## Running a microprogram -/

namespace Micro

/-- On this memory and with these registers it ends without a fault, and the result, the registers and the
    memory are exactly these. -/
def Runs (s : Micro α) (m : Flat) (r : Registers) (a : α) (r' : Registers) (m' : Flat) : Prop :=
  (s r).result m = (.ok a, r') ∧ ((s r).accesses m).foldl Flat.replay m = m'

variable {m m' m'' : Flat} {r r' r'' : Registers}

/-- Runs can be put together, the second one starting from where the first one ended.  This is how
    straight-line code is evaluated here, one step after the other. -/
theorem Runs.bind {s : Micro α} {f : α → Micro β} {a : α} {b : β} (h : s.Runs m r a r' m')
    (hnext : (f a).Runs m' r' b r'' m'') : (s >>= f).Runs m r b r'' m'' := by
  obtain ⟨hresult, hmemory⟩ := h
  obtain ⟨hresult', hmemory'⟩ := hnext
  constructor
  · refine (Traffic.result_bind (s r) _ m).trans ?_
    rw [hresult, hmemory]
    exact hresult'
  · refine (congrArg (List.foldl _ m) (Traffic.accesses_bind (s r) _ m)).trans ?_
    rw [List.foldl_append, hresult, hmemory]
    exact hmemory'

/-- The steps that a routine is made of: to answer, to set the registers, and to change them. -/
theorem runs_pure (a : α) : (pure a : Micro α).Runs m r a r m :=
  ⟨rfl, rfl⟩

theorem runs_set (r' : Registers) : (set r' : Micro Unit).Runs m r () r' m :=
  ⟨rfl, rfl⟩

theorem runs_modify (f : Registers → Registers) : (modify f : Micro Unit).Runs m r () (f r) m :=
  ⟨rfl, rfl⟩

/-- What follows a look at the registers is still on the same memory. -/
theorem runs_of_get {f : Registers → Micro β} {b : β} (h : (f r).Runs m r b r' m') :
    (get >>= f).Runs m r b r' m' :=
  h

end Micro

open Micro

namespace Operand

variable {m : Flat} (r : Registers) (pc addressLatch : UInt16) (operand : Operand)

/-- Fetching an operand brings its byte and changes nothing but the address latch. -/
theorem runs_fetch : ∃ latch, operand.fetch.Runs m (r.placed pc addressLatch) (operand.byte r m)
    (r.placed pc latch) m := by
  cases operand with
  | accumulator => exact ⟨addressLatch, rfl, rfl⟩
  | cell address => exact ⟨address, rfl, rfl⟩

/-- Storing to an operand changes the registers or the memory, as its place has it, and the address latch
    besides. -/
theorem runs_store (v : UInt8) : ∃ latch, (operand.store v).Runs m (r.placed pc addressLatch) ()
    ((operand.intoRegisters r v).placed pc latch) (operand.intoMemory m v) := by
  cases operand with
  | accumulator => exact ⟨addressLatch, rfl, rfl⟩
  | cell address => exact ⟨address, rfl, rfl⟩

end Operand

/-! ## The routines -/

namespace Instruction

variable {i : Instruction} {m : Flat} {r : Registers}

/-- With the opcode read, the routine ends with these registers, wherever it has got to in the program, and
    with this memory. -/
def Leaves (s : Micro Nat) (r : Registers) (m : Flat) (after : Registers) (m' : Flat) : Prop :=
  ∃ extra pc addressLatch, s.Runs m r.opened extra (after.placed pc addressLatch) m'

/-- A routine may look at the registers before it does anything. -/
theorem leaves_of_get {f : Registers → Micro Nat} {after : Registers} {m' : Flat}
    (h : Leaves (f r.opened) r m after m') : Leaves (get >>= f) r m after m' :=
  h

/-- Finding an operand changes nothing but the program counter and the address latch. -/
theorem runs_locate (h : i.mode ≠ .implied) : ∃ extra pc addressLatch,
    i.locate.Runs m r.opened (i.mode.operand r m, extra) (r.placed pc addressLatch) m := by
  unfold locate
  cases hmode : i.mode with
  | implied => exact absurd hmode h
  | relative =>
    have htwo : r.pc + 1 + 1 = r.pc + 2 := UInt16.add_assoc _ _ _
    -- a branch counts from behind its operand, which takes one step of arithmetic to see
    refine ⟨0, r.pc + 1 + 1, r.pc + 1, ?_, rfl⟩
    simp only [Mode.operand, Mode.cell?, ← htwo]
    rfl
  | accumulator | immediate | absolute | indirect | absoluteX | absoluteY | indexedIndirect
  | indirectIndexed | zeroPage | zeroPageX | zeroPageY => exact ⟨_, _, _, rfl, rfl⟩

/-- Hence the operand byte is the one at the operand, as the registers and the memory were before. -/
theorem runs_operandByte (h : i.mode ≠ .implied) : ∃ extra pc addressLatch,
    i.operandByte.Runs m r.opened (i.mode.argument r m, extra) (r.placed pc addressLatch) m := by
  obtain ⟨extra, pc, latch, hlocate⟩ := runs_locate (m := m) (r := r) h
  obtain ⟨latch', hfetch⟩ := (i.mode.operand r m).runs_fetch (m := m) r pc latch
  exact ⟨extra, pc, latch', hlocate.bind (hfetch.bind (runs_pure _))⟩

/-- A routine that takes the operand byte into the registers, and asks for nothing else, leaves what it
    makes of the two.  It must not look at where the program is. -/
theorem leaves_modify (h : i.mode ≠ .implied) {f : UInt8 → Registers → Registers}
    (hf : ∀ v r pc latch, f v (r.placed pc latch) = (f v r).placed pc latch) :
    Leaves (do
      let (v, extra) ← i.operandByte
      modify (f v)
      return extra) r m (f (i.mode.argument r m) r) m := by
  obtain ⟨extra, pc, latch, hbyte⟩ := runs_operandByte (m := m) (r := r) h
  refine ⟨extra, pc, latch, hbyte.bind ((runs_modify _).bind ?_)⟩
  rw [hf]
  exact runs_pure _

/-- Addition leaves the sum.  What the sum is has been defined elsewhere; here it matters that the right
    byte goes into it. -/
theorem leaves_adc (h : i.mode ≠ .implied) : Leaves i.adc r m (r.add (i.mode.argument r m)) m :=
  leaves_modify h (f := fun v r => r.add v) fun _ _ _ _ => rfl

/-- Subtraction and the test of bits below are of the same kind. -/
theorem leaves_sbc (h : i.mode ≠ .implied) :
    Leaves i.sbc r m (r.subtract (i.mode.argument r m)) m :=
  leaves_modify h (f := fun v r => r.subtract v) fun _ _ _ _ => rfl

theorem leaves_bit (h : i.mode ≠ .implied) :
    Leaves i.bit r m (r.testBits (i.mode.argument r m)) m :=
  leaves_modify h (f := fun v r => r.testBits v) fun _ _ _ _ => rfl

/-- A logical operation leaves its combination in the accumulator, by cases on the three mnemonics. -/
theorem leaves_logic (hserves : i.mnemonic.handler = .logic) (h : i.mode ≠ .implied) :
    Leaves i.logic r m (r.setA
      ((i.mnemonic.combination?.map fun combine => combine r.a (i.mode.argument r m)).getD r.a)) m := by
  obtain ⟨extra, pc, latch, hbyte⟩ := runs_operandByte (m := m) (r := r) h
  refine ⟨extra, pc, latch, hbyte.bind ?_⟩
  dsimp only
  revert hserves
  cases i.mnemonic
  case and | ora | eor => exact fun _ => ⟨rfl, rfl⟩
  all_goals exact fun h => nomatch h

/-- A comparison changes the flags, by the register that belongs to its mnemonic. -/
theorem leaves_compare (hserves : i.mnemonic.handler = .compare)
    (h : i.mode ∉ [.implied, .accumulator, .relative, .indirect]) :
    Leaves i.compare r m
      (r.compare ((comparedRegister? r i.mnemonic).getD 0) (i.mode.argument r m)) m := by
  have hmode : i.mode ≠ .implied := List.ne_of_not_mem_cons h
  -- the register is looked at after the opcode has been read, which has not changed it
  have hlook : comparedRegister? r.opened i.mnemonic = comparedRegister? r i.mnemonic := by
    cases i.mnemonic <;> rfl
  unfold compare
  refine leaves_of_get ?_
  rw [hlook]
  cases hvalue : comparedRegister? r i.mnemonic with
  | none => exact absurd hvalue (comparedRegister?_isSome r hserves)
  | some value =>
    have hleaves : Leaves (do
        let (v, extra) ← i.operandByte
        modify fun r => r.compare value v
        return extra) r m (r.compare value (i.mode.argument r m)) m :=
      leaves_modify hmode (f := fun v r => r.compare value v) fun _ _ _ _ => rfl
    dsimp only
    split
    case h_4 => exact hleaves
    all_goals
      rename_i hmode
      rw [hmode] at h
      exact absurd h (by decide)

/-- A load leaves the byte in its register, with the flags set by it. -/
theorem leaves_load (hserves : i.mnemonic.handler = .load) (h : i.mode ≠ .implied) :
    Leaves i.load r m ((loaded? (i.mode.argument r m) r i.mnemonic).getD r) m := by
  have hplaced : ∀ v r pc latch, (loaded? v (Registers.placed r pc latch) i.mnemonic).getD
      (r.placed pc latch) = ((loaded? v r i.mnemonic).getD r).placed pc latch := by
    intro v r pc latch
    cases i.mnemonic <;> rfl
  have hleaves := leaves_modify (m := m) (r := r) h
    (f := fun v r => (loaded? v r i.mnemonic).getD r) hplaced
  unfold load
  split
  case h_4 hlda hldx hldy =>
    revert hserves hlda hldx hldy
    cases i.mnemonic <;> simp [Mnemonic.handler]
  all_goals exact hleaves

/-- A store leaves the register in the memory and the registers as they were. -/
theorem leaves_store (hserves : i.mnemonic.handler = .store)
    (h : i.mode ∉ [.implied, .immediate, .accumulator, .relative]) :
    Leaves i.store r m r
      ((i.mode.operand r m).intoMemory m ((storedRegister? r i.mnemonic).getD 0)) := by
  have hmode : i.mode ≠ .implied := List.ne_of_not_mem_cons h
  have haccumulator : i.mode ≠ .accumulator := fun hmode => h (by simp [hmode])
  have hlook : storedRegister? r.opened i.mnemonic = storedRegister? r i.mnemonic := by
    cases i.mnemonic <;> rfl
  obtain ⟨extra, pc, latch, hlocate⟩ := runs_locate (m := m) (r := r) hmode
  unfold store
  refine leaves_of_get ?_
  rw [hlook]
  cases hvalue : storedRegister? r i.mnemonic with
  | none => exact absurd hvalue (storedRegister?_isSome r hserves)
  | some value =>
    obtain ⟨latch', hstore⟩ := (i.mode.operand r m).runs_store (m := m) r pc latch value
    dsimp only
    split
    case h_4 =>
      rw [Mode.intoRegisters_operand hmode haccumulator] at hstore
      exact ⟨extra, pc, latch', hlocate.bind (hstore.bind (runs_pure extra))⟩
    all_goals
      rename_i hmode
      rw [hmode] at h
      exact absurd h (by decide)

/-- A byte is fetched, and what follows is told where it was.  This is the beginning of every routine that
    writes back what it has read. -/
theorem leaves_fetched (h : i.mode ≠ .implied) {next : Operand × Nat → UInt8 → Micro Nat}
    {after : Registers} {m' : Flat}
    (hnext : ∀ extra pc latch, ∃ latch', (next (i.mode.operand r m, extra) (i.mode.argument r m)).Runs m
      (r.placed pc latch) extra (after.placed pc latch') m') :
    Leaves (do
      let x ← i.locate
      let v ← x.1.fetch
      next x v) r m after m' := by
  obtain ⟨extra, pc, latch, hlocate⟩ := runs_locate (m := m) (r := r) h
  obtain ⟨latch', hfetch⟩ := (i.mode.operand r m).runs_fetch (m := m) r pc latch
  obtain ⟨latch'', hrest⟩ := hnext extra pc latch'
  exact ⟨extra, pc, latch'', hlocate.bind (hfetch.bind hrest)⟩

/-- A byte is put somewhere and the flags are told, which is how these routines end. -/
theorem runs_put (operand : Operand) (v : UInt8) {f : Flags → Flags} (extra : Nat)
    (pc latch : UInt16) : ∃ latch',
    (do operand.store v; modify fun r => { r with flags := f r.flags }; return extra : Micro Nat).Runs m
      (r.placed pc latch) extra
      ({ operand.intoRegisters r v with flags := f r.flags }.placed pc latch') (operand.intoMemory m v) := by
  obtain ⟨latch', hstore⟩ := operand.runs_store (m := m) r pc latch v
  refine ⟨latch', hstore.bind ((runs_modify _).bind ?_)⟩
  cases operand <;> exact runs_pure extra

/-- Shifts and rotations leave the shifted byte where the operand was, and the bit that fell out in the
    carry. -/
theorem leaves_shift (hserves : i.mnemonic.handler = .shift) (h : i.mode ≠ .implied) :
    Leaves i.shift r m
      { (i.mode.operand r m).intoRegisters r (i.shiftResult r m).1 with
        flags := { r.flags with carry := (i.shiftResult r m).2 }.setZN (i.shiftResult r m).1 }
      ((i.mode.operand r m).intoMemory m (i.shiftResult r m).1) := by
  -- what is put back goes to the address latch; `shift_eq` has it stored where the operand is
  rw [shift_eq]
  split
  case h_5 hasl hrol hlsr hror =>
    revert hserves hasl hrol hlsr hror
    cases i.mnemonic <;> simp [Mnemonic.handler]
  all_goals
    refine leaves_fetched h fun extra pc latch => ?_
    -- the routine looks the carry up only now, but finding the operand has not changed it
    have hlook : (shifted? (i.mode.argument r m) (r.placed pc latch).flags.carry i.mnemonic).getD
        (i.mode.argument r m, false) = i.shiftResult r m := rfl
    obtain ⟨latch', hput⟩ := runs_put (m := m) (r := r) (i.mode.operand r m) (i.shiftResult r m).1
      (f := fun flags => { flags with carry := (i.shiftResult r m).2 }.setZN (i.shiftResult r m).1)
      extra pc latch
    refine ⟨latch', runs_of_get ?_⟩
    rw [hlook]
    exact hput

/-- INC and DEC leave the next byte where the operand was. -/
theorem leaves_stepMemory (hserves : i.mnemonic.handler = .stepMemory) (h : i.mode ≠ .implied) :
    Leaves i.stepMemory r m
      { (i.mode.operand r m).intoRegisters r (i.stepResult r m) with
        flags := r.flags.setZN (i.stepResult r m) }
      ((i.mode.operand r m).intoMemory m (i.stepResult r m)) := by
  rw [stepMemory_eq]
  unfold stepResult
  cases hstep : memoryStep? i.mnemonic with
  | none => exact absurd hstep (memoryStep?_isSome hserves)
  | some step =>
    refine leaves_fetched h fun extra pc latch => ?_
    exact runs_put (m := m) (r := r) (i.mode.operand r m) (i.mode.argument r m + step)
      (f := fun flags => flags.setZN (i.mode.argument r m + step)) extra pc latch

/-! The routines that work on registers alone -/

/-- Counting in an index register leaves the next byte there, by cases on the four mnemonics. -/
theorem leaves_stepIndex (hserves : i.mnemonic.handler = .stepIndex) :
    Leaves i.stepIndex r m ((indexStepped? r i.mnemonic).getD r) m := by
  unfold stepIndex
  refine leaves_of_get ?_
  revert hserves
  cases i.mnemonic
  case inx | iny | dex | dey => exact fun _ => ⟨_, _, _, rfl, rfl⟩
  all_goals exact fun h => nomatch h

theorem leaves_transfer (hserves : i.mnemonic.handler = .transfer) :
    Leaves i.transfer r m ((transferred? r i.mnemonic).getD r) m := by
  unfold transfer
  refine leaves_of_get ?_
  revert hserves
  cases i.mnemonic
  case tax | tay | tsx | txa | txs | tya => exact fun _ => ⟨_, _, _, rfl, rfl⟩
  all_goals exact fun h => nomatch h

theorem leaves_flag (hserves : i.mnemonic.handler = .flag) :
    Leaves i.flag r m { r with flags := (flagged? r.flags i.mnemonic).getD r.flags } m := by
  unfold flag
  refine leaves_of_get ?_
  revert hserves
  cases i.mnemonic
  case clc | cld | cli | clv | sec | sed | sei => exact fun _ => ⟨_, _, _, rfl, rfl⟩
  all_goals exact fun h => nomatch h

theorem leaves_nop : Leaves (pure 0) r m r m :=
  ⟨0, _, _, rfl, rfl⟩

/-! The routines that go elsewhere -/

/-- A branch leaves the registers and the memory alone, whether it is taken or not. -/
theorem leaves_branch (hserves : i.mnemonic.handler = .branch) (hmode : i.mode = .relative) :
    Leaves i.branch r m r m := by
  have himplied : i.mode ≠ .implied := by rw [hmode]; decide
  obtain ⟨extra, pc, latch, hlocate⟩ := runs_locate (m := m) (r := r) himplied
  unfold branch
  refine leaves_of_get ?_
  rw [Mnemonic.taken?_eq hserves]
  rw [hmode] at hlocate
  dsimp only
  cases i.mnemonic.branches r.opened.flags with
  | false => exact ⟨extra, pc, latch, hlocate.bind (runs_pure extra)⟩
  | true => exact ⟨_, _, latch, hlocate.bind (runs_of_get ((runs_set _).bind (runs_pure _)))⟩

theorem leaves_jmp (h : i.mode ∈ [.absolute, .indirect]) : Leaves i.jmp r m r m := by
  have himplied : i.mode ≠ .implied := fun hmode => by simp [hmode] at h
  obtain ⟨extra, pc, latch, hlocate⟩ := runs_locate (m := m) (r := r) himplied
  unfold jmp
  simp only [List.mem_cons, List.not_mem_nil, or_false] at h
  rcases h with hmode | hmode
  all_goals
    rw [hmode] at hlocate ⊢
    exact ⟨extra, _, latch, hlocate.bind ((runs_modify _).bind (runs_pure extra))⟩

/-- A call leaves the address of its own last byte on the stack. -/
theorem leaves_jsr (hmode : i.mode = .absolute) :
    Leaves i.jsr r m { r with sp := r.sp - 2 } (m.pushWord r.sp (r.pc + 2)) := by
  have hsp : r.sp - 1 - 1 = r.sp - 2 := by grind
  have hsaved : r.pc + 1 + 1 + 1 - 1 = r.pc + 2 := by grind
  unfold jsr
  rw [hmode, ← hsp, ← hsaved]
  exact ⟨_, _, _, rfl, rfl⟩

/-- The four instructions that push or pull one byte, each by evaluation. -/
theorem leaves_pha : Leaves (do Micro.pha; return 0) r m { r with sp := r.sp - 1 }
    (m.write (stackCell r.sp) r.a) :=
  ⟨_, _, _, rfl, rfl⟩

theorem leaves_php : Leaves (do Micro.php; return 0) r m { r with sp := r.sp - 1 }
    (m.write (stackCell r.sp) (r.flags.toByte ||| 0x30)) :=
  ⟨_, _, _, rfl, rfl⟩

theorem leaves_pla : Leaves (do Micro.pla; return 0) r m
    ({ r with sp := r.sp + 1 }.setA (topOfStack r m)) m :=
  ⟨_, _, _, rfl, rfl⟩

theorem leaves_plp : Leaves (do Micro.plp; return 0) r m
    { r with sp := r.sp + 1, flags := r.flags.load (topOfStack r m) true } m :=
  ⟨_, _, _, rfl, rfl⟩

/-- A return from a subroutine leaves the stack pointer two higher, and nothing else that is not left open. -/
theorem leaves_rts : Leaves (do Micro.rts; return 0) r m { r with sp := r.sp + 2 } m := by
  have hsp : r.sp + 1 + 1 = r.sp + 2 := by grind
  rw [← hsp]
  exact ⟨_, _, _, rfl, rfl⟩

/-- A return from an interrupt leaves it three higher, and the flags as the status on the stack has them. -/
theorem leaves_rti : Leaves (do Micro.rti; return 0) r m
    { r with sp := r.sp + 3, flags := r.flags.load (topOfStack r m) true } m := by
  have hsp : r.sp + 1 + 1 + 1 = r.sp + 3 := by grind
  rw [← hsp]
  exact ⟨_, _, _, rfl, rfl⟩

/-- BRK leaves a frame on the stack, and interrupts disabled.  It steps over the byte that follows it before
    it saves anything. -/
theorem leaves_enter : Leaves (do Micro.enter none; return 0) r m
    { r with sp := r.sp - 3, flags := { r.flags with interruptDisable := true } }
    (m.pushFrame r.sp (r.pc + 2) { r.flags with unused := true, brk := true }.toByte) := by
  have hsp : r.sp - 1 - 1 - 1 = r.sp - 3 := by grind
  have hcell : r.sp - 1 - 1 = r.sp - 2 := by grind
  have hsaved : r.pc + 1 + 1 = r.pc + 2 := by grind
  unfold Flat.pushFrame
  rw [← hsp, ← hcell, ← hsaved]
  exact ⟨_, _, _, rfl, rfl⟩

/-! ## A whole instruction -/

/-- A documented instruction leaves the registers and the memory as it should.  Mnemonic, mode and routine
    agree in the table, so there is one case for each routine. -/
theorem leaves_execute (hi : i ∈ documented) (start : UInt16) :
    Leaves (i.execute none start) r m (i.registersAfter r m) (i.memoryAfter r m) := by
  obtain ⟨hserves, htakes⟩ := fits_documented i hi
  have hrelative := branch_documented i hi
  unfold execute registersAfter memoryAfter
  rw [hserves]
  generalize i.handler = handler at hserves htakes hrelative
  cases handler with
  | adc => exact leaves_adc htakes
  | sbc => exact leaves_sbc htakes
  | logic => exact leaves_logic hserves htakes
  | bit => exact leaves_bit htakes
  | compare => exact leaves_compare hserves htakes
  | load => exact leaves_load hserves htakes
  | store => exact leaves_store hserves htakes
  | shift => exact leaves_shift hserves htakes
  | stepMemory => exact leaves_stepMemory hserves htakes
  | stepIndex => exact leaves_stepIndex hserves
  | transfer => exact leaves_transfer hserves
  | flag => exact leaves_flag hserves
  | branch => exact leaves_branch hserves (hrelative rfl).1
  | jmp => exact leaves_jmp htakes
  | jsr => exact leaves_jsr (List.mem_singleton.mp htakes)
  | brk => exact leaves_enter
  | rti => exact leaves_rti
  | rts => exact leaves_rts
  | pha => exact leaves_pha
  | php => exact leaves_php
  | pla => exact leaves_pla
  | plp => exact leaves_plp
  | nop => exact leaves_nop
  | unimplemented => exact absurd htakes id

end Instruction

/-! ## A cycle -/

/-- What is left of a traffic on a flat memory is the memory with its writes replayed, and the panel as it
    was. -/
theorem Traffic.snd_play (t : Traffic α) (w : World Flat) :
    (t.play w).2 = { w with memory := (t.accesses w.memory).foldl Flat.replay w.memory } := by
  induction t generalizing w with
  | done result => rfl
  | read address next ih => exact ih _ w
  | write address value next ih => exact ih _

/-- The counter is not an instruction's to advance; the charge for it comes afterwards. -/
theorem Instruction.cycles_registersAfter (i : Instruction) (r : Registers) (m : Flat) :
    (i.registersAfter r m).cycles = r.cycles := by
  unfold registersAfter
  cases i.mnemonic.handler with
  | shift | stepMemory => cases hoperand : i.mode.operand r m <;> rfl
  | load | stepIndex | transfer => cases i.mnemonic <;> rfl
  | _ => rfl

namespace Processor

/-- The cycle has executed the instruction at the program counter, as it should and at this price. -/
structure Executes (cycles : Nat) (p q : Processor Flat) : Prop where
  registers : q.registers = { p.current.registersAfter p.registers p.ram with
    pc := p.current.successor p.registers p.ram
    addressLatch := q.registers.addressLatch
    cycles := p.registers.cycles + UInt64.ofNat cycles }
  memory : q.ram = p.current.memoryAfter p.registers p.ram
  panel : q.world.panel = p.world.panel.charge cycles

variable {p : Processor Flat}

/-- With nothing pending and a documented opcode at the program counter, a cycle succeeds at the price of
    the instruction and executes it: registers, memory and panel are then known in full. -/
theorem cycled_executes (hquiet : p.world.panel.requests = {})
    (hdocumented : ¬Instruction.Undocumented (p.ram.read p.registers.pc)) :
    p.cycled.1 = .ok (p.current.cycles + p.current.surcharge p.registers p.ram) ∧
      Executes (p.current.cycles + p.current.surcharge p.registers p.ram) p p.cycled.2 := by
  have hmem : p.current ∈ Instruction.documented := Instruction.decode_mem hdocumented
  obtain ⟨houtcome, hpc⟩ := cycled_lands hquiet hdocumented
  obtain ⟨extra, pc, latch, hresult, hmemory⟩ :=
    p.current.leaves_execute (m := p.ram) (r := p.registers) hmem p.registers.pc
  have hplay : (p.current.execute none p.registers.pc p.registers.opened).play p.world =
      ((.ok extra, (p.current.registersAfter p.registers p.ram).placed pc latch),
        { p.world with memory := p.current.memoryAfter p.registers p.ram }) := by
    refine Prod.ext ?_ ?_
    · exact (Traffic.fst_play _ p.world).trans hresult
    · rw [Traffic.snd_play, hmemory]
  have hcycled : p.cycled = (.ok (p.current.cycles + extra), Processor.charge {
      registers := (p.current.registersAfter p.registers p.ram).placed pc latch
      world := { p.world with memory := p.current.memoryAfter p.registers p.ram } }
      (p.current.cycles + extra)) := by
    rw [cycled_of_quiet hquiet rfl]
    unfold ran perform
    dsimp only
    rw [show Instruction.decode (p.ram.read p.registers.pc) = p.current from rfl, hplay]
    rfl
  -- what is left open, the cost and the program counter, has been settled before
  rw [hcycled] at houtcome hpc ⊢
  have hcycles : p.current.cycles + extra = p.current.cycles + p.current.surcharge p.registers p.ram :=
    Except.ok.inj houtcome
  obtain rfl : pc = p.current.successor p.registers p.ram := hpc
  refine ⟨houtcome, ⟨?_, rfl, ?_⟩⟩
  · rw [← hcycles, ← p.current.cycles_registersAfter p.registers p.ram]
    rfl
  · rw [← hcycles]
    rfl

end Processor

end Breadboard
