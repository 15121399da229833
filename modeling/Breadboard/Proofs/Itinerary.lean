import Breadboard.Proofs.Faults
import Breadboard.Proofs.Visits
/-
  Where an instruction goes on the bus: every access of every documented instruction, in order.

  `Instruction.itinerary` says it from the mnemonic and the mode alone, without a word about routines.
  First come the opcode and the operand bytes, in ascending order; then the two bytes of a pointer, for
  the three modes that go through one; then what the mnemonic does with the cell that the mode finds; and
  last the stack.  Each part has its own way of wrapping: the program wraps at the end of the address
  space, a pointer in page 0 stays in page 0, and so does the stack in page 1.

  `keepsTo_itinerary` says that a cycle makes these accesses and no others, on every flat memory and in
  every state.  The crux is that the routines share the code that finds their operands (`makes_locate`), and
  that where they go afterwards does not depend on what they have found there.  Shifts and steps in memory
  write to the address latch and not to the operand; that this is the same cell is `Instruction.shift_eq`
  and `Instruction.stepMemory_eq`.
-/
namespace Breadboard

/-! ## The itinerary of an instruction

The registers `r` are those before the opcode is read: `r.pc` is where it is. -/

/-- As many addresses as are asked for, from one address on; after the last address of all comes the first. -/
def consecutive (address : UInt16) : Nat → List UInt16
  | 0 => []
  | n + 1 => address :: consecutive (address + 1) n

/-- The cells that pushes go to.  The stack pointer goes down after each of them, and wraps within its
    page. -/
def pushedTo (sp : UInt8) : Nat → List UInt16
  | 0 => []
  | n + 1 => (0x100 + sp.toUInt16) :: pushedTo (sp - 1) n

/-- The cells that pulls come from.  The stack pointer goes up before each of them, and wraps likewise. -/
def pulledFrom (sp : UInt8) : Nat → List UInt16
  | 0 => []
  | n + 1 => (0x100 + (sp + 1).toUInt16) :: pulledFrom (sp + 1) n

namespace Mode

/-- How many operand bytes follow the opcode in the program. -/
def operandBytes : Mode → Nat
  | .implied | .accumulator => 0
  | .immediate | .zeroPage | .zeroPageX | .zeroPageY | .indexedIndirect | .indirectIndexed
  | .relative => 1
  | .absolute | .absoluteX | .absoluteY | .indirect => 2

section

variable (r : Registers) (m : Flat)

/-- The first operand byte, at the address behind the opcode. -/
def operandByte : UInt8 :=
  m.read (r.pc + 1)

/-- Both operand bytes as an address, the low one first. -/
def operandWord : UInt16 :=
  word (m.read (r.pc + 1)) (m.read (r.pc + 1 + 1))

/-- Where the address of the operand is kept; in page 0 the next byte is in page 0 as well. -/
def pointer : Mode → List UInt16
  | .indexedIndirect =>
    [(operandByte r m + r.x).toUInt16, (operandByte r m + r.x + 1).toUInt16]
  | .indirectIndexed => [(operandByte r m).toUInt16, (operandByte r m + 1).toUInt16]
  | .indirect => [operandWord r m, operandWord r m + 1]
  | _ => []

/-- The address that a pointer leads to, the low byte first; for the modes without a pointer nothing is
    meant by it. -/
def pointee (mode : Mode) : UInt16 :=
  match mode.pointer r m with
  | [lo, hi] => word (m.read lo) (m.read hi)
  | _ => 0

/-- The cell that the instruction works on or goes to, apart from its own operand bytes.  Sums in page 0
    stay in page 0, and others wrap around the whole address space. -/
def cell? : Mode → Option UInt16
  | .implied | .accumulator | .immediate => none
  | .zeroPage => some (operandByte r m).toUInt16
  | .zeroPageX => some (operandByte r m + r.x).toUInt16
  | .zeroPageY => some (operandByte r m + r.y).toUInt16
  | .absolute => some (operandWord r m)
  | .absoluteX => some (operandWord r m + r.x.toUInt16)
  | .absoluteY => some (operandWord r m + r.y.toUInt16)
  | .indirect => some (pointee r m .indirect)
  | .indexedIndirect => some (pointee r m .indexedIndirect)
  | .indirectIndexed => some (pointee r m .indirectIndexed + r.y.toUInt16)
  | .relative => some (r.pc + 2 + (operandByte r m).toInt8.toInt16.toUInt16)

/-- What is read behind the opcode in order to find the cell: the operand bytes, and the pointer if the mode
    has one. -/
def approach (mode : Mode) : List Visit :=
  (consecutive (r.pc + 1) mode.operandBytes ++ mode.pointer r m).map .reads

end

end Mode

/-- What an instruction does with the cell that its mode finds, as far as the bus can tell. -/
inductive Use where
  | reads
  | writes
  /-- One read and then one write. -/
  | updates
  | ignores
deriving DecidableEq, Repr

/-- The visits that this comes to. -/
def Use.visits : Use → UInt16 → List Visit
  | .reads, cell => [.reads cell]
  | .writes, cell => [.writes cell]
  | .updates, cell => [.reads cell, .writes cell]
  | .ignores, _ => []

namespace Mnemonic

/-- What each mnemonic does with its cell.  The ones that go to an address without looking at it are among
    those that ignore it. -/
def use : Mnemonic → Use
  | .lda | .ldx | .ldy | .and | .ora | .eor | .adc | .sbc | .cmp | .cpx | .cpy | .bit => .reads
  | .sta | .stx | .sty => .writes
  | .asl | .lsr | .rol | .ror | .inc | .dec => .updates
  | _ => .ignores

/-- What is read from the stack and written to it; BRK goes through its vector afterwards. -/
def stack (sp : UInt8) : Mnemonic → List Visit
  | .pha | .php => (pushedTo sp 1).map .writes
  | .pla | .plp => (pulledFrom sp 1).map .reads
  | .jsr => (pushedTo sp 2).map .writes
  | .rts => (pulledFrom sp 2).map .reads
  | .rti => (pulledFrom sp 3).map .reads
  | .brk => (pushedTo sp 3).map .writes ++ [.reads 0xFFFE, .reads 0xFFFF]
  | _ => []

/-- The stack pointer afterwards.  Besides what goes to the stack, only TXS changes it. -/
def stackPointer (r : Registers) : Mnemonic → UInt8
  | .pha | .php => r.sp - 1
  | .pla | .plp => r.sp + 1
  | .jsr => r.sp - 2
  | .rts => r.sp + 2
  | .rti => r.sp + 3
  | .brk => r.sp - 3
  | .txs => r.x
  | _ => r.sp

end Mnemonic

namespace Instruction

/-- What comes behind the opcode: finding the cell, using it, and then the stack.  No instruction has all of
    these, but they never come in another order. -/
def errands (i : Instruction) (r : Registers) (m : Flat) : List Visit :=
  i.mode.approach r m ++ (i.mode.cell? r m).elim [] i.mnemonic.use.visits ++
    i.mnemonic.stack r.sp

/-- Every access of an instruction, in order, beginning with its opcode. -/
def itinerary (i : Instruction) (r : Registers) (m : Flat) : List Visit :=
  .reads r.pc :: i.errands r m

/-- The length in the opcode table is the number of bytes that come from the program. -/
theorem length_eq_of_documented :
    ∀ i ∈ documented, i.length = 1 + i.mode.operandBytes := by
  decide +kernel

end Instruction

/-! ## The routines -/

/-- Every mode finds a cell but for three: two without any operand in memory, and the one whose operand is
    in the program. -/
theorem Mode.cell?_ne_none {mode : Mode} {r : Registers} {m : Flat} (himplied : mode ≠ .implied)
    (haccumulator : mode ≠ .accumulator) (himmediate : mode ≠ .immediate) :
    mode.cell? r m ≠ none := by
  revert himplied haccumulator himmediate
  cases mode <;> simp [Mode.cell?]

/-- The registers when the opcode has been read, which is how a routine finds them. -/
def Registers.opened (r : Registers) : Registers :=
  { r with pc := r.pc + 1, addressLatch := r.pc }

/-- Where an operand is in memory, if it is there and not in the accumulator. -/
def Operand.cell? : Operand → Option UInt16
  | .accumulator => none
  | .cell address => some address

namespace Instruction

open Micro

variable {i : Instruction} {m : Flat} {r : Registers}

/-- What the routines can be handed: an operand byte that is itself the operand can only be read, and who
    does not look for an operand is not given one. -/
def Apt (mode : Mode) : Handler → Prop
  | .adc | .sbc | .logic | .bit | .compare | .load => True
  | .store | .shift | .stepMemory | .branch | .jmp | .jsr => mode ≠ .immediate
  | _ => mode = .implied

instance (mode : Mode) (handler : Handler) : Decidable (Apt mode handler) := by
  unfold Apt
  split <;> infer_instance

/-- Every row of the opcode table hands its routine something it can be handed. -/
theorem apt_documented : ∀ i ∈ documented, Apt i.mode i.handler := by decide +kernel

/-- Finding an operand visits its operand bytes and its pointer, and ends at its cell. -/
theorem makes_locate (himplied : i.mode ≠ .implied) (himmediate : i.mode ≠ .immediate) :
    i.locate.Makes m r.opened (i.mode.approach r m)
      fun x r' => x.1.cell? = i.mode.cell? r m ∧ r'.sp = r.sp := by
  unfold locate
  -- every mode is straight-line code, whose visits can be read off
  cases hmode : i.mode with
  | implied => exact absurd hmode himplied
  | immediate => exact absurd hmode himmediate
  | accumulator | absolute | indirect | absoluteX | absoluteY | indexedIndirect | indirectIndexed
  | zeroPage | zeroPageX | zeroPageY => exact ⟨_, _, rfl, rfl, rfl, rfl⟩
  | relative =>
    have htwo : r.pc + 1 + 1 = r.pc + 2 := by rw [UInt16.add_assoc]; rfl
    refine ⟨_, _, rfl, rfl, ?_, rfl⟩
    simp only [Mode.cell?, ← htwo]
    rfl

end Instruction

/-- Fetching an operand reads its cell, or nothing if it is the accumulator. -/
theorem Operand.makes_fetch {m : Flat} {r : Registers} (operand : Operand) :
    operand.fetch.Makes m r (operand.cell?.elim [] Use.reads.visits) fun _ r' => r'.sp = r.sp := by
  cases operand with
  | accumulator => exact ⟨_, _, rfl, rfl, rfl⟩
  | cell address => exact Micro.makes_readByte address

/-- Storing to an operand writes its cell, or nothing if it is the accumulator. -/
theorem Operand.makes_store {m : Flat} {r : Registers} (operand : Operand) (v : UInt8) :
    (operand.store v).Makes m r (operand.cell?.elim [] Use.writes.visits)
      fun _ r' => r'.sp = r.sp := by
  cases operand with
  | accumulator => exact ⟨_, _, rfl, rfl, rfl⟩
  | cell address => exact Micro.makes_writeByte address v

namespace Micro

variable {m : Flat} {r : Registers}

/-- A push writes the cell at the stack pointer, and moves the pointer down. -/
theorem makes_push (v : UInt8) :
    (push v).Makes m r ((pushedTo r.sp 1).map .writes) fun _ r' => r'.sp = r.sp - 1 := by
  refine ⟨_, _, rfl, ?_, rfl⟩
  change [Visit.writes (stackCell r.sp)] = _
  rw [Processor.stackCell_eq]
  rfl

/-- A pull moves the pointer up, and reads the cell that it then points to. -/
theorem makes_pull :
    pull.Makes m r ((pulledFrom r.sp 1).map .reads) fun _ r' => r'.sp = r.sp + 1 := by
  refine ⟨_, _, rfl, ?_, rfl⟩
  change [Visit.reads (stackCell (r.sp + 1))] = _
  rw [Processor.stackCell_eq]
  rfl

/-- A second push goes to the cell below. -/
theorem makes_pushWord (w : UInt16) :
    (pushWord w).Makes m r ((pushedTo r.sp 2).map .writes) fun _ r' => r'.sp = r.sp - 2 := by
  refine (makes_push (highByte w)).bind fun _ r' m' hsp => ?_
  have hsecond := makes_push (m := m') (r := r') (lowByte w)
  rw [hsp] at hsecond
  refine hsecond.imp fun _ r'' hsp' => ?_
  rw [hsp']
  grind

theorem makes_pullWord :
    pullWord.Makes m r ((pulledFrom r.sp 2).map .reads) fun _ r' => r'.sp = r.sp + 2 := by
  refine makes_pull.bind (v := (pulledFrom (r.sp + 1) 1).map .reads) fun lo r' m' hsp => ?_
  -- the second one starts from the pointer that the first one left
  have hsecond := makes_pull (m := m') (r := r')
  rw [hsp] at hsecond
  refine (hsecond.bind fun hi r'' m'' hsp' => makes_pure (P := fun _ r' => r'.sp = r.sp + 2) ?_).of_eq
    (List.append_nil _)
  rw [hsp']
  grind

end Micro

/-- What the mnemonics of one routine do with their cell. -/
def Handler.use : Handler → Use
  | .adc | .sbc | .logic | .bit | .compare | .load => .reads
  | .store => .writes
  | .shift | .stepMemory => .updates
  | _ => .ignores

/-- The routines that can move the stack pointer; a transfer can, without visiting the stack. -/
def Handler.movesStack : Handler → Bool
  | .pha | .php | .pla | .plp | .jsr | .rts | .rti | .brk | .transfer => true
  | _ => false

namespace Mnemonic

variable {mnemonic : Mnemonic}

/-- The mnemonics of one routine use their cell in the same way, so that it is enough to look at the
    routines. -/
theorem use_eq (mnemonic : Mnemonic) : mnemonic.use = mnemonic.handler.use := by
  cases mnemonic <;> rfl

/-- A mnemonic whose routine does not move the stack pointer does not visit the stack. -/
theorem stack_eq_nil (h : mnemonic.handler.movesStack = false) (sp : UInt8) :
    mnemonic.stack sp = [] := by
  revert h
  cases mnemonic <;> simp [handler, Handler.movesStack, stack]

/-- Nor does a transfer, though it may move the stack pointer. -/
theorem stack_of_transfer (h : mnemonic.handler = .transfer) (sp : UInt8) :
    mnemonic.stack sp = [] := by
  revert h
  cases mnemonic <;> simp [handler, stack]

/-- The routines that visit the stack serve one mnemonic each. -/
theorem eq_of_handler {other : Mnemonic} (h : mnemonic.handler = other.handler)
    (hother : other ∈ [pha, php, pla, plp, jsr, rts, rti, brk]) : mnemonic = other := by
  have hall : ∀ one ∈ all, ∀ other ∈ [pha, php, pla, plp, jsr, rts, rti, brk],
      one.handler = other.handler → one = other := by decide
  exact hall mnemonic mnemonic.mem_all other hother h

/-- A mnemonic whose routine does not move the stack pointer leaves it as it was. -/
theorem stackPointer_eq (h : mnemonic.handler.movesStack = false) (r : Registers) :
    mnemonic.stackPointer r = r.sp := by
  revert h
  cases mnemonic <;> simp [handler, Handler.movesStack, stackPointer]

end Mnemonic

namespace Instruction

open Micro

variable {i : Instruction}

/-- The routine finds its operand, uses the cell in this way, and leaves the stack alone. -/
def Uses (i : Instruction) (use : Use) (s : Micro Nat) : Prop :=
  ∀ m r, s.Makes m r.opened (i.mode.approach r m ++ (i.mode.cell? r m).elim [] use.visits)
    fun _ r' => r'.sp = r.sp

/-- An operand byte that is itself the operand is read once, and not again for its value. -/
theorem uses_operandByte (h : i.mode ≠ .implied) (m : Flat) (r : Registers) :
    i.operandByte.Makes m r.opened
      (i.mode.approach r m ++ (i.mode.cell? r m).elim [] Use.reads.visits)
      fun _ r' => r'.sp = r.sp := by
  by_cases himmediate : i.mode = .immediate
  · unfold operandByte locate
    rw [himmediate]
    exact ⟨_, _, rfl, rfl, rfl⟩
  · refine (makes_locate h himmediate).bind fun x r' m' ⟨hcell, hsp⟩ => ?_
    rw [← hcell]
    refine (x.1.makes_fetch.bind fun v r'' m'' hsp' => ?_).of_eq (List.append_nil _)
    exact makes_pure (hsp'.trans hsp)

theorem Uses.of_operandByte (h : i.mode ≠ .implied) {next : UInt8 × Nat → Micro Nat}
    (hnext : ∀ x m r, (next x).Makes m r [] fun _ r' => r'.sp = r.sp) :
    i.Uses .reads (i.operandByte >>= next) := by
  intro m r
  refine ((uses_operandByte h m r).bind fun x r' m' hsp => ?_).of_eq (List.append_nil _)
  exact (hnext x m' r').imp fun _ r'' hsp' => hsp'.trans hsp

/-- One change of the registers that keeps the stack pointer, and a result. -/
theorem makes_modify_pure {f : Registers → Registers} (hf : ∀ r, (f r).sp = r.sp) (extra : Nat)
    (m : Flat) (r : Registers) :
    (do modify f; return extra : Micro Nat).Makes m r [] fun _ r' => r'.sp = r.sp := by
  refine (makes_modify f).after fun _ r' m' hr' => makes_pure ?_
  rw [hr', hf]

/-- A routine that takes the operand byte into the registers. -/
theorem uses_modify (h : i.mode ≠ .implied) {f : UInt8 → Registers → Registers}
    (hf : ∀ v r, (f v r).sp = r.sp) :
    i.Uses .reads (do
      let (v, extra) ← i.operandByte
      modify (f v)
      return extra) :=
  .of_operandByte h fun x => makes_modify_pure (hf x.1) x.2

/-- What the three routines that always take their operand byte do with it stays in the registers. -/
theorem uses_adc (h : i.mode ≠ .implied) : i.Uses .reads i.adc :=
  uses_modify h (f := fun v r => r.add v) fun _ _ => rfl

theorem uses_sbc (h : i.mode ≠ .implied) : i.Uses .reads i.sbc :=
  uses_modify h (f := fun v r => r.subtract v) fun _ _ => rfl

theorem uses_bit (h : i.mode ≠ .implied) : i.Uses .reads i.bit :=
  uses_modify h (f := fun v r => r.testBits v) fun _ _ => rfl

/-- The same for the logical operations, by cases on the mnemonics that the routine serves. -/
theorem uses_logic (hserves : i.mnemonic.handler = .logic) (h : i.mode ≠ .implied) :
    i.Uses .reads i.logic := by
  refine .of_operandByte h ?_
  rintro ⟨v, extra⟩ m r
  have hset : ∀ f : Registers → UInt8,
      (do modify fun r => r.setA (f r); return extra : Micro Nat).Makes m r []
        fun _ r' => r'.sp = r.sp :=
    fun f => makes_modify_pure (f := fun r => r.setA (f r)) (fun _ => rfl) extra m r
  dsimp only
  split
  -- a mnemonic that is none of the three is not served here
  case h_4 hand hora heor =>
    revert hserves hand hora heor
    cases i.mnemonic <;> simp [Mnemonic.handler]
  all_goals exact hset _

/-- Comparing looks at a register first, which is no access, and turns down some modes, none of which the
    routine takes. -/
theorem uses_compare (hserves : i.mnemonic.handler = .compare)
    (h : i.mode ∉ [.implied, .accumulator, .relative, .indirect]) : i.Uses .reads i.compare := by
  intro m r
  unfold compare
  refine makes_of_get ?_
  split
  case h_1 hnone => exact absurd hnone (comparedRegister?_isSome r.opened hserves)
  case h_2 value _ =>
    split
    case h_4 =>
      have hmode : i.mode ≠ .implied := List.ne_of_not_mem_cons h
      exact uses_modify hmode (f := fun v r => r.compare value v) (fun _ _ => rfl) m r
    all_goals
      rename_i hmode
      rw [hmode] at h
      exact absurd h (by decide)

/-- Loading goes to A, X or Y and never to the stack pointer. -/
theorem loaded_sp (v : UInt8) (r : Registers) (mnemonic : Mnemonic) :
    ((loaded? v r mnemonic).getD r).sp = r.sp := by
  cases mnemonic <;> rfl

theorem uses_load (hserves : i.mnemonic.handler = .load) (h : i.mode ≠ .implied) :
    i.Uses .reads i.load := by
  unfold load
  split
  case h_4 hlda hldx hldy =>
    revert hserves hlda hldx hldy
    cases i.mnemonic <;> simp [Mnemonic.handler]
  all_goals
    exact uses_modify h (f := fun v r => (loaded? v r i.mnemonic).getD r)
      fun v r => loaded_sp v r i.mnemonic

/-- Storing finds its cell and writes it, without reading it before. -/
theorem uses_store (hserves : i.mnemonic.handler = .store)
    (h : i.mode ∉ [.implied, .immediate, .accumulator, .relative]) : i.Uses .writes i.store := by
  intro m r
  have himplied : i.mode ≠ .implied := List.ne_of_not_mem_cons h
  have himmediate : i.mode ≠ .immediate := fun hmode => h (by simp [hmode])
  unfold store
  refine makes_of_get ?_
  split
  case h_1 hnone => exact absurd hnone (storedRegister?_isSome r.opened hserves)
  case h_2 value _ =>
    split
    case h_4 =>
      refine (makes_locate himplied himmediate).bind fun x r' m' ⟨hcell, hsp⟩ => ?_
      rw [← hcell]
      refine ((x.1.makes_store value).bind fun _ r'' m'' hsp' => ?_).of_eq (List.append_nil _)
      exact makes_pure (hsp'.trans hsp)
    all_goals
      rename_i hmode
      rw [hmode] at h
      exact absurd h (by decide)

/-- A store and then one change of the registers, which is no access. -/
theorem makes_store_modify (operand : Operand) (v : UInt8) {f : Registers → Registers}
    (hf : ∀ r, (f r).sp = r.sp) (extra : Nat) (m : Flat) (r : Registers) :
    (do operand.store v; modify f; return extra : Micro Nat).Makes m r
      (operand.cell?.elim [] Use.writes.visits) fun _ r' => r'.sp = r.sp := by
  refine ((operand.makes_store v).bind fun _ r' m' hsp => ?_).of_eq (List.append_nil _)
  exact (makes_modify_pure hf extra m' r').imp fun _ r'' hsp' => hsp'.trans hsp

/-- One read and one write of the same operand, whatever is written. -/
theorem makes_update (operand : Operand) {next : UInt8 → Micro Nat}
    (hnext : ∀ v m r, (next v).Makes m r (operand.cell?.elim [] Use.writes.visits)
      fun _ r' => r'.sp = r.sp) (m : Flat) (r : Registers) :
    (operand.fetch >>= next).Makes m r (operand.cell?.elim [] Use.updates.visits)
      fun _ r' => r'.sp = r.sp := by
  have hsplit : operand.cell?.elim [] Use.updates.visits =
      operand.cell?.elim [] Use.reads.visits ++ operand.cell?.elim [] Use.writes.visits := by
    cases operand <;> rfl
  rw [hsplit]
  refine operand.makes_fetch.bind fun v r' m' hsp => ?_
  exact (hnext v m' r').imp fun _ r'' hsp' => hsp'.trans hsp

/-- Shifting reads its cell and writes it back. -/
theorem uses_shift (hserves : i.mnemonic.handler = .shift) (himplied : i.mode ≠ .implied)
    (himmediate : i.mode ≠ .immediate) : i.Uses .updates i.shift := by
  intro m r
  -- the write goes to the address latch, which by `shift_eq` is where the operand has just been read
  rw [shift_eq]
  split
  case h_5 hasl hrol hlsr hror =>
    revert hserves hasl hrol hlsr hror
    cases i.mnemonic <;> simp [Mnemonic.handler]
  all_goals
    refine (makes_locate himplied himmediate).bind ?_
    rintro ⟨operand, extra⟩ r' m' ⟨hcell, hsp⟩
    rw [← hcell]
    refine (makes_update operand (fun v m r => makes_of_get ?_) m' r').imp
      fun _ r'' hsp' => hsp'.trans hsp
    -- what the shift makes of the byte does not matter
    generalize (shifted? v r.flags.carry _).getD (v, false) = shifted
    obtain ⟨result, carry⟩ := shifted
    refine makes_store_modify operand result ?_ extra m r
    exact fun _ => rfl

/-- Counting in memory reads its cell and writes it back, too. -/
theorem uses_stepMemory (hserves : i.mnemonic.handler = .stepMemory) (himplied : i.mode ≠ .implied)
    (himmediate : i.mode ≠ .immediate) : i.Uses .updates i.stepMemory := by
  intro m r
  rw [stepMemory_eq]
  split
  case h_1 hnone => exact absurd hnone (memoryStep?_isSome hserves)
  case h_2 step _ =>
    refine (makes_locate himplied himmediate).bind ?_
    rintro ⟨operand, extra⟩ r' m' ⟨hcell, hsp⟩
    rw [← hcell]
    exact (makes_update operand (fun v => makes_store_modify operand (v + step)
      (f := fun r => { r with flags := r.flags.setZN (v + step) }) (fun _ => rfl) extra)
      m' r').imp fun _ r'' hsp' => hsp'.trans hsp

/-! Where a branch or a jump goes is not visited. -/

/-- A branch reads its operand byte and never the place that it goes to. -/
theorem uses_branch (hserves : i.mnemonic.handler = .branch)
    (h : i.mode ∉ [.implied, .accumulator]) (himmediate : i.mode ≠ .immediate) :
    i.Uses .ignores i.branch := by
  intro m r
  have himplied : i.mode ≠ .implied := List.ne_of_not_mem_cons h
  have haccumulator : i.mode ≠ .accumulator := fun hmode => h (by simp [hmode])
  unfold branch
  refine makes_of_get ?_
  -- taken or not, what remains is within the registers
  split
  case h_1 hnone => exact absurd hnone (taken?_isSome r.opened.flags hserves)
  case h_2 taken _ =>
    refine (makes_locate himplied himmediate).bind ?_
    rintro ⟨operand, extra⟩ r' m' ⟨hcell, hsp⟩
    rw [← hcell]
    cases operand with
    | accumulator =>
      exact absurd hcell.symm (Mode.cell?_ne_none himplied haccumulator himmediate)
    | cell target =>
      dsimp only
      split
      · exact makes_of_get ((makes_set _).after fun _ r'' m'' hr => makes_pure (by rw [hr]; exact hsp))
      · exact makes_pure hsp

/-- Neither does a jump.  Its operand is the address itself, or the pointer to it. -/
theorem uses_jmp (h : i.mode ∈ [.absolute, .indirect]) : i.Uses .ignores i.jmp := by
  intro m r
  have himplied : i.mode ≠ .implied := fun hmode => by simp [hmode] at h
  have himmediate : i.mode ≠ .immediate := fun hmode => by simp [hmode] at h
  unfold jmp
  split
  case h_3 habsolute hindirect =>
    rcases List.mem_cons.mp h with hmode | hmode
    · exact absurd hmode habsolute
    · exact absurd (List.mem_singleton.mp hmode) hindirect
  all_goals
    refine (makes_locate himplied himmediate).bind ?_
    rintro ⟨operand, extra⟩ r' m' ⟨hcell, hsp⟩
    rw [← hcell]
    cases operand with
    | accumulator => exact makes_pure hsp
    | cell target =>
      exact (makes_modify_pure (f := fun r => { r with pc := target }) (fun _ => rfl) extra m'
        r').imp fun _ r'' hsp' => hsp'.trans hsp

end Instruction

/-! ## The routines that find no cell -/

namespace Micro

variable {m : Flat} {r : Registers}

/-- PHA pushes the accumulator, and PHP below the status, to the same cell. -/
theorem makes_pha :
    pha.Makes m r ((pushedTo r.sp 1).map .writes) fun _ r' => r'.sp = r.sp - 1 :=
  makes_of_get (makes_push r.a)

theorem makes_php :
    php.Makes m r ((pushedTo r.sp 1).map .writes) fun _ r' => r'.sp = r.sp - 1 :=
  makes_of_get (makes_push _)

/-- What is pulled goes into registers other than the stack pointer. -/
theorem makes_pull_modify {f : UInt8 → Registers → Registers} (hf : ∀ v r, (f v r).sp = r.sp) :
    (do let v ← pull; modify (f v) : Micro Unit).Makes m r ((pulledFrom r.sp 1).map .reads)
      fun _ r' => r'.sp = r.sp + 1 := by
  refine (makes_pull.bind fun v r' m' hsp => ?_).of_eq (List.append_nil _)
  refine (makes_modify (f v)).imp fun _ r'' hr => ?_
  rw [hr, hf, hsp]

/-- PLA sets the accumulator from it, and PLP below the status. -/
theorem makes_pla :
    pla.Makes m r ((pulledFrom r.sp 1).map .reads) fun _ r' => r'.sp = r.sp + 1 :=
  makes_pull_modify (f := fun v r => r.setA v) fun _ _ => rfl

theorem makes_plp :
    plp.Makes m r ((pulledFrom r.sp 1).map .reads) fun _ r' => r'.sp = r.sp + 1 :=
  makes_pull_modify (f := fun p r => { r with flags := r.flags.load p true }) fun _ _ => rfl

theorem makes_pullWord_modify {f : UInt16 → Registers → Registers} (hf : ∀ w r, (f w r).sp = r.sp) :
    (do let w ← pullWord; modify (f w) : Micro Unit).Makes m r ((pulledFrom r.sp 2).map .reads)
      fun _ r' => r'.sp = r.sp + 2 := by
  refine (makes_pullWord.bind fun w r' m' hsp => ?_).of_eq (List.append_nil _)
  refine (makes_modify (f w)).imp fun _ r'' hr => ?_
  rw [hr, hf, hsp]

theorem makes_rts :
    rts.Makes m r ((pulledFrom r.sp 2).map .reads) fun _ r' => r'.sp = r.sp + 2 :=
  makes_pullWord_modify (f := fun last r => { r with pc := last + 1 }) fun _ _ => rfl

/-- RTI pulls three: the status first, and then the two of the program counter. -/
theorem makes_rti :
    rti.Makes m r ((pulledFrom r.sp 3).map .reads) fun _ r' => r'.sp = r.sp + 3 := by
  refine makes_pull.bind (v := (pulledFrom (r.sp + 1) 2).map .reads) fun p r₁ m₁ hsp₁ => ?_
  refine (makes_modify _).after fun _ r₂ m₂ hr₂ => ?_
  have hsp₂ : r₂.sp = r.sp + 1 := by rw [hr₂, ← hsp₁]
  have hword := makes_pullWord_modify (m := m₂) (r := r₂)
    (f := fun target r => { r with pc := target }) fun _ _ => rfl
  rw [hsp₂] at hword
  refine hword.imp fun _ r₃ hsp₃ => ?_
  rw [hsp₃]
  grind

/-- BRK: two pushes of the program counter, one of the status, and the two bytes of the vector. -/
theorem makes_enter :
    (enter none).Makes m r ((pushedTo r.sp 3).map .writes ++ [.reads 0xFFFE, .reads 0xFFFF])
      fun _ r' => r'.sp = r.sp - 3 := by
  -- the routine pushes a word and then a byte, which are three cells in a row
  have hsplit : pushedTo r.sp 3 = pushedTo r.sp 2 ++ pushedTo (r.sp - 2) 1 := by
    have htwo : r.sp - 1 - 1 = r.sp - 2 := by grind
    simp only [pushedTo, htwo, List.cons_append, List.nil_append]
  rw [hsplit, List.map_append, List.append_assoc]
  refine (makes_modify _).after fun _ r₁ m₁ hr₁ => makes_of_get ?_
  have hsp₁ : r₁.sp = r.sp := by rw [hr₁]
  rw [← hsp₁]
  refine (makes_pushWord _).bind fun _ r₂ m₂ hsp₂ => makes_of_get ?_
  rw [← hsp₂]
  refine (makes_push _).bind fun _ r₃ m₃ hsp₃ => ?_
  refine (makes_modify _).after fun _ r₄ m₄ hr₄ => ?_
  have hsp₄ : r₄.sp = r₁.sp - 3 := by
    rw [hr₄]
    change r₃.sp = _
    rw [hsp₃, hsp₂]
    grind
  exact ⟨_, _, rfl, rfl, hsp₄⟩

end Micro

namespace Instruction

open Micro

variable {i : Instruction} {m : Flat} {r : Registers}

/-- The operand bytes come before the pushes. -/
theorem makes_jsr (h : i.mode = .absolute) :
    i.jsr.Makes m r.opened (i.mode.approach r m ++ (pushedTo r.sp 2).map .writes)
      fun _ r' => r'.sp = r.sp - 2 := by
  have hfetch : fetchWord.Makes m r.opened (Mode.absolute.approach r m) fun _ r' => r'.sp = r.sp :=
    ⟨_, _, rfl, rfl, rfl⟩
  unfold jsr
  rw [h]
  refine hfetch.bind fun target r₁ m₁ hsp₁ => makes_of_get ?_
  rw [← hsp₁]
  refine ((makes_pushWord _).bind fun _ r₂ m₂ hsp₂ => ?_).of_eq (List.append_nil _)
  exact (makes_modify_pure (f := fun r => { r with pc := target }) (fun _ => rfl) 0 m₂ r₂).imp
    fun _ r₃ hsp₃ => hsp₃.trans hsp₂

theorem makes_stepIndex (hserves : i.mnemonic.handler = .stepIndex) :
    i.stepIndex.Makes m r [] fun _ r' => r'.sp = r.sp := by
  unfold stepIndex
  refine makes_of_get ?_
  split
  case h_1 hnone => exact absurd hnone (indexStepped?_isSome r hserves)
  case h_2 r' hr' =>
    have hsp : r'.sp = r.sp := by
      revert hr'
      cases i.mnemonic <;> simp [indexStepped?] <;> rintro rfl <;> rfl
    exact (makes_set r').after fun _ r'' m' heq => makes_pure (by rw [heq, hsp])

theorem makes_flag (hserves : i.mnemonic.handler = .flag) :
    i.flag.Makes m r [] fun _ r' => r'.sp = r.sp := by
  unfold flag
  refine makes_of_get ?_
  split
  case h_1 hnone => exact absurd hnone (flagged?_isSome r.flags hserves)
  case h_2 flags _ => exact (makes_set _).after fun _ r'' m' heq => makes_pure (by rw [heq])

/-- Of the transfers, one goes to the stack pointer. -/
theorem makes_transfer (hserves : i.mnemonic.handler = .transfer) :
    i.transfer.Makes m r [] fun _ r' => r'.sp = i.mnemonic.stackPointer r := by
  unfold transfer
  refine makes_of_get ?_
  split
  case h_1 hnone => exact absurd hnone (transferred?_isSome r hserves)
  case h_2 r' hr' =>
    have hsp : r'.sp = i.mnemonic.stackPointer r := by
      revert hr'
      cases i.mnemonic <;> simp [transferred?] <;> rintro rfl <;> rfl
    exact (makes_set r').after fun _ r'' m' heq => makes_pure (by rw [heq, hsp])

end Instruction

/-! ## A whole instruction -/

namespace Instruction

open Micro

variable {i : Instruction}

/-- The routines that find a cell leave the stack alone. -/
theorem Uses.errands {use : Use} {s : Micro Nat} {handler : Handler} (h : i.Uses use s)
    (hserves : i.mnemonic.handler = handler) (huse : handler.use = use)
    (hmoves : handler.movesStack = false) (m : Flat) (r : Registers) :
    s.Makes m r.opened (i.errands r m) fun _ r' => r'.sp = i.mnemonic.stackPointer r := by
  subst hserves huse
  unfold Instruction.errands
  rw [Mnemonic.stack_eq_nil hmoves, Mnemonic.stackPointer_eq hmoves, i.mnemonic.use_eq,
    List.append_nil]
  exact h m r

/-- In implied mode there is nothing but the stack. -/
theorem errands_of_implied (h : i.mode = .implied) (r : Registers) (m : Flat) :
    i.errands r m = i.mnemonic.stack r.sp := by
  unfold errands
  rw [h]
  rfl

theorem makes_of_registers {s : Micro Nat} {m : Flat} {r : Registers} (hmode : i.mode = .implied)
    (hmoves : i.mnemonic.handler.movesStack = false)
    (h : s.Makes m r.opened [] fun _ r' => r'.sp = r.sp) :
    s.Makes m r.opened (i.errands r m) fun _ r' => r'.sp = i.mnemonic.stackPointer r := by
  rw [errands_of_implied hmode, Mnemonic.stack_eq_nil hmoves, Mnemonic.stackPointer_eq hmoves]
  exact h

/-- The routines that work on the stack have it to visit and nothing else. -/
theorem makes_of_stack {s : Micro Unit} (mnemonic : Mnemonic) {m : Flat} {r : Registers}
    (hmode : i.mode = .implied) (hmnemonic : i.mnemonic = mnemonic)
    (h : s.Makes m r.opened (mnemonic.stack r.sp) fun _ r' => r'.sp = mnemonic.stackPointer r) :
    (do s; return 0 : Micro Nat).Makes m r.opened (i.errands r m)
      fun _ r' => r'.sp = i.mnemonic.stackPointer r := by
  rw [errands_of_implied hmode, hmnemonic]
  exact (h.bind fun _ _ _ hsp => makes_pure hsp).of_eq (List.append_nil _)

/-- Behind its opcode, an instruction makes the visits that its mnemonic and its mode call for.  There is
    one case for each routine, and each is settled by what is known of the routine. -/
theorem makes_execute (h : i.Fits) (hapt : Apt i.mode i.handler) (start : UInt16) (m : Flat)
    (r : Registers) :
    (i.execute none start).Makes m r.opened (i.errands r m)
      fun _ r' => r'.sp = i.mnemonic.stackPointer r := by
  obtain ⟨hserves, htakes⟩ := h
  unfold execute
  -- what the descriptor says of mnemonic and mode is all that is needed from here on
  generalize i.handler = handler at hserves htakes hapt
  cases handler with
  | adc => exact (uses_adc htakes).errands hserves rfl rfl m r
  | sbc => exact (uses_sbc htakes).errands hserves rfl rfl m r
  | logic => exact (uses_logic hserves htakes).errands hserves rfl rfl m r
  | bit => exact (uses_bit htakes).errands hserves rfl rfl m r
  | compare => exact (uses_compare hserves htakes).errands hserves rfl rfl m r
  | load => exact (uses_load hserves htakes).errands hserves rfl rfl m r
  | store => exact (uses_store hserves htakes).errands hserves rfl rfl m r
  | shift => exact (uses_shift hserves htakes hapt).errands hserves rfl rfl m r
  | stepMemory => exact (uses_stepMemory hserves htakes hapt).errands hserves rfl rfl m r
  | branch => exact (uses_branch hserves htakes hapt).errands hserves rfl rfl m r
  | jmp => exact (uses_jmp htakes).errands hserves rfl rfl m r
  | stepIndex => exact makes_of_registers hapt (by rw [hserves]; rfl) (makes_stepIndex hserves)
  | flag => exact makes_of_registers hapt (by rw [hserves]; rfl) (makes_flag hserves)
  | nop => exact makes_of_registers hapt (by rw [hserves]; rfl) (makes_pure rfl)
  | transfer =>
    refine (makes_transfer hserves).of_eq ?_
    rw [errands_of_implied hapt, Mnemonic.stack_of_transfer hserves]
  | jsr =>
    have hmode : i.mode = .absolute := List.mem_singleton.mp htakes
    have hmnemonic : i.mnemonic = .jsr := Mnemonic.eq_of_handler hserves (by decide)
    rw [hmnemonic]
    refine (makes_jsr hmode).of_eq ?_
    rw [errands, hmnemonic, hmode]
    rfl
  | brk => exact makes_of_stack .brk hapt (Mnemonic.eq_of_handler hserves (by decide)) makes_enter
  | rti => exact makes_of_stack .rti hapt (Mnemonic.eq_of_handler hserves (by decide)) makes_rti
  | rts => exact makes_of_stack .rts hapt (Mnemonic.eq_of_handler hserves (by decide)) makes_rts
  | pha => exact makes_of_stack .pha hapt (Mnemonic.eq_of_handler hserves (by decide)) makes_pha
  | php => exact makes_of_stack .php hapt (Mnemonic.eq_of_handler hserves (by decide)) makes_php
  | pla => exact makes_of_stack .pla hapt (Mnemonic.eq_of_handler hserves (by decide)) makes_pla
  | plp => exact makes_of_stack .plp hapt (Mnemonic.eq_of_handler hserves (by decide)) makes_plp
  | unimplemented => exact absurd htakes id

end Instruction

/-! ## A cycle -/

/-- An opcode that is listed decodes to a row of the table. -/
theorem Instruction.decode_mem {opcode : UInt8} (h : ¬Undocumented opcode) :
    decode opcode ∈ documented := by
  have hfits := fits_decode h
  refine mem_documented_of_implemented ?_
  unfold implemented
  rw [bne_iff_ne]
  intro hhandler
  have htakes := hfits.takes
  rw [hhandler] at htakes
  exact htakes

namespace Processor

/-- A cycle that executes an instruction: the accesses on the tape are those of its itinerary, each read
    got what was in the memory, and the memory has changed by the writes and nowhere else. -/
structure KeepsTo (i : Instruction) (p : Processor (Recorded Flat))
    (result : Except Fault Nat × Processor (Recorded Flat)) : Prop where
  outcome : ∃ cycles, result.1 = .ok cycles
  trace : ∃ accesses : List BusAccess,
    accesses.map BusAccess.visit = i.itinerary p.registers p.flat ∧
      result.2.tape = accesses.reverse ++ p.tape ∧
      p.flat.Answers accesses ∧ result.2.flat = accesses.foldl Flat.replay p.flat
  untouched : ∀ address, .writes address ∉ i.itinerary p.registers p.flat →
    result.2.flat.read address = p.flat.read address
  stackPointer : result.2.registers.sp = i.mnemonic.stackPointer p.registers

/-- What an instruction leaves on the tape and in the memory, if it comes to its end. -/
theorem ran_recorded (p : Processor (Recorded Flat)) {i : Instruction} {start : UInt16}
    {extra : Nat} {r : Registers} {accesses : List BusAccess}
    (hresult : (i.execute none start p.registers).result p.flat = (.ok extra, r))
    (haccesses : (i.execute none start p.registers).accesses p.flat = accesses) :
    (p.ran i none start).1 = .ok (i.cycles + extra) ∧
      (p.ran i none start).2.tape = accesses.reverse ++ p.tape ∧
      (p.ran i none start).2.flat = accesses.foldl Flat.replay p.flat ∧
      (p.ran i none start).2.registers.sp = r.sp := by
  unfold ran perform
  rw [Traffic.play_recorded, hresult, haccesses]
  exact ⟨rfl, rfl, rfl, rfl⟩

/-- An instruction that fits, and whose opcode has been fetched, keeps to its itinerary. -/
theorem keepsTo_ran (p : Processor (Recorded Flat)) {i : Instruction} (h : i.Fits)
    (hapt : Instruction.Apt i.mode i.handler) :
    KeepsTo i p (p.fetchOpcode.2.ran i none p.registers.pc) := by
  obtain ⟨extra, r, hresult, hvisits, hsp⟩ :=
    Instruction.makes_execute h hapt p.registers.pc p.flat p.registers
  have hanswers := (i.execute none p.registers.pc p.registers.opened).answers_accesses p.flat
  generalize haccesses :
    (i.execute none p.registers.pc p.registers.opened).accesses p.flat = errands at hvisits hanswers
  obtain ⟨houtcome, htape, hflat, hsp'⟩ := p.fetchOpcode.2.ran_recorded hresult haccesses
  -- the opcode comes before everything else
  have hitinerary : (BusAccess.read p.registers.pc (p.flat.read p.registers.pc) :: errands).map
      BusAccess.visit = i.itinerary p.registers p.flat :=
    congrArg (Visit.reads p.registers.pc :: ·) hvisits
  refine ⟨⟨_, houtcome⟩, ⟨_, hitinerary, ?_, ⟨rfl, hanswers⟩, hflat⟩, ?_, hsp'.trans hsp⟩
  · rw [htape, List.reverse_cons, List.append_assoc]
    rfl
  -- a cell that is not written on the way reads as before, since the memory is the old one with the writes
  -- replayed
  · intro address haddress
    rw [← hitinerary] at haddress
    rw [hflat]
    exact Flat.read_replay (_ :: errands) p.flat haddress

/-- The exact bus trace of every instruction.  With nothing pending and a documented opcode at the program
    counter, a cycle on a flat memory succeeds, whatever is in the registers and in the memory: its
    accesses are those of the instruction's itinerary, in that order and no others, and only the bytes
    that it writes can have changed. -/
theorem keepsTo_itinerary (p : Processor (Recorded Flat)) (j : Journal) (hquiet : p.requests = {})
    (hdocumented : ¬Instruction.Undocumented (p.flat.read p.registers.pc)) :
    KeepsTo (.decode (p.flat.read p.registers.pc)) p (p.cycle.run j).1 := by
  have hcycled : p.cycled = p.fetchOpcode.2.ran (.decode (p.flat.read p.registers.pc)) none
      p.registers.pc := by
    have hpanel : p.world.panel.requests = {} := hquiet
    unfold cycled
    rw [hpanel]
    rfl
  rw [p.fst_cycle j, hcycled]
  exact keepsTo_ran p (Instruction.fits_decode hdocumented)
    (Instruction.apt_documented _ (Instruction.decode_mem hdocumented))

/-- The opcode of a call at the top of the address space, its target at the bottom, and one byte of the
    stack left before it wraps. -/
def cornered : Processor (Recorded Flat) where
  registers := { pc := 0xFFFF, sp := 0 }
  world := {
    memory := { memory := ((({} : Flat).write 0xFFFF 0x20).write 0 0x34).write 1 0x12 } }

/-- There the call wraps at both ends: its operand bytes are at the bottom of the address space, and its
    second push is at the top of the stack page. -/
theorem keepsTo_itinerary_cornered :
    cornered.requests = {} ∧
      ¬Instruction.Undocumented (cornered.flat.read cornered.registers.pc) ∧
      (Instruction.decode 0x20).itinerary cornered.registers cornered.flat =
        [.reads 0xFFFF, .reads 0x0000, .reads 0x0001, .writes 0x0100, .writes 0x01FF] ∧
      KeepsTo (.decode 0x20) cornered (cornered.cycle.run {}).1 := by
  have hread : cornered.flat.read cornered.registers.pc = 0x20 := by decide +kernel
  have hdocumented : ¬Instruction.Undocumented 0x20 := by decide +kernel
  have hkeeps := keepsTo_itinerary cornered {} rfl (by rw [hread]; exact hdocumented)
  rw [hread] at hkeeps ⊢
  exact ⟨rfl, hdocumented, by decide +kernel, hkeeps⟩

end Processor

end Breadboard
