import Breadboard.Proofs.Unreported
import Breadboard.Proofs.Aftermath
/-
  What every instruction does, and that it does nothing else.

  The tables are by mnemonic: which byte is moved where, what is combined with what, what is counted up or
  down, what the result is that zero and negative speak of, and which flags can change at all.  `Effects`
  says of the state before and behind an instruction that the tables are right, and that every register,
  every flag and every byte of memory that they do not name is as it was.

  Break and unused are in no table.  A pulled status byte may say of them what it likes: they change in a
  reset and nowhere else, so a run with any data on the stack leaves them alone (`marks_servedAll`).
-/
namespace Breadboard

/-! ## Flags by name -/

/-- The flags of the status register, as names, so that tables can speak of them. -/
inductive Flag where
  | negative | overflow | unused | brk | decimal | interruptDisable | zero | carry
deriving DecidableEq, Repr

/-- The flag of a name. -/
def Flags.get (f : Flags) : Flag → Bool
  | .negative => f.negative
  | .overflow => f.overflow
  | .unused => f.unused
  | .brk => f.brk
  | .decimal => f.decimal
  | .interruptDisable => f.interruptDisable
  | .zero => f.zero
  | .carry => f.carry

/-- Zero and negative speak of this byte: whether it is 0, and whether its highest bit is up. -/
structure Flags.Judge (f : Flags) (v : UInt8) : Prop where
  zero : f.zero = true ↔ v = 0
  negative : f.negative = true ↔ 128 ≤ v.toNat

/-! ## Places -/

/-- Where an instruction finds a byte, or leaves one, as the tables have it. -/
inductive Place where
  | a | x | y | sp | operand
  /-- The cell of the stack that a push goes to. -/
  | pushed
  /-- The cell of the stack that a pull comes from. -/
  | pulled
deriving DecidableEq, Repr

/-- The byte in a place.  Where in the memory it is was settled when the instruction began, with the
    registers `r` and the memory `m`; what is there may be looked up later. -/
def Place.byte (i : Instruction) (r : Registers) (m : Flat) (r' : Registers) (m' : Flat) :
    Place → UInt8
  | .a => r'.a
  | .x => r'.x
  | .y => r'.y
  | .sp => r'.sp
  | .operand => (i.mode.operand r m).byte r' m'
  | .pushed => m'.read (stackCell r.sp)
  | .pulled => m'.read (stackCell (r.sp + 1))

/-! ## The tables -/

namespace Mnemonic

/-- From where to where a byte is moved as it is, if that is what the mnemonic does. -/
def moves? : Mnemonic → Option (Place × Place)
  | .lda => some (.operand, .a)
  | .ldx => some (.operand, .x)
  | .ldy => some (.operand, .y)
  | .sta => some (.a, .operand)
  | .stx => some (.x, .operand)
  | .sty => some (.y, .operand)
  | .tax => some (.a, .x)
  | .tay => some (.a, .y)
  | .tsx => some (.sp, .x)
  | .txa => some (.x, .a)
  | .txs => some (.x, .sp)
  | .tya => some (.y, .a)
  | .pha => some (.a, .pushed)
  | .pla => some (.pulled, .a)
  | _ => none

/-- What is counted, and what is added to it.  Counting down adds the byte that wraps around to one less. -/
def counts? : Mnemonic → Option (Place × UInt8)
  | .inc => some (.operand, 1)
  | .dec => some (.operand, -1)
  | .inx => some (.x, 1)
  | .dex => some (.x, -1)
  | .iny => some (.y, 1)
  | .dey => some (.y, -1)
  | _ => none

/-- What is compared with the operand; the comparison leaves it as it is. -/
def compares? : Mnemonic → Option Place
  | .cmp => some .a
  | .cpx => some .x
  | .cpy => some .y
  | _ => none

/-- Where the result is that zero and negative speak of. -/
def result? : Mnemonic → Option Place
  | .adc | .sbc | .and | .ora | .eor | .lda | .pla | .txa | .tya => some .a
  | .ldx | .tax | .tsx | .inx | .dex => some .x
  | .ldy | .tay | .iny | .dey => some .y
  | .asl | .lsr | .rol | .ror | .inc | .dec => some .operand
  | _ => none

/-- The flag that is set or cleared by name, and which of the two. -/
def names? : Mnemonic → Option (Flag × Bool)
  | .clc => some (.carry, false)
  | .sec => some (.carry, true)
  | .cld => some (.decimal, false)
  | .sed => some (.decimal, true)
  | .cli => some (.interruptDisable, false)
  | .sei => some (.interruptDisable, true)
  | .clv => some (.overflow, false)
  | _ => none

/-- The flags that may change.  Whatever is not listed here for a mnemonic is sure to stay as it was. -/
def touches : Mnemonic → List Flag
  | .adc | .sbc => [.negative, .zero, .carry, .overflow]
  | .asl | .lsr | .rol | .ror | .cmp | .cpx | .cpy => [.negative, .zero, .carry]
  | .bit => [.negative, .zero, .overflow]
  | .lda | .ldx | .ldy | .and | .ora | .eor | .tax | .tay | .tsx | .txa | .tya
  | .inc | .dec | .inx | .iny | .dex | .dey | .pla => [.negative, .zero]
  | .plp | .rti => [.negative, .overflow, .decimal, .interruptDisable, .zero, .carry]
  | .brk => [.interruptDisable]
  | .clc | .sec => [.carry]
  | .cld | .sed => [.decimal]
  | .cli | .sei => [.interruptDisable]
  | .clv => [.overflow]
  | .sta | .stx | .sty | .txs | .pha | .php | .bcc | .bcs | .beq | .bmi | .bne | .bpl | .bvc | .bvs
  | .jmp | .jsr | .rts | .nop | .xxx => []

end Mnemonic

/-- No mnemonic can change break or unused, not even those that pull a whole status. -/
theorem Mnemonic.marks_untouched (mnemonic : Mnemonic) :
    .brk ∉ mnemonic.touches ∧ .unused ∉ mnemonic.touches := by
  cases mnemonic <;> decide

/-- What an instruction does to the registers `r` and the memory `m`, and all that it does.  Each field is
    about one of the tables, or about one thing that may change and what it takes to change it. -/
structure Effects (i : Instruction) (r : Registers) (m : Flat) (r' : Registers) (m' : Flat) : Prop where
  moves : ∀ source target, i.mnemonic.moves? = some (source, target) →
    target.byte i r m r' m' = source.byte i r m r m
  combines : ∀ combine, i.mnemonic.combination? = some combine →
    r'.a = combine r.a (i.mode.argument r m)
  counts : ∀ place step, i.mnemonic.counts? = some (place, step) →
    place.byte i r m r' m' = place.byte i r m r m + step
  a : r'.a ≠ r.a → i.mnemonic ∈ [.adc, .sbc, .and, .ora, .eor, .lda, .pla, .txa, .tya] ∨
    i.mode = .accumulator ∧ i.mnemonic ∈ [.asl, .lsr, .rol, .ror]
  x : r'.x ≠ r.x → i.mnemonic ∈ [.ldx, .tax, .tsx, .inx, .dex]
  y : r'.y ≠ r.y → i.mnemonic ∈ [.ldy, .tay, .iny, .dey]
  sp : r'.sp = i.mnemonic.stackPointer r
  /-- No byte of memory changes but those that are written on the way. -/
  memory : ∀ address, .writes address ∉ i.itinerary r m → m'.read address = m.read address
  flags : ∀ flag, flag ∉ i.mnemonic.touches → r'.flags.get flag = r.flags.get flag
  judges : ∀ place, i.mnemonic.result? = some place → r'.flags.Judge (place.byte i r m r' m')
  compares : ∀ place, i.mnemonic.compares? = some place →
    r'.flags.Judge (place.byte i r m r m - i.mode.argument r m)
  tests : i.mnemonic = .bit →
    (r'.flags.zero = true ↔ r.a &&& i.mode.argument r m = 0) ∧
    r'.flags.negative = (Flags.ofByte (i.mode.argument r m)).negative ∧
    r'.flags.overflow = (Flags.ofByte (i.mode.argument r m)).overflow
  names : ∀ flag up, i.mnemonic.names? = some (flag, up) → r'.flags.get flag = up
  breaks : i.mnemonic = .brk → r'.flags.interruptDisable = true
  pulls : i.mnemonic ∈ [.plp, .rti] →
    ∀ flag ∈ i.mnemonic.touches, r'.flags.get flag = (Flags.ofByte (topOfStack r m)).get flag
  /-- A saved status has break and unused up. -/
  saves : i.mnemonic = .php → m'.read (stackCell r.sp) = r.flags.toByte ||| 0x30

/-! ## Single facts -/

/-- What holds of all numbers of eight bits holds of all bytes, which is how facts about single bytes are
    settled by looking at them all. -/
theorem forall_byte {P : UInt8 → Prop} (h : ∀ n : Fin 256, P (UInt8.ofNat n)) (v : UInt8) : P v := by
  have hv := h ⟨v.toNat, v.toNat_lt⟩
  rwa [UInt8.ofNat_toNat] at hv

/-- What has been put somewhere is there, be it the accumulator or a cell. -/
theorem Operand.byte_put {operand : Operand} {r r' : Registers} {m : Flat} {v : UInt8}
    (h : r'.a = (operand.intoRegisters r v).a) : operand.byte r' (operand.intoMemory m v) = v := by
  cases operand with
  | accumulator => exact h
  | cell address => exact (m.read_write address address v).trans (if_pos rfl)

/-- Putting a byte at an operand can change the accumulator and no other register, as this and the next two
    say. -/
theorem Operand.x_intoRegisters (operand : Operand) (r : Registers) (v : UInt8) :
    (operand.intoRegisters r v).x = r.x := by
  cases operand <;> rfl

theorem Operand.y_intoRegisters (operand : Operand) (r : Registers) (v : UInt8) :
    (operand.intoRegisters r v).y = r.y := by
  cases operand <;> rfl

theorem Operand.sp_intoRegisters (operand : Operand) (r : Registers) (v : UInt8) :
    (operand.intoRegisters r v).sp = r.sp := by
  cases operand <;> rfl

namespace Flags

/-- The highest bit is up for the bytes from 128 on. -/
theorem negative_iff : ∀ v : UInt8, (v &&& 0x80 != 0) = true ↔ 128 ≤ v.toNat :=
  forall_byte (by decide +kernel)

/-- Flags that have been set by a byte speak of that byte. -/
theorem judge_setZN (f : Flags) (v : UInt8) : (f.setZN v).Judge v :=
  ⟨beq_iff_eq, negative_iff v⟩

/-- Setting zero and negative leaves the other flags as they were. -/
theorem get_setZN {flag : Flag} (f : Flags) (v : UInt8) (h : flag ∉ [.negative, .zero]) :
    (f.setZN v).get flag = f.get flag := by
  revert h
  cases flag <;> simp [get, setZN]

end Flags

/-- What is in a place does not depend on the program counter, the address latch or the counter. -/
theorem Place.byte_placed (i : Instruction) (r r' : Registers) (m m' : Flat) (pc latch : UInt16)
    (cycles : UInt64) (place : Place) :
    place.byte i r m { r' with pc, addressLatch := latch, cycles } m' = place.byte i r m r' m' := by
  cases place with
  | operand =>
    show (i.mode.operand r m).byte _ _ = (i.mode.operand r m).byte _ _
    cases i.mode.operand r m <;> rfl
  | _ => rfl

namespace Instruction

variable {i : Instruction} {r : Registers} {m : Flat}

/-- What stores and counts in memory finds its operand there, in every row of the table. -/
theorem memory_documented : ∀ i ∈ documented, i.mnemonic ∈ [.sta, .stx, .sty, .inc, .dec] →
    i.mode ≠ .implied ∧ i.mode ≠ .accumulator := by
  decide +kernel

/-- What shifts has an operand that can be written, in every row of the table. -/
theorem shift_documented : ∀ i ∈ documented, i.mnemonic ∈ [.asl, .lsr, .rol, .ror] →
    i.mode ≠ .implied ∧ i.mode ≠ .immediate := by
  decide +kernel

/-- What is moved is found where it was moved to, as it was where it came from. -/
theorem moved_after (hi : i ∈ documented) {source target : Place}
    (h : i.mnemonic.moves? = some (source, target)) :
    target.byte i r m (i.registersAfter r m) (i.memoryAfter r m) = source.byte i r m r m := by
  have hmode := memory_documented i hi
  obtain ⟨opcode, mnemonic, mode, length, cycles, pageCross, handler⟩ := i
  cases mnemonic with
  | lda | ldx | ldy | tax | tay | tsx | txa | txs | tya | pla =>
    obtain ⟨rfl, rfl⟩ := Prod.mk.inj (Option.some.inj h)
    rfl
  -- a store reads its byte from registers that it does not change
  | sta | stx | sty =>
    obtain ⟨rfl, rfl⟩ := Prod.mk.inj (Option.some.inj h)
    obtain ⟨himplied, haccumulator⟩ := hmode (by simp)
    exact Operand.byte_put (congrArg Registers.a (Mode.intoRegisters_operand himplied haccumulator _).symm)
  | pha =>
    obtain ⟨rfl, rfl⟩ := Prod.mk.inj (Option.some.inj h)
    exact (m.read_write _ _ _).trans (if_pos rfl)
  | _ => cases h

/-! What shifts and counts in memory leave behind -/

/-- The shifted byte is where the operand was. -/
theorem byte_shifted (h : i.mnemonic.handler = .shift) :
    (i.mode.operand r m).byte (i.registersAfter r m) (i.memoryAfter r m) = (i.shiftResult r m).1 := by
  unfold registersAfter memoryAfter
  rw [h]
  exact Operand.byte_put rfl

/-- Its zero and negative are set by it, and carry by the bit that fell out. -/
theorem flags_shifted (h : i.mnemonic.handler = .shift) : (i.registersAfter r m).flags =
    { r.flags with carry := (i.shiftResult r m).2 }.setZN (i.shiftResult r m).1 := by
  unfold registersAfter
  rw [h]

theorem byte_counted (h : i.mnemonic.handler = .stepMemory) :
    (i.mode.operand r m).byte (i.registersAfter r m) (i.memoryAfter r m) = i.stepResult r m := by
  unfold registersAfter memoryAfter
  rw [h]
  exact Operand.byte_put rfl

/-- Counting sets zero and negative, and no carry. -/
theorem flags_counted (h : i.mnemonic.handler = .stepMemory) :
    (i.registersAfter r m).flags = r.flags.setZN (i.stepResult r m) := by
  unfold registersAfter
  rw [h]

/-! What is moved, combined and counted -/

/-- What is combined is the accumulator and the operand, and the result is in the accumulator. -/
theorem combined_after {combine : UInt8 → UInt8 → UInt8}
    (h : i.mnemonic.combination? = some combine) :
    (i.registersAfter r m).a = combine r.a (i.mode.argument r m) := by
  obtain ⟨opcode, mnemonic, mode, length, cycles, pageCross, handler⟩ := i
  cases mnemonic with
  | and | ora | eor =>
    obtain rfl := Option.some.inj h
    rfl
  | _ => cases h

/-- What is counted is one more or one less than it was. -/
theorem counted_after {place : Place} {step : UInt8}
    (h : i.mnemonic.counts? = some (place, step)) :
    place.byte i r m (i.registersAfter r m) (i.memoryAfter r m) = place.byte i r m r m + step := by
  obtain ⟨opcode, mnemonic, mode, length, cycles, pageCross, handler⟩ := i
  cases mnemonic with
  | inc | dec =>
    obtain ⟨rfl, rfl⟩ := Prod.mk.inj (Option.some.inj h)
    exact Operand.byte_put rfl
  | inx | iny =>
    obtain ⟨rfl, rfl⟩ := Prod.mk.inj (Option.some.inj h)
    rfl
  | dex | dey =>
    obtain ⟨rfl, rfl⟩ := Prod.mk.inj (Option.some.inj h)
    exact UInt8.sub_eq_add_neg _ _
  | _ => cases h

/-! Registers that are not named -/

/-- The accumulator is changed by the mnemonics that are listed, and by shifts in accumulator mode. -/
theorem a_after (hi : i ∈ documented) (h : (i.registersAfter r m).a ≠ r.a) :
    i.mnemonic ∈ [.adc, .sbc, .and, .ora, .eor, .lda, .pla, .txa, .tya] ∨
      i.mode = .accumulator ∧ i.mnemonic ∈ [.asl, .lsr, .rol, .ror] := by
  have hmemory := memory_documented i hi
  have hshift := shift_documented i hi
  obtain ⟨opcode, mnemonic, mode, length, cycles, pageCross, handler⟩ := i
  cases mnemonic with
  | adc | sbc | and | ora | eor | lda | pla | txa | tya => exact .inl (by simp)
  -- in another mode the shift would have left the accumulator alone
  | asl | lsr | rol | ror =>
    obtain ⟨himplied, -⟩ := hshift (by simp)
    refine .inr ⟨Decidable.byContradiction fun haccumulator => ?_, by simp⟩
    exact absurd (congrArg Registers.a (Mode.intoRegisters_operand himplied haccumulator _)) h
  | inc | dec =>
    obtain ⟨himplied, haccumulator⟩ := hmemory (by simp)
    exact absurd (congrArg Registers.a (Mode.intoRegisters_operand himplied haccumulator _)) h
  | _ => exact absurd rfl h

/-- X is changed by the mnemonics that are listed and by no other. -/
theorem x_after (h : (i.registersAfter r m).x ≠ r.x) :
    i.mnemonic ∈ [.ldx, .tax, .tsx, .inx, .dex] := by
  obtain ⟨opcode, mnemonic, mode, length, cycles, pageCross, handler⟩ := i
  cases mnemonic with
  | ldx | tax | tsx | inx | dex => simp
  | asl | lsr | rol | ror | inc | dec => exact absurd (Operand.x_intoRegisters _ r _) h
  | _ => exact absurd rfl h

theorem y_after (h : (i.registersAfter r m).y ≠ r.y) :
    i.mnemonic ∈ [.ldy, .tay, .iny, .dey] := by
  obtain ⟨opcode, mnemonic, mode, length, cycles, pageCross, handler⟩ := i
  cases mnemonic with
  | ldy | tay | iny | dey => simp
  | asl | lsr | rol | ror | inc | dec => exact absurd (Operand.y_intoRegisters _ r _) h
  | _ => exact absurd rfl h

/-- The stack pointer is what the itinerary says it is, which needs no condition: its table covers all
    mnemonics. -/
theorem sp_after (i : Instruction) (r : Registers) (m : Flat) :
    (i.registersAfter r m).sp = i.mnemonic.stackPointer r := by
  obtain ⟨opcode, mnemonic, mode, length, cycles, pageCross, handler⟩ := i
  cases mnemonic with
  | asl | lsr | rol | ror | inc | dec => exact Operand.sp_intoRegisters _ r _
  | _ => rfl

/-- Whatever an instruction writes is on its itinerary, and so a cell that is not there reads as it did. -/
theorem memory_after (hi : i ∈ documented) {address : UInt16}
    (h : .writes address ∉ i.itinerary r m) :
    (i.memoryAfter r m).read address = m.read address := by
  obtain ⟨-, -, -, hvisits, -⟩ :=
    makes_execute (fits_documented i hi) (apt_documented i hi) r.pc m r
  obtain ⟨extra, pc, latch, -, hmemory⟩ := leaves_execute (m := m) (r := r) hi r.pc
  rw [← hmemory]
  refine Flat.read_replay _ m fun hmem => h ?_
  rw [hvisits] at hmem
  exact List.mem_cons_of_mem _ hmem

/-! Flags -/

/-- A flag that is not listed for the mnemonic stays as it was. -/
theorem get_after {flag : Flag} (h : flag ∉ i.mnemonic.touches) :
    (i.registersAfter r m).flags.get flag = r.flags.get flag := by
  obtain ⟨opcode, mnemonic, mode, length, cycles, pageCross, handler⟩ := i
  change flag ∉ mnemonic.touches at h
  cases mnemonic with
  | lda | ldx | ldy | and | ora | eor | tax | tay | tsx | txa | tya | inc | dec | inx | iny | dex | dey
  | pla => exact Flags.get_setZN _ _ h
  -- here the flags are written out one by one, and each is either listed or the old one
  | adc | sbc | asl | lsr | rol | ror | cmp | cpx | cpy | bit | plp | rti | brk | clc | sec | cld | sed
  | cli | sei | clv =>
    cases flag <;> first | exact absurd (by decide) h | rfl
  | _ => rfl

/-- Zero and negative speak of the result, wherever the mnemonic leaves it. -/
theorem judged_after {place : Place} (h : i.mnemonic.result? = some place) :
    (i.registersAfter r m).flags.Judge
      (place.byte i r m (i.registersAfter r m) (i.memoryAfter r m)) := by
  cases hm : i.mnemonic with
  | adc | sbc | and | ora | eor | lda | pla | txa | tya | ldx | tax | tsx | inx | dex | ldy | tay | iny
  | dey =>
    rw [hm] at h
    obtain rfl := Option.some.inj h
    unfold registersAfter
    rw [hm]
    exact Flags.judge_setZN _ _
  -- the result is at the operand, which may be the accumulator or a cell
  | asl | lsr | rol | ror =>
    rw [hm] at h
    obtain rfl := Option.some.inj h
    have hserves : i.mnemonic.handler = .shift := by rw [hm]; rfl
    show Flags.Judge _ ((i.mode.operand r m).byte _ _)
    rw [byte_shifted hserves, flags_shifted hserves]
    exact Flags.judge_setZN _ _
  | inc | dec =>
    rw [hm] at h
    obtain rfl := Option.some.inj h
    have hserves : i.mnemonic.handler = .stepMemory := by rw [hm]; rfl
    show Flags.Judge _ ((i.mode.operand r m).byte _ _)
    rw [byte_counted hserves, flags_counted hserves]
    exact Flags.judge_setZN _ _
  | _ =>
    rw [hm] at h
    cases h

theorem compared_after {place : Place} (h : i.mnemonic.compares? = some place) :
    (i.registersAfter r m).flags.Judge (place.byte i r m r m - i.mode.argument r m) := by
  obtain ⟨opcode, mnemonic, mode, length, cycles, pageCross, handler⟩ := i
  cases mnemonic with
  | cmp | cpx | cpy =>
    obtain rfl := Option.some.inj h
    exact Flags.judge_setZN _ _
  | _ => cases h

/-- A flag that is set or cleared by name is as the name says. -/
theorem named_after {flag : Flag} {up : Bool} (h : i.mnemonic.names? = some (flag, up)) :
    (i.registersAfter r m).flags.get flag = up := by
  obtain ⟨opcode, mnemonic, mode, length, cycles, pageCross, handler⟩ := i
  cases mnemonic with
  | clc | sec | cld | sed | cli | sei | clv =>
    obtain ⟨rfl, rfl⟩ := Prod.mk.inj (Option.some.inj h)
    rfl
  | _ => cases h

/-- The flags that PLP and RTI list are those of the status on top of the stack. -/
theorem pulled_after (h : i.mnemonic ∈ [.plp, .rti]) :
    ∀ flag ∈ i.mnemonic.touches,
      (i.registersAfter r m).flags.get flag = (Flags.ofByte (topOfStack r m)).get flag := by
  intro flag hflag
  obtain ⟨opcode, mnemonic, mode, length, cycles, pageCross, handler⟩ := i
  change flag ∈ mnemonic.touches at hflag
  simp only [List.mem_cons, List.not_mem_nil, or_false] at h
  rcases h with rfl | rfl
  all_goals
    cases flag with
    | unused | brk => exact absurd hflag (by decide)
    | _ => rfl

/-- An instruction does what the tables say, and nothing else.  This puts the single facts together, for
    whatever program counter and address latch the instruction ends with. -/
theorem effects_after (hi : i ∈ documented) (r : Registers) (m : Flat) (pc latch : UInt16)
    (cycles : UInt64) : Effects i r m
      { i.registersAfter r m with pc, addressLatch := latch, cycles } (i.memoryAfter r m) where
  moves source target h := (Place.byte_placed ..).trans (moved_after hi h)
  combines combine h := combined_after h
  counts place step h := (Place.byte_placed ..).trans (counted_after h)
  a h := a_after hi h
  x h := x_after h
  y h := y_after h
  sp := i.sp_after r m
  memory address h := memory_after hi h
  flags flag h := get_after h
  judges place h := by
    rw [Place.byte_placed]
    exact judged_after h
  compares place h := compared_after h
  tests h := by
    unfold registersAfter
    rw [h]
    exact ⟨beq_iff_eq, rfl, rfl⟩
  names flag up h := named_after h
  breaks h := by
    unfold registersAfter
    rw [h]
    rfl
  pulls h := pulled_after h
  saves h := by
    unfold memoryAfter
    rw [h]
    exact (m.read_write _ _ _).trans (if_pos rfl)

end Instruction

/-! ## Break and unused -/

/-- The two flags that no instruction changes. -/
def Flags.marks (f : Flags) : Bool × Bool :=
  (f.brk, f.unused)

namespace Processor

variable {p : Processor Flat}

/-- The marks of a processor are those of its flags. -/
abbrev marks (p : Processor Flat) : Bool × Bool :=
  p.registers.flags.marks

/-- A reset clears both marks, since it starts with flags of its own. -/
theorem marks_of_reset (h : p.world.panel.requests.reset = true) :
    p.cycled.2.marks = (false, false) := by
  unfold cycled
  rw [if_pos h]
  rfl

/-- Without a reset pending, a cycle leaves the marks alone and does not ask for a reset. -/
theorem marks_of_no_reset (h : p.world.panel.requests.reset = false) :
    p.cycled.2.marks = p.marks ∧ p.cycled.2.world.panel.requests.reset = false := by
  by_cases hquiet : p.world.panel.requests = {}
  · -- a cycle that has nothing to serve fails, or executes an instruction
    by_cases hdocumented : Instruction.Undocumented (p.ram.read p.registers.pc)
    · rw [cycled_of_lost_flat ⟨hquiet, hdocumented⟩]
      exact ⟨rfl, h⟩
    · obtain ⟨-, hregisters, -, hpanel⟩ := cycled_executes hquiet hdocumented
      have hmem : p.current ∈ Instruction.documented := Instruction.decode_mem hdocumented
      have hflags : p.cycled.2.registers.flags =
          (p.current.registersAfter p.registers p.ram).flags := by rw [hregisters]
      have hbrk : (p.current.registersAfter p.registers p.ram).flags.get .brk =
          p.registers.flags.get .brk := Instruction.get_after p.current.mnemonic.marks_untouched.1
      have hunused : (p.current.registersAfter p.registers p.ram).flags.get .unused =
          p.registers.flags.get .unused := Instruction.get_after p.current.mnemonic.marks_untouched.2
      constructor
      · show (p.cycled.2.registers.flags.brk, p.cycled.2.registers.flags.unused) = p.marks
        rw [hflags]
        exact Prod.ext hbrk hunused
      · rw [hpanel]
        exact h
  · cases hnext : p.world.panel.requests.next? with
    | none =>
      have hoff : ¬p.world.panel.requests.reset = true := by simp [h]
      exact absurd (Requests.eq_none hoff hnext) hquiet
    | some i =>
      rw [cycled_interrupted h hnext]
      exact ⟨rfl, (Requests.reset_clear _ i).trans h⟩

/-- A call leaves the marks alone or clears them.  It leaves them alone if no reset is pending and it does
    not request one, and then none is pending after it either. -/
theorem marks_served (p : Processor Flat) (call : Call) :
    ((p.served call).2.marks = p.marks ∨ (p.served call).2.marks = (false, false)) ∧
    (p.world.panel.requests.reset = false → call ≠ .request .reset →
      (p.served call).2.marks = p.marks ∧
        (p.served call).2.world.panel.requests.reset = false) := by
  cases call with
  | request kind =>
    refine ⟨.inl rfl, fun hoff hcall => ⟨rfl, ?_⟩⟩
    cases kind with
    | reset => exact absurd rfl hcall
    | nmi | irq => exact hoff
  | grant quantum => exact ⟨.inl rfl, fun hoff _ => ⟨rfl, hoff⟩⟩
  | takeExecuted => exact ⟨.inl rfl, fun hoff _ => ⟨rfl, hoff⟩⟩
  | cycle =>
    refine ⟨?_, fun hoff _ => marks_of_no_reset hoff⟩
    cases hreset : p.world.panel.requests.reset with
    | true => exact .inr (marks_of_reset hreset)
    | false => exact .inl (marks_of_no_reset hreset).1

/-- In the course of a run the marks stay as they were, until there is a reset.  By induction over the
    calls, with the absence of a pending reset handed on from call to call. -/
theorem marks_servedAll (calls : List Call) (p : Processor Flat) :
    ((p.servedAll calls).2.marks = p.marks ∨ (p.servedAll calls).2.marks = (false, false)) ∧
    (p.world.panel.requests.reset = false → .request .reset ∉ calls →
      (p.servedAll calls).2.marks = p.marks) := by
  induction calls generalizing p with
  | nil => exact ⟨.inl rfl, fun _ _ => rfl⟩
  | cons call calls ih =>
    obtain ⟨hfirst, hkept⟩ := p.marks_served call
    obtain ⟨hrest, hkeeps⟩ := ih (p.served call).2
    have hlast : (p.servedAll (call :: calls)).2 = ((p.served call).2.servedAll calls).2 := rfl
    rw [hlast]
    constructor
    -- once cleared the marks stay cleared, whatever comes after
    · rcases hrest with hrest | hrest
      · rw [hrest]
        exact hfirst
      · exact .inr hrest
    · intro hoff hcalls
      rw [List.mem_cons, not_or] at hcalls
      obtain ⟨hmarks, hoff'⟩ := hkept hoff (Ne.symm hcalls.1)
      exact (hkeeps hoff' hcalls.2).trans hmarks

/-- Every instruction does what its mnemonic names, and nothing else.  With nothing pending and a documented
    opcode at the program counter, a cycle on a flat memory succeeds, and what it has done to registers,
    flags and memory is what `Effects` allows.

    Break and unused are changed by no instruction and by no interrupt, whatever is pulled from the stack.
    In the course of a run they stay as they were, as long as there is no reset; and a reset clears them. -/
theorem acts_as_named (p : Processor Flat) (j : Journal) :
    (p.world.panel.requests = {} → ¬Instruction.Undocumented (p.ram.read p.registers.pc) →
      (∃ cycles, (p.cycle.run j).1.1 = .ok cycles) ∧
        Effects p.current p.registers p.ram (p.cycle.run j).1.2.registers (p.cycle.run j).1.2.ram) ∧
    ∀ (calls : List Call) (k : Journal),
      (((p.serveAll calls).run k).1.2.marks = p.marks ∨
        ((p.serveAll calls).run k).1.2.marks = (false, false)) ∧
      (p.world.panel.requests.reset = false → .request .reset ∉ calls →
        ((p.serveAll calls).run k).1.2.marks = p.marks) := by
  constructor
  · intro hquiet hdocumented
    obtain ⟨houtcome, hregisters, hmemory, -⟩ := cycled_executes hquiet hdocumented
    have hmem : p.current ∈ Instruction.documented := Instruction.decode_mem hdocumented
    rw [p.fst_cycle j, hmemory, hregisters]
    exact ⟨⟨_, houtcome⟩, Instruction.effects_after hmem _ _ _ _ _⟩
  · intro calls k
    rw [fst_serveAll]
    exact marks_servedAll calls p

/-- A program that pulls a status with all bits set, and then returns with one that has none, at the end of
    the stack page. -/
def unruly : Processor Flat where
  registers := { pc := 0x0400, sp := 0xFD, flags := { brk := true } }
  world := { memory := (({} : Flat).storeAt 0x0400 [0x28, 0x40]).write 0x01FE 0xFF }

/-- The flags of the status that is pulled are all up but for the two marks, which the processor keeps. -/
theorem acts_as_named_unruly :
    unruly.world.panel.requests = {} ∧
      ¬Instruction.Undocumented (unruly.ram.read unruly.registers.pc) ∧
      Effects (.decode 0x28) unruly.registers unruly.ram (unruly.cycle.run {}).1.2.registers
        (unruly.cycle.run {}).1.2.ram ∧
      (unruly.cycle.run {}).1.2.registers.flags.toByte = 0xDF ∧
      ((unruly.serveAll [.cycle, .request .irq, .cycle, .cycle]).run {}).1.2.marks = (true, false) := by
  have hdocumented : ¬Instruction.Undocumented (unruly.ram.read unruly.registers.pc) := by
    decide +kernel
  have hcurrent : unruly.current = .decode 0x28 := by decide +kernel
  obtain ⟨hcycle, hrun⟩ := acts_as_named unruly {}
  obtain ⟨-, heffects⟩ := hcycle rfl hdocumented
  obtain ⟨-, hmarks⟩ := hrun [.cycle, .request .irq, .cycle, .cycle] {}
  rw [hcurrent] at heffects
  exact ⟨rfl, hdocumented, heffects, by decide +kernel, hmarks rfl (by decide)⟩

end Processor

end Breadboard
