import Mathlib.Algebra.Group.Nat.Defs
import Breadboard.Proofs.Footprint
/-
  Binary arithmetic.

  Addition, subtraction and comparison are three routines, and each gets carry and overflow in its own way:
  from a sum that is never negative, from a difference that may be, and by comparing.  With decimal mode
  clear there is one law behind all three, that of a sum of two bytes and a carry (`Sums`).  Taking `m` away
  is adding `255 - m`, and a comparison is a subtraction from a set carry whose difference is thrown away.

  The law leaves nothing open of A and of the four flags that speak of it (`Sums.agree`), so two processors
  that come under it with the same bytes and the same carry end alike, however they got there.
-/
namespace Breadboard

/-! ## Signs -/

/-- What a number stands for when its so many bytes are read in two's complement. -/
def signed (size n : Nat) : Int :=
  (n : Int).bmod (256 ^ size)

/-- For a single byte this is the byte itself in the lower half, and 256 less in the upper. -/
theorem signed_byte (v : UInt8) :
    signed 1 v.toNat = if v.toNat < 128 then (v.toNat : Int) else v.toNat - 256 := by
  have hv : v.toNat < 256 := v.toNat_lt
  have hmod : (v.toNat : Int) % 256 = v.toNat := by omega
  have hdef : signed 1 v.toNat = if (v.toNat : Int) % 256 < 128 then (v.toNat : Int) % 256
      else (v.toNat : Int) % 256 - 256 := Int.bmod_def _ _
  rw [hdef, hmod]
  split <;> split <;> omega

/-- Two bytes differ in their sign when one is in the upper half and one in the lower. -/
theorem signsDiffer_iff (a b : UInt8) :
    signsDiffer a b = true ↔ ¬(128 ≤ a.toNat ↔ 128 ≤ b.toNat) := by
  have hmsb : ∀ v : UInt8, v.toBitVec.msb = true ↔ 128 ≤ v.toNat := by
    intro v
    rw [BitVec.msb_eq_decide, decide_eq_true_iff]
    rfl
  have hxor : (a ^^^ b).toBitVec.msb = (a.toBitVec.msb ^^ b.toBitVec.msb) := by
    rw [UInt8.toBitVec_xor, BitVec.msb_xor]
  unfold signsDiffer
  rw [Flags.negative_iff, ← hmsb, hxor, ← hmsb a, ← hmsb b]
  cases a.toBitVec.msb <;> cases b.toBitVec.msb <;> decide

/-- A byte from which every bit has been turned is 255 less the byte: nothing is borrowed. -/
theorem toNat_complement (m : UInt8) : (255 - m).toNat = 255 - m.toNat := by
  have hm : m.toNat < 256 := m.toNat_lt
  rw [UInt8.toNat_sub]
  show (256 - m.toNat + 255) % 256 = 255 - m.toNat
  omega

/-- The sum of two bytes of one sign has the other sign just when it is out of range. -/
theorem overflow_iff (a m v : UInt8) (carry : Bool)
    (h : v.toNat = (a.toNat + m.toNat + carry.toNat) % 256) :
    (!signsDiffer a m && signsDiffer a v) = true ↔
      ¬(-128 ≤ signed 1 a.toNat + signed 1 m.toNat + carry.toNat ∧
        signed 1 a.toNat + signed 1 m.toNat + carry.toNat ≤ 127) := by
  have ha : a.toNat < 256 := a.toNat_lt
  have hm : m.toNat < 256 := m.toNat_lt
  have hcarry : carry.toNat ≤ 1 := carry.toNat_le
  -- all that is left then is a case for each half that the two bytes can be in
  rw [Bool.and_eq_true, Bool.not_eq_true', ← Bool.not_eq_true, signsDiffer_iff, signsDiffer_iff,
    signed_byte, signed_byte, h]
  split <;> split <;> omega

/-! ## The law -/

/-- A has become the sum of two bytes and a carry, and the flags say how it went.  Overflow speaks of the
    sum of what the two bytes stand for with a sign. -/
structure Sums (a m : UInt8) (c : Bool) (after : Registers) : Prop where
  sum : after.a.toNat = (a.toNat + m.toNat + c.toNat) % 256
  carry : after.flags.carry = true ↔ 256 ≤ a.toNat + m.toNat + c.toNat
  overflow : after.flags.overflow = true ↔
    ¬(-128 ≤ signed 1 a.toNat + signed 1 m.toNat + c.toNat ∧
      signed 1 a.toNat + signed 1 m.toNat + c.toNat ≤ 127)
  judge : after.flags.Judge after.a

namespace Registers

/-- Alike in A, and in the four flags that arithmetic sets.  Of anything else nothing is said. -/
structure Agree (r r' : Registers) : Prop where
  a : r.a = r'.a
  carry : r.flags.carry = r'.flags.carry
  overflow : r.flags.overflow = r'.flags.overflow
  negative : r.flags.negative = r'.flags.negative
  zero : r.flags.zero = r'.flags.zero

end Registers

/-- Flags that judge the same byte are alike in the negative flag. -/
theorem Flags.Judge.negative_eq {f g : Flags} {v : UInt8} (hf : f.Judge v) (hg : g.Judge v) :
    f.negative = g.negative :=
  Bool.eq_iff_iff.mpr (hf.negative.trans hg.negative.symm)

theorem Flags.Judge.zero_eq {f g : Flags} {v : UInt8} (hf : f.Judge v) (hg : g.Judge v) :
    f.zero = g.zero :=
  Bool.eq_iff_iff.mpr (hf.zero.trans hg.zero.symm)

/-- The law leaves nothing open: any two that come under it with the same bytes and carry are alike. -/
theorem Sums.agree {a m : UInt8} {c : Bool} {r r' : Registers} (h : Sums a m c r)
    (h' : Sums a m c r') : r.Agree r' := by
  have ha : r.a = r'.a := UInt8.toNat_inj.mp (h.sum.trans h'.sum.symm)
  have hjudge : r.flags.Judge r'.a := ha ▸ h.judge
  exact {
    a := ha
    carry := Bool.eq_iff_iff.mpr (h.carry.trans h'.carry.symm)
    overflow := Bool.eq_iff_iff.mpr (h.overflow.trans h'.overflow.symm)
    negative := hjudge.negative_eq h'.judge
    zero := hjudge.zero_eq h'.judge }

/-- It does not depend on where in the program the sum was computed, nor on how many cycles it took. -/
theorem Sums.elsewhere {a m : UInt8} {c : Bool} {r : Registers} (h : Sums a m c r)
    (pc latch : UInt16) (cycles : UInt64) :
    Sums a m c { r with pc, addressLatch := latch, cycles } :=
  ⟨h.sum, h.carry, h.overflow, h.judge⟩

namespace Registers

variable {r : Registers} (m : UInt8)

/-- In binary mode the routine of the addition comes under the law, with its operand and the carry that came
    in. -/
theorem sums_add (hbinary : r.flags.decimal = false) : Sums r.a m r.flags.carry (r.add m) := by
  have hsum : (r.add m).a.toNat = (r.a.toNat + m.toNat + r.flags.carry.toNat) % 256 := by
    unfold add
    rw [hbinary]
    exact UInt8.toNat_ofNat'
  refine ⟨hsum, ?_, ?_, Flags.judge_setZN _ _⟩
  · unfold add
    rw [hbinary]
    exact decide_eq_true_iff
  -- the routine sets overflow by comparing signs, the law speaks of the range
  · rw [← overflow_iff _ _ _ _ hsum]
    unfold add
    rw [hbinary]
    rfl

/-- In binary mode the routine of the subtraction comes under it with the complement of its operand.  The
    routine subtracts with a borrow, which is a carry turned around. -/
theorem sums_subtract (hbinary : r.flags.decimal = false) :
    Sums r.a (255 - m) r.flags.carry (r.subtract m) := by
  have hm : m.toNat < 256 := m.toNat_lt
  have hcomplement := toNat_complement m
  have hborrow : ((!r.flags.carry).toNat : Int) = 1 - r.flags.carry.toNat := by
    cases r.flags.carry <;> rfl
  have hsum : (r.subtract m).a.toNat =
      (r.a.toNat + (255 - m).toNat + r.flags.carry.toNat) % 256 := by
    unfold subtract
    rw [hbinary, hcomplement]
    show (UInt8.ofNat ((r.a.toNat - m.toNat - (!r.flags.carry).toNat : Int) % 256).toNat).toNat = _
    rw [hborrow, UInt8.toNat_ofNat']
    omega
  -- a byte and its complement differ in their sign
  have hsigns : signsDiffer r.a m = !signsDiffer r.a (255 - m) := by
    rw [Bool.eq_iff_iff, Bool.not_eq_true', ← Bool.not_eq_true, signsDiffer_iff, signsDiffer_iff,
      hcomplement]
    omega
  refine ⟨hsum, ?_, ?_, Flags.judge_setZN _ _⟩
  · rw [hcomplement]
    unfold subtract
    rw [hbinary]
    show decide ((0 : Int) ≤ r.a.toNat - m.toNat - (!r.flags.carry).toNat) = true ↔ _
    rw [hborrow, decide_eq_true_iff]
    omega
  · rw [← overflow_iff _ _ _ _ hsum, ← hsigns, Bool.and_comm]
    rfl

/-- A comparison of the byte `v` of some register with `m`: A and overflow have no part in it. -/
structure Compares (v m : UInt8) (before after : Registers) : Prop where
  a : after.a = before.a
  overflow : after.flags.overflow = before.flags.overflow
  /-- It tells whether the register is at least the operand. -/
  carry : after.flags.carry = true ↔ m.toNat ≤ v.toNat
  /-- And whether the two are the same. -/
  zero : after.flags.zero = true ↔ v = m
  /-- Any subtraction from a set carry leaves these three flags alike. -/
  subtracts : ∀ difference, Sums v (255 - m) true difference →
    after.flags.carry = difference.flags.carry ∧ after.flags.zero = difference.flags.zero ∧
      after.flags.negative = difference.flags.negative

/-- The routine of the comparison is a comparison in this sense, whatever register the byte is from. -/
theorem compares_compare (r : Registers) (v m : UInt8) : Compares v m r (r.compare v m) := by
  have hjudge : (r.compare v m).flags.Judge (v - m) := Flags.judge_setZN _ _
  have hcarry : (r.compare v m).flags.carry = true ↔ m.toNat ≤ v.toNat := decide_eq_true_iff
  have hm : m.toNat < 256 := m.toNat_lt
  have hv : v.toNat < 256 := v.toNat_lt
  refine ⟨rfl, rfl, hcarry, ?_, ?_⟩
  · rw [hjudge.zero, UInt8.sub_eq_iff_eq_add, UInt8.zero_add]
  · intro difference hsums
    have hcomplement := toNat_complement m
    -- the difference is what such a subtraction leaves in A, so both judge the same byte
    have ha : difference.a = v - m := by
      refine UInt8.toNat_inj.mp (hsums.sum.trans ?_)
      rw [hcomplement, UInt8.toNat_sub]
      show (v.toNat + (255 - m.toNat) + 1) % 256 = (256 - m.toNat + v.toNat) % 256
      omega
    have hdifference : difference.flags.Judge (v - m) := ha ▸ hsums.judge
    refine ⟨Bool.eq_iff_iff.mpr ?_, hjudge.zero_eq hdifference, hjudge.negative_eq hdifference⟩
    rw [hcarry, hsums.carry, hcomplement]
    show m.toNat ≤ v.toNat ↔ 256 ≤ v.toNat + (255 - m.toNat) + 1
    omega

end Registers

/-! ## Cycles -/

namespace Processor

/-- The byte that the instruction at the program counter works on, wherever its mode has it come from. -/
abbrev argument (p : Processor Flat) : UInt8 :=
  p.current.mode.argument p.registers p.ram

/-- The byte in a place before the instruction at the program counter is executed. -/
abbrev byteIn (p : Processor Flat) (place : Place) : UInt8 :=
  place.byte p.current p.registers p.ram p.registers p.ram

/-- At a documented instruction of this mnemonic, with no request pending that could come before it. -/
structure Poised (p : Processor Flat) (mnemonic : Mnemonic) : Prop where
  quiet : p.world.panel.requests = {}
  documented : ¬Instruction.Undocumented (p.ram.read p.registers.pc)
  mnemonic : p.current.mnemonic = mnemonic

/-- At an instruction of this mnemonic with decimal mode clear, this byte in A, this operand and this
    carry. -/
structure Binary (p : Processor Flat) (mnemonic : Mnemonic) (a m : UInt8) (carry : Bool) : Prop
    extends p.Poised mnemonic where
  binary : p.registers.flags.decimal = false
  a : p.registers.a = a
  argument : p.argument = m
  carry : p.registers.flags.carry = carry

/-- The cycle ends without a fault, and `Q` holds of the registers then. -/
def Yields (p : Processor Flat) (j : Journal) (Q : Registers → Prop) : Prop :=
  (∃ cycles, (p.cycle.run j).1.1 = .ok cycles) ∧ Q (p.cycle.run j).1.2.registers

variable {p : Processor Flat} {mnemonic : Mnemonic} {a m : UInt8} {carry : Bool}

/-- What does not depend on the place in the program, nor on the counter, can be read off
    `registersAfter`. -/
theorem Poised.yields (h : p.Poised mnemonic) (j : Journal) {Q : Registers → Prop}
    (hQ : ∀ pc latch cycles,
      Q { p.current.registersAfter p.registers p.ram with pc, addressLatch := latch, cycles }) :
    p.Yields j Q := by
  obtain ⟨houtcome, hregisters, -, -⟩ := cycled_executes h.quiet h.documented
  unfold Yields
  rw [p.fst_cycle j, hregisters]
  exact ⟨⟨_, houtcome⟩, hQ _ _ _⟩

/-- What an addition leaves in the registers is what its routine leaves there. -/
theorem Poised.after_adc (h : p.Poised .adc) :
    p.current.registersAfter p.registers p.ram = p.registers.add p.argument := by
  unfold Instruction.registersAfter
  rw [h.mnemonic]
  rfl

theorem Poised.after_sbc (h : p.Poised .sbc) :
    p.current.registersAfter p.registers p.ram = p.registers.subtract p.argument := by
  unfold Instruction.registersAfter
  rw [h.mnemonic]
  rfl

/-- A cycle at an addition in binary mode succeeds, and comes under the law. -/
theorem Binary.adds (h : p.Binary .adc a m carry) (j : Journal) : p.Yields j (Sums a m carry) := by
  have hsums := p.registers.sums_add p.argument h.binary
  rw [← h.toPoised.after_adc, h.a, h.argument, h.carry] at hsums
  exact h.toPoised.yields j hsums.elsewhere

/-- A cycle at a subtraction in binary mode succeeds, and comes under the law with the complement of its
    operand. -/
theorem Binary.subtracts (h : p.Binary .sbc a m carry) (j : Journal) :
    p.Yields j (Sums a (255 - m) carry) := by
  have hsums := p.registers.sums_subtract p.argument h.binary
  rw [← h.toPoised.after_sbc, h.a, h.argument, h.carry] at hsums
  exact h.toPoised.yields j hsums.elsewhere

/-- The byte that a comparison routine looks at is the one that the table of places names. -/
theorem comparedRegister?_eq {place : Place} (h : mnemonic.compares? = some place) :
    Instruction.comparedRegister? p.registers mnemonic = some (p.byteIn place) := by
  cases mnemonic with
  -- these three are the only ones that the table has a place for
  | cmp | cpx | cpy =>
    obtain rfl := Option.some.inj h
    rfl
  | _ => cases h

/-- What the comparison of a register leaves does not depend on the decimal mode, so nothing is asked of
    the flags here. -/
theorem Poised.compares (h : p.Poised mnemonic) {place : Place}
    (hplace : mnemonic.compares? = some place) (j : Journal) :
    p.Yields j (Registers.Compares (p.byteIn place) p.argument p.registers) := by
  have hserves : mnemonic.handler = .compare := by
    revert hplace
    cases mnemonic <;> first | exact fun _ => rfl | exact fun h => nomatch h
  -- the table of the routines and that of the places name the same register
  have hafter : p.current.registersAfter p.registers p.ram =
      p.registers.compare (p.byteIn place) p.argument := by
    unfold Instruction.registersAfter
    rw [h.mnemonic, hserves]
    dsimp only
    rw [comparedRegister?_eq hplace, Option.getD_some]
  have hcompares := p.registers.compares_compare (p.byteIn place) p.argument
  rw [← hafter] at hcompares
  exact h.yields j fun _ _ _ => ⟨hcompares.a, hcompares.overflow, hcompares.carry, hcompares.zero,
    hcompares.subtracts⟩

/-- Binary arithmetic comes under one law.  Wherever its operand `m` comes from, an addition with decimal
    mode clear leaves the sum of A, `m` and the carry, with the flags of that sum.

    A subtraction of `m` leaves what an addition of `255 - m` to the same A with the same carry leaves.  A
    comparison, in decimal mode as well, leaves A and overflow alone and tells whether the register is at
    least `m` and whether it is `m`; and what it leaves in carry, zero and negative is what a subtraction of
    `m` from that register with the carry set would leave there. -/
theorem binary_arithmetic (p : Processor Flat) (j : Journal) :
    (∀ a m carry, p.Binary .adc a m carry → p.Yields j (Sums a m carry)) ∧
    (∀ a m carry, p.Binary .sbc a m carry → p.Yields j fun r => Sums a (255 - m) carry r ∧
      ∀ (p' : Processor Flat) (k : Journal), p'.Binary .adc a (255 - m) carry →
        p'.Yields k r.Agree) ∧
    (∀ mnemonic place, p.Poised mnemonic → mnemonic.compares? = some place →
      p.Yields j fun r => Registers.Compares (p.byteIn place) p.argument p.registers r ∧
        ∀ (p' : Processor Flat) (k : Journal), p'.Binary .sbc (p.byteIn place) p.argument true →
          p'.Yields k fun r' => r.flags.carry = r'.flags.carry ∧ r.flags.zero = r'.flags.zero ∧
            r.flags.negative = r'.flags.negative) := by
  refine ⟨fun a m carry h => h.adds j, fun a m carry h => ?_, fun mnemonic place h hplace => ?_⟩
  · obtain ⟨hends, hsums⟩ := h.subtracts j
    refine ⟨hends, hsums, fun p' k h' => ?_⟩
    obtain ⟨hends', hsums'⟩ := h'.adds k
    exact ⟨hends', hsums.agree hsums'⟩
  · obtain ⟨hends, hcompares⟩ := h.compares hplace j
    refine ⟨hends, hcompares, fun p' k h' => ?_⟩
    obtain ⟨hends', hsums'⟩ := h'.subtracts k
    exact ⟨hends', hcompares.subtracts _ hsums'⟩

/-- A processor at some code, with 127 in A, 66 in X, and a 1 in the memory that ($20),Y points at. -/
def attending (code : List UInt8) (flags : Flags) : Processor Flat where
  registers := { pc := 0x0400, a := 0x7F, x := 0x42, y := 1, flags }
  world := { memory := ((({} : Flat).storeAt 0x0400 code).storeAt 0x20 [0xFF, 0x10]).write 0x1100 1 }

/-- An addition, a subtraction and a comparison on it.  CPX #$60 finds X to be less than its operand, where
    A is more. -/
theorem binary_arithmetic_attending :
    let adding := attending [0x71, 0x20] {}
    let taking := attending [0xE9, 0xFE] {}
    let comparing := attending [0xE0, 0x60] { decimal := true }
    let borrowing := { attending [0xE9, 0x60] { carry := true } with registers.a := 0x42 }
    adding.Binary .adc 0x7F 1 false ∧ taking.Binary .sbc 0x7F 0xFE false ∧ comparing.Poised .cpx ∧
      borrowing.Binary .sbc 0x42 0x60 true ∧ Mnemonic.compares? .cpx = some .x ∧
      adding.Yields {} (Sums 0x7F 1 false) ∧
      (taking.cycle.run {}).1.2.registers.Agree (adding.cycle.run {}).1.2.registers ∧
      comparing.Yields {} (Registers.Compares 0x42 0x60 comparing.registers) ∧
      (comparing.cycle.run {}).1.2.registers.flags.carry =
        (borrowing.cycle.run {}).1.2.registers.flags.carry := by
  intro adding taking comparing borrowing
  have hadding : adding.Binary .adc 0x7F 1 false :=
    ⟨⟨rfl, by decide +kernel, by decide +kernel⟩, rfl, rfl, by decide +kernel, rfl⟩
  have htaking : taking.Binary .sbc 0x7F 0xFE false :=
    ⟨⟨rfl, by decide +kernel, by decide +kernel⟩, rfl, rfl, by decide +kernel, rfl⟩
  have hcomparing : comparing.Poised .cpx := ⟨rfl, by decide +kernel, by decide +kernel⟩
  have hborrowing : borrowing.Binary .sbc 0x42 0x60 true :=
    ⟨⟨rfl, by decide +kernel, by decide +kernel⟩, rfl, rfl, by decide +kernel, rfl⟩
  have hargument : comparing.argument = 0x60 := by decide +kernel
  obtain ⟨hadds, -, -⟩ := binary_arithmetic adding {}
  obtain ⟨-, hsubtracts, -⟩ := binary_arithmetic taking {}
  obtain ⟨-, -, hcompares⟩ := binary_arithmetic comparing {}
  obtain ⟨-, -, hagrees⟩ := hsubtracts 0x7F 0xFE false htaking
  obtain ⟨hends, hcompared, hflags⟩ := hcompares .cpx .x hcomparing rfl
  rw [hargument] at hcompared hflags
  exact ⟨hadding, htaking, hcomparing, hborrowing, rfl, hadds 0x7F 1 false hadding,
    (hagrees adding {} hadding).2, ⟨hends, hcompared⟩, (hflags borrowing {} hborrowing).2.1⟩

end Processor

end Breadboard
