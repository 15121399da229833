import Breadboard.Proofs.Sums
/-
  Decimal arithmetic.

  With decimal mode set, both bytes are weighed with 160 for a unit of the high digit and 1 for a unit of the
  low digit, the weights are added or subtracted, and the total is written as tens and ones.  A unit of the
  high digit thus counts 256 in what is written, which is beyond the byte that is kept: A comes from the low
  digits alone (`regrouped`), and all that is left of the high digits is the carry.

  A total below zero is written digit by digit with its sign, so a subtraction that borrows leaves the
  complement of what the other subtraction leaves (`decimalDigits_neg`).

  `wordSum?` and `wordDifference?` do the same arithmetic in words of 32 bits and give up at the first number
  that such a word cannot hold.  They never do.
-/
namespace Breadboard

/-! ## Tens and ones -/

/-- Sixteen for every ten, rounded down, and one for every one.  Below zero this is not what the processor
    writes. -/
def regrouped (n : Int) : Int :=
  16 * (n / 10) + n % 10

/-- A total that is not below zero is written so, since quotients are then rounded down. -/
theorem decimalDigits_of_nonneg {n : Int} (h : 0 ≤ n) : decimalDigits n = regrouped n := by
  rw [decimalDigits, Int.tdiv_eq_ediv_of_nonneg h, Int.tmod_eq_emod_of_nonneg h]
  rfl

/-- A total below zero is written like the total above zero, with its sign turned. -/
theorem decimalDigits_neg (n : Int) : decimalDigits (-n) = -decimalDigits n := by
  rw [decimalDigits, decimalDigits, Int.neg_tdiv, Int.neg_tmod]
  omega

/-- A weight of 160 is 256 in tens and ones, and this is why the high digits do not get into A. -/
theorem regrouped_weight (high low : Int) : regrouped (160 * high + low) = 256 * high + regrouped low := by
  unfold regrouped
  omega

/-- The high and the low digit of a byte weigh 160 and 1. -/
theorem decimalWeight_eq (b : UInt8) :
    decimalWeight b = 160 * (b.toNat / 16) + b.toNat % 16 :=
  forall_byte (P := fun b => decimalWeight b = 160 * (b.toNat / 16) + b.toNat % 16)
    (by decide +kernel) b

/-- No byte weighs as much as 2416, the weight of sixteen in both digits. -/
theorem decimalWeight_lt (b : UInt8) : decimalWeight b < 2416 := by
  have hb : b.toNat < 256 := b.toNat_lt
  rw [decimalWeight_eq]
  omega

/-! ## In words of 32 bits -/

/-- A number, if a word of 32 bits with a sign can hold it. -/
def inWord? (n : Int) : Option Int :=
  if -2147483648 ≤ n ∧ n < 2147483648 then some n else none

/-- Numbers of up to six digits are far within such a word. -/
theorem inWord?_eq {n : Int} (h : -1000000 < n) (h' : n < 1000000) : inWord? n = some n :=
  if_pos ⟨by omega, by omega⟩

/-- The weight of a byte: first the high digit times ten, then the sum with the low one. -/
def wordWeight? (b : UInt8) : Option Int := do
  let tens ← inWord? (10 * (b &&& 0xF0).toNat)
  inWord? (tens + (b &&& 0x0F).toNat)

/-- A total as tens and ones, in the order in which the quotient and the remainder are taken. -/
def wordDigits? (n : Int) : Option Int := do
  let tens ← inWord? (n.tdiv 10)
  let high ← inWord? (16 * tens)
  let low ← inWord? (n.tmod 10)
  inWord? (high + low)

/-- The decimal sum of two bytes: the four digits are weighed and summed up from left to right, and the
    total is written. -/
def wordSum? (a m : UInt8) : Option Int := do
  let first ← wordWeight? a
  let tens ← inWord? (10 * (m &&& 0xF0).toNat)
  let most ← inWord? (first + tens)
  let total ← inWord? (most + (m &&& 0x0F).toNat)
  wordDigits? total

/-- The decimal difference of two bytes: each of them is weighed by itself, and the difference is written. -/
def wordDifference? (a m : UInt8) : Option Int := do
  let first ← wordWeight? a
  let second ← wordWeight? m
  let total ← inWord? (first - second)
  wordDigits? total

/-- No step of the weighing leaves the word, so its result is the weight. -/
theorem wordWeight?_eq (b : UInt8) : wordWeight? b = some (decimalWeight b : Int) := by
  have hweight := decimalWeight_lt b
  unfold decimalWeight at hweight
  unfold wordWeight? decimalWeight
  simp -implicitDefEqProofs (disch := omega) only [inWord?_eq, Option.bind_eq_bind, Option.bind_some]
  push_cast
  rfl

/-- Nor does any step of the writing, for totals of up to four digits. -/
theorem wordDigits?_eq {n : Int} (h : -10000 < n) (h' : n < 10000) :
    wordDigits? n = some (decimalDigits n) := by
  have hhigh : (n.tdiv 10).natAbs = n.natAbs / 10 := Int.natAbs_tdiv n 10
  have hlow : (n.tmod 10).natAbs = n.natAbs % 10 := Int.natAbs_tmod n 10
  unfold wordDigits?
  -- each bound is settled from these two, as the sign does not matter for it
  simp -implicitDefEqProofs (disch := omega) only [inWord?_eq, Option.bind_eq_bind, Option.bind_some]
  rfl

/-- So the sum in words of 32 bits is the sum that the processor computes. -/
theorem wordSum?_eq (a m : UInt8) :
    wordSum? a m = some (decimalDigits (decimalWeight a + decimalWeight m)) := by
  have ha := decimalWeight_lt a
  have hm := decimalWeight_lt m
  have hsplit : (decimalWeight m : Int) = 10 * (m &&& 0xF0).toNat + (m &&& 0x0F).toNat := by
    rw [decimalWeight]
    push_cast
    rfl
  unfold wordSum?
  simp -implicitDefEqProofs (disch := omega) only [wordWeight?_eq, inWord?_eq, wordDigits?_eq, Option.bind_eq_bind,
    Option.bind_some]
  rw [hsplit, Int.add_assoc]

theorem wordDifference?_eq (a m : UInt8) :
    wordDifference? a m = some (decimalDigits (decimalWeight a - decimalWeight m)) := by
  have ha := decimalWeight_lt a
  have hm := decimalWeight_lt m
  unfold wordDifference?
  simp -implicitDefEqProofs (disch := omega) only [wordWeight?_eq, inWord?_eq, wordDigits?_eq, Option.bind_eq_bind,
    Option.bind_some]

/-! ## The two laws -/

/-- A has become the decimal sum of two bytes.  The carry that came in has no part in it, and overflow is as
    it was. -/
structure DecimalSum (a m : UInt8) (before after : Registers) : Prop where
  sum : (after.a.toNat : Int) = regrouped (a.toNat % 16 + m.toNat % 16 : Nat)
  carry : after.flags.carry = true ↔ 16 ≤ a.toNat ∨ 16 ≤ m.toNat
  overflow : after.flags.overflow = before.flags.overflow
  judge : after.flags.Judge after.a
  /-- Words of 32 bits are wide enough for it. -/
  inWords : ∃ total, wordSum? a m = some total ∧ after.a = UInt8.ofInt total ∧
    (after.flags.carry = true ↔ 0xFF < total)

/-- A has become the decimal difference of two bytes, whatever the carry was. -/
structure DecimalDifference (a m : UInt8) (after : Registers) : Prop where
  carry : after.flags.carry = true ↔ m.toNat ≤ a.toNat
  difference : (after.a.toNat : Int) =
    (if m.toNat ≤ a.toNat then regrouped ((a.toNat % 16 : Nat) - (m.toNat % 16 : Nat))
      else -regrouped ((m.toNat % 16 : Nat) - (a.toNat % 16 : Nat))) % 256
  overflow : after.flags.overflow = true ↔
    ¬(128 ≤ a.toNat ↔ 128 ≤ m.toNat) ∧ ¬(128 ≤ a.toNat ↔ 128 ≤ after.a.toNat)
  judge : after.flags.Judge after.a
  /-- Words of 32 bits are wide enough for it. -/
  inWords : ∃ total, wordDifference? a m = some total ∧ after.a = UInt8.ofInt total ∧
    (after.flags.carry = true ↔ 0 ≤ total)

/-- The law of a sum settles A and the carry.  Overflow is what it was before, and may be different. -/
theorem DecimalSum.agree {a m : UInt8} {b b' r r' : Registers} (h : DecimalSum a m b r)
    (h' : DecimalSum a m b' r') : r.a = r'.a ∧ r.flags.carry = r'.flags.carry :=
  ⟨UInt8.toNat_inj.mp (Int.ofNat_inj.mp (h.sum.trans h'.sum.symm)),
    Bool.eq_iff_iff.mpr (h.carry.trans h'.carry.symm)⟩

/-- The law of a difference leaves nothing open, not even overflow. -/
theorem DecimalDifference.agree {a m : UInt8} {r r' : Registers} (h : DecimalDifference a m r)
    (h' : DecimalDifference a m r') : r.Agree r' := by
  have ha : r.a = r'.a :=
    UInt8.toNat_inj.mp (Int.ofNat_inj.mp (h.difference.trans h'.difference.symm))
  have hjudge : r.flags.Judge r'.a := ha ▸ h.judge
  exact {
    a := ha
    carry := Bool.eq_iff_iff.mpr (h.carry.trans h'.carry.symm)
    overflow := Bool.eq_iff_iff.mpr (by rw [h.overflow, h'.overflow, ha])
    negative := hjudge.negative_eq h'.judge
    zero := hjudge.zero_eq h'.judge }

/-- What is written for the sum of two bytes: the high digits count 256 each, and the low digits are
    regrouped. -/
theorem decimalDigits_sum (a m : UInt8) :
    decimalDigits (decimalWeight a + decimalWeight m) =
      256 * (a.toNat / 16 + m.toNat / 16 : Nat) + regrouped (a.toNat % 16 + m.toNat % 16 : Nat) := by
  rw [decimalDigits_of_nonneg (by omega), ← regrouped_weight, decimalWeight_eq, decimalWeight_eq]
  congr 1
  omega

/-- What is written for a difference that is not below zero, with the digits subtracted in pairs. -/
theorem decimalDigits_difference {a m : UInt8} (h : m.toNat ≤ a.toNat) :
    decimalDigits (decimalWeight a - decimalWeight m) =
      256 * ((a.toNat / 16 : Nat) - (m.toNat / 16 : Nat)) +
        regrouped ((a.toNat % 16 : Nat) - (m.toNat % 16 : Nat)) := by
  have hweights : decimalWeight m ≤ decimalWeight a := by
    rw [decimalWeight_eq, decimalWeight_eq]
    omega
  rw [decimalDigits_of_nonneg (by omega), ← regrouped_weight, decimalWeight_eq, decimalWeight_eq]
  congr 1
  omega

/-- A number that is cut down to a byte is what is left of it modulo 256. -/
theorem byte_ofInt (n : Int) : ((UInt8.ofInt n).toNat : Int) = n % 256 := by
  show ((UInt8.ofNat (n % 256).toNat).toNat : Int) = _
  rw [UInt8.toNat_ofNat']
  omega

/-- A number that is not below zero is the same byte, cut down as a natural number or as an integer. -/
theorem ofNat_toNat_of_nonneg {n : Int} (h : 0 ≤ n) : UInt8.ofNat n.toNat = UInt8.ofInt n := by
  refine UInt8.toNat_inj.mp (Int.ofNat_inj.mp ?_)
  rw [byte_ofInt, UInt8.toNat_ofNat']
  omega

namespace Registers

variable {r : Registers} (m : UInt8)

/-- In decimal mode the routine of the addition comes under its law.  Everything is read off the one total
    that is written. -/
theorem decimalSum_add (hdecimal : r.flags.decimal = true) : DecimalSum r.a m r (r.add m) := by
  have hwritten := decimalDigits_sum r.a m
  have hlow : 0 ≤ regrouped (r.a.toNat % 16 + m.toNat % 16 : Nat) ∧
      regrouped (r.a.toNat % 16 + m.toNat % 16 : Nat) < 256 := by
    unfold regrouped
    omega
  generalize htotal : decimalDigits (decimalWeight r.a + decimalWeight m) = total at hwritten
  -- the low digits alone fit into a byte, and the high ones are a multiple of 256
  have hnonneg : 0 ≤ total := by omega
  have ha : (r.add m).a = UInt8.ofInt total := by
    unfold add
    rw [hdecimal, if_pos rfl, htotal]
    exact ofNat_toNat_of_nonneg hnonneg
  have hcarry : (r.add m).flags.carry = true ↔ 0xFF < total := by
    unfold add
    rw [hdecimal, if_pos rfl, htotal]
    show decide (0xFF < total.toNat) = true ↔ _
    rw [decide_eq_true_iff]
    omega
  refine ⟨?_, ?_, ?_, Flags.judge_setZN _ _, total, ?_, ha, hcarry⟩
  · rw [ha, byte_ofInt]
    omega
  · rw [hcarry]
    omega
  · unfold add
    rw [hdecimal]
    rfl
  · rw [wordSum?_eq, htotal]

/-- In decimal mode the routine of the subtraction comes under its law, by cases on whether it borrows. -/
theorem decimalDifference_subtract (hdecimal : r.flags.decimal = true) :
    DecimalDifference r.a m (r.subtract m) := by
  have hbytes : r.a.toNat < 256 ∧ m.toNat < 256 := ⟨r.a.toNat_lt, m.toNat_lt⟩
  generalize htotal : decimalDigits (decimalWeight r.a - decimalWeight m) = total
  have ha : (r.subtract m).a = UInt8.ofInt total := by
    unfold subtract
    rw [hdecimal, if_pos rfl, htotal]
  have hcarry : (r.subtract m).flags.carry = true ↔ 0 ≤ total := by
    unfold subtract
    rw [hdecimal, if_pos rfl, htotal]
    exact decide_eq_true_iff
  have hoverflow : (r.subtract m).flags.overflow =
      (signsDiffer r.a (r.subtract m).a && signsDiffer r.a m) := rfl
  -- a difference below zero is that of the bytes the other way round, with the sign turned
  have hwritten : total =
      if m.toNat ≤ r.a.toNat then
        256 * ((r.a.toNat / 16 : Nat) - (m.toNat / 16 : Nat)) +
          regrouped ((r.a.toNat % 16 : Nat) - (m.toNat % 16 : Nat))
      else
        -(256 * ((m.toNat / 16 : Nat) - (r.a.toNat / 16 : Nat)) +
          regrouped ((m.toNat % 16 : Nat) - (r.a.toNat % 16 : Nat))) := by
    by_cases hle : m.toNat ≤ r.a.toNat
    · rw [if_pos hle, ← htotal, decimalDigits_difference hle]
    · rw [if_neg hle, ← htotal, ← Int.neg_sub, decimalDigits_neg,
        decimalDigits_difference (Nat.le_of_not_le hle)]
  refine ⟨?_, ?_, ?_, Flags.judge_setZN _ _, total, ?_, ha, hcarry⟩
  · rw [hcarry, hwritten]
    unfold regrouped
    split <;> omega
  · rw [ha, byte_ofInt, hwritten]
    split <;> omega
  · rw [hoverflow, Bool.and_eq_true, signsDiffer_iff, signsDiffer_iff]
    exact and_comm
  · rw [wordDifference?_eq, htotal]

end Registers

/-! ## Cycles -/

namespace Processor

/-- At an instruction of this mnemonic with decimal mode set, this byte in A and this operand; the carry may
    be either. -/
structure Decimal (p : Processor Flat) (mnemonic : Mnemonic) (a m : UInt8) : Prop
    extends p.Poised mnemonic where
  decimal : p.registers.flags.decimal = true
  a : p.registers.a = a
  argument : p.argument = m

variable {p : Processor Flat} {a m : UInt8}

/-- A cycle at an addition in decimal mode succeeds, and comes under the law. -/
theorem Decimal.adds (h : p.Decimal .adc a m) (j : Journal) :
    p.Yields j (DecimalSum a m p.registers) := by
  have hsum := p.registers.decimalSum_add p.argument h.decimal
  rw [← h.toPoised.after_adc, h.a, h.argument] at hsum
  exact h.toPoised.yields j fun _ _ _ =>
    ⟨hsum.sum, hsum.carry, hsum.overflow, hsum.judge, hsum.inWords⟩

theorem Decimal.subtracts (h : p.Decimal .sbc a m) (j : Journal) :
    p.Yields j (DecimalDifference a m) := by
  have hdifference := p.registers.decimalDifference_subtract p.argument h.decimal
  rw [← h.toPoised.after_sbc, h.a, h.argument] at hdifference
  exact h.toPoised.yields j fun _ _ _ =>
    ⟨hdifference.carry, hdifference.difference, hdifference.overflow, hdifference.judge,
      hdifference.inWords⟩

/-- Arithmetic with decimal mode set, in closed form.  Wherever its operand `m` comes from, an addition
    leaves in A what the low digits of A and `m` come to in tens and ones, sets the carry if either byte has
    a high digit, and leaves overflow alone.  A subtraction sets the carry if A is at least `m`, and leaves
    what the low digits come to, or the complement of that if it has to borrow.

    The carry that comes in makes no difference to either: any other processor that has the same byte in A
    and the same operand gets the same A and carry, and after a subtraction the same four flags. -/
theorem decimal_arithmetic (p : Processor Flat) (j : Journal) :
    (∀ a m, p.Decimal .adc a m → p.Yields j fun r => DecimalSum a m p.registers r ∧
      ∀ (p' : Processor Flat) (k : Journal), p'.Decimal .adc a m →
        p'.Yields k fun r' => r.a = r'.a ∧ r.flags.carry = r'.flags.carry) ∧
    (∀ a m, p.Decimal .sbc a m → p.Yields j fun r => DecimalDifference a m r ∧
      ∀ (p' : Processor Flat) (k : Journal), p'.Decimal .sbc a m → p'.Yields k r.Agree) := by
  refine ⟨fun a m h => ?_, fun a m h => ?_⟩
  · obtain ⟨hends, hsum⟩ := h.adds j
    refine ⟨hends, hsum, fun p' k h' => ?_⟩
    obtain ⟨hends', hsum'⟩ := h'.adds k
    exact ⟨hends', hsum.agree hsum'⟩
  · obtain ⟨hends, hdifference⟩ := h.subtracts j
    refine ⟨hends, hdifference, fun p' k h' => ?_⟩
    obtain ⟨hends', hdifference'⟩ := h'.subtracts k
    exact ⟨hends', hdifference.agree hdifference'⟩

/-- 127 and 1, once with the carry set and once with it clear, and 127 less 254. -/
theorem decimal_arithmetic_attending :
    let summing (carry : Bool) := attending [0x71, 0x20] { decimal := true, carry }
    let borrowing := attending [0xE9, 0xFE] { decimal := true, carry := true }
    (summing true).Decimal .adc 0x7F 1 ∧ borrowing.Decimal .sbc 0x7F 0xFE ∧
      ((summing true).cycle.run {}).1.2.registers.a = 0x16 ∧
      ((summing true).cycle.run {}).1.2.registers.a =
        ((summing false).cycle.run {}).1.2.registers.a ∧
      borrowing.Yields {} (DecimalDifference 0x7F 0xFE) := by
  intro summing borrowing
  have hadc : ∀ carry, (summing carry).Decimal .adc 0x7F 1 := by
    intro carry
    refine ⟨⟨rfl, ?_, ?_⟩, rfl, rfl, ?_⟩ <;> cases carry <;> decide +kernel
  have hsbc : borrowing.Decimal .sbc 0x7F 0xFE :=
    ⟨⟨rfl, by decide +kernel, by decide +kernel⟩, rfl, rfl, by decide +kernel⟩
  obtain ⟨-, hsum, hagree⟩ := (decimal_arithmetic (summing true) {}).1 0x7F 1 (hadc true)
  obtain ⟨hends, hdifference, -⟩ := (decimal_arithmetic borrowing {}).2 0x7F 0xFE hsbc
  refine ⟨hadc true, hsbc, ?_, (hagree (summing false) {} (hadc false)).2.1, hends, hdifference⟩
  exact UInt8.toNat_inj.mp (Int.ofNat_inj.mp hsum.sum)

end Processor

end Breadboard
