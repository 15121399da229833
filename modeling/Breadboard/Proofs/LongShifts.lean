import Mathlib.Data.List.Nodup
import Breadboard.Proofs.Listing
/-
  Shifts of numbers of any length, through memory.

  Doubling goes from the lowest byte up, with ASL and then ROL; halving goes from the highest byte down, with
  LSR and then ROR.  The bit that falls out of one byte waits in the carry for the next one.  `ripple` is what
  becomes of a row of bytes that way; what it means for the number that the bytes make up is arithmetic
  (`ripple_left`, `ripple_right`), by induction from the end where the shift begins.

  On the machine's side a row is any list of addresses that are all different (`reaches_code`).  The program
  does not have to lie in one piece with them or away from the end of the address space, it only has to be
  apart from what it writes.
-/
namespace Breadboard

/-! ## One byte -/

/-- A byte that is shifted up, with the bit that falls out counting 256, is twice the byte and the bit that
    comes in. -/
theorem toNat_shiftUp (v : UInt8) (c : Bool) :
    (shiftUp v c).1.toNat + 256 * (shiftUp v c).2.toNat = 2 * v.toNat + c.toNat := by
  revert v
  -- there are 256 bytes and two carries, so it can be tried out
  refine forall_byte ?_
  cases c <;> decide +kernel

/-- A byte that is shifted down is half of itself; the bit that comes in counts 256, and the one that falls
    out is left over. -/
theorem toNat_shiftDown (v : UInt8) (c : Bool) :
    2 * (shiftDown v c).1.toNat + (shiftDown v c).2.toNat = v.toNat + 256 * c.toNat := by
  revert v
  refine forall_byte ?_
  cases c <;> decide +kernel

/-! ## A row of bytes -/

/-- Which way a number is shifted.  To the left is up: towards the higher digits. -/
inductive Direction where
  | left | right
deriving DecidableEq, Repr

namespace Direction

/-- One byte is moved by one place, with a carry that comes in and one that goes out. -/
def moved : Direction → UInt8 → Bool → UInt8 × Bool
  | .left => shiftUp
  | .right => shiftDown

/-- A row of bytes, one after the other, each with the carry of the one before. -/
def ripple (direction : Direction) (c : Bool) : List UInt8 → List UInt8 × Bool
  | [] => ([], c)
  | v :: rest =>
    let moved := direction.moved v c
    let others := direction.ripple moved.2 rest
    (moved.1 :: others.1, others.2)

/-- What becomes of a row is settled byte by byte, and each byte hands its carry on. -/
theorem ripple_cons (direction : Direction) (c : Bool) (v : UInt8) (rest : List UInt8) :
    direction.ripple c (v :: rest) =
      ((direction.moved v c).1 :: (direction.ripple (direction.moved v c).2 rest).1,
        (direction.ripple (direction.moved v c).2 rest).2) :=
  rfl

end Direction

/-- No byte is added to the row, and none is lost. -/
theorem length_ripple (direction : Direction) (c : Bool) (bytes : List UInt8) :
    (direction.ripple c bytes).1.length = bytes.length := by
  induction bytes generalizing c with
  | nil => rfl
  | cons v rest ih => exact congrArg (· + 1) (ih _)

/-- From the lowest byte up, the row is doubled.  The carry that is left over in the end counts as much as
    one more byte would. -/
theorem ripple_left (c : Bool) (bytes : List UInt8) :
    littleEndian (Direction.left.ripple c bytes).1 +
        256 ^ bytes.length * (Direction.left.ripple c bytes).2.toNat =
      2 * littleEndian bytes + c.toNat := by
  induction bytes generalizing c with
  | nil =>
    show 0 + 1 * c.toNat = 2 * 0 + c.toNat
    omega
  | cons v rest ih =>
    have hbyte := toNat_shiftUp v c
    have hrest := ih (shiftUp v c).2
    rw [Direction.ripple_cons, littleEndian_cons, littleEndian_cons, List.length_cons, Nat.pow_succ,
      Nat.mul_right_comm]
    dsimp only [Direction.moved] at hrest ⊢
    omega

/-- The highest byte of a number comes first when its bytes are read backwards. -/
theorem littleEndian_reverse_cons (v : UInt8) (bytes : List UInt8) :
    littleEndian (v :: bytes).reverse = littleEndian bytes.reverse + 256 ^ bytes.length * v.toNat := by
  unfold littleEndian
  rw [List.reverse_cons, List.map_append, Nat.ofDigits_append, List.length_map, List.length_reverse]
  rfl

/-- From the highest byte down, the row is halved.  Here the row is the number's bytes backwards, and the
    carry that comes in counts as one more byte. -/
theorem ripple_right (c : Bool) (bytes : List UInt8) :
    2 * littleEndian (Direction.right.ripple c bytes).1.reverse +
        (Direction.right.ripple c bytes).2.toNat =
      littleEndian bytes.reverse + 256 ^ bytes.length * c.toNat := by
  induction bytes generalizing c with
  | nil =>
    show 2 * 0 + c.toNat = 0 + 1 * c.toNat
    omega
  | cons v rest ih =>
    have hrest := ih (shiftDown v c).2
    -- the highest byte counts as often as the rest has values
    have hbyte : 256 ^ rest.length * (2 * (shiftDown v c).1.toNat + (shiftDown v c).2.toNat) =
        256 ^ rest.length * (v.toNat + 256 * c.toNat) := by rw [toNat_shiftDown]
    rw [Nat.mul_add, Nat.mul_add, Nat.mul_left_comm, Nat.mul_left_comm _ 256] at hbyte
    rw [Direction.ripple_cons, littleEndian_reverse_cons, littleEndian_reverse_cons, length_ripple,
      List.length_cons, Nat.pow_succ, Nat.mul_right_comm]
    dsimp only [Direction.moved] at hrest ⊢
    omega

/-! ## The programs -/

open Processor

namespace Direction

/-- ASL or LSR for the first byte, ROL or ROR for the others, all of them with an address behind. -/
def opcode (first : Bool) : Direction → UInt8
  | .left => if first then 0x0E else 0x2E
  | .right => if first then 0x4E else 0x6E

/-- One instruction for each address, three bytes each; after the first one, all of them take the carry
    along. -/
def code (direction : Direction) (first : Bool) : List UInt16 → List UInt8
  | [] => []
  | address :: rest =>
    direction.opcode first :: lowByte address :: highByte address :: direction.code false rest

/-- The addresses of a number, in the order in which a shift goes through them. -/
def row (address : UInt16) (n : Nat) : Direction → List UInt16
  | .left => consecutive address n
  | .right => (consecutive address n).reverse

/-- The whole program for a number of `n` bytes: one instruction for each of them, the first without a
    carry. -/
def program (direction : Direction) (address : UInt16) (n : Nat) : List UInt8 :=
  direction.code true (direction.row address n)

variable {p : Processor Flat} {direction : Direction} {first : Bool}

theorem length_code (direction : Direction) (first : Bool) (row : List UInt16) :
    (direction.code first row).length = 3 * row.length := by
  induction row generalizing first with
  | nil => rfl
  | cons address rest ih =>
    have hrest := ih false
    simp only [code, List.length_cons] at hrest ⊢
    omega

/-- One instruction of the program: it moves the byte at its address and goes on behind itself.  The first
    one does not look at the carry. -/
theorem reaches_moved (hquiet : p.world.panel.requests = {}) {address : UInt16} {rest : List UInt8}
    (hcode : p.ram.Lists p.registers.pc
      (direction.opcode first :: lowByte address :: highByte address :: rest)) :
    ∃ q, p.Reaches q 1 6 ∧ q.registers.pc = p.registers.pc + 3 ∧
      q.ram = p.ram.write address
        (direction.moved (p.ram.read address) (!first && p.registers.flags.carry)).1 ∧
      q.registers.flags.carry =
        (direction.moved (p.ram.read address) (!first && p.registers.flags.carry)).2 := by
  simp only [Flat.lists_cons] at hcode
  obtain ⟨hopcode, hlow, hhigh, -⟩ := hcode
  have hword : word (p.ram.read (p.registers.pc + 1)) (p.ram.read (p.registers.pc + 1 + 1)) =
      address := by rw [hlow, hhigh, word_bytes]
  -- the four opcodes have the mode and the price in common
  have hplain : Instruction.Plain (direction.opcode first) := by
    cases direction <;> cases first <;> decide
  obtain ⟨q, hreach, hpasses⟩ := reaches_plain hquiet hopcode hplain
  have hprice : (Instruction.decode (direction.opcode first)).cycles = 6 := by
    cases direction <;> cases first <;> rfl
  have hregisters := hpasses.registers
  have hmemory := hpasses.memory
  rw [hprice] at hreach
  refine ⟨q, hreach, ?_, ?_, ?_⟩
  · rw [hregisters]
    cases direction <;> cases first <;> rfl
  · rw [hmemory, ← hword]
    cases direction <;> cases first <;> rfl
  · rw [hregisters, ← hword]
    cases direction <;> cases first <;> rfl

/-- One instruction after the other, by induction on the row.  What carries it is that no address comes
    twice, and that the program does not write on itself. -/
theorem reaches_code (hquiet : p.world.panel.requests = {}) {row : List UInt16} (hnodup : row.Nodup)
    (hfirst : first = true → row ≠ [])
    (hcode : p.ram.Lists p.registers.pc (direction.code first row))
    (hapart : ∀ address ∈ consecutive p.registers.pc (3 * row.length), address ∉ row) :
    ∃ q, p.Reaches q row.length (6 * row.length) ∧
      (row.map q.ram.read, q.registers.flags.carry) =
        direction.ripple (!first && p.registers.flags.carry) (row.map p.ram.read) ∧
      ∀ address ∉ row, q.ram.read address = p.ram.read address := by
  induction row generalizing p first with
  | nil =>
    obtain rfl : first = false := Bool.eq_false_iff.mpr fun h => hfirst h rfl
    exact ⟨p, reaches_refl p, rfl, fun _ _ => rfl⟩
  | cons address rest ih =>
    obtain ⟨hfresh, hnodup'⟩ := List.nodup_cons.mp hnodup
    obtain ⟨q, hreach, hpc, hram, hcarry⟩ := reaches_moved hquiet hcode
    have hbehind : ∀ x ∈ consecutive q.registers.pc (3 * rest.length), x ∉ address :: rest := by
      intro x hx
      refine hapart x ?_
      rw [List.length_cons, Nat.mul_succ, Nat.add_comm, consecutive_add]
      rw [hpc] at hx
      exact List.mem_append_right _ hx
    have hlisted : p.ram.Lists (p.registers.pc + 3) (direction.code false rest) := hcode.drop 3
    have hcode' : q.ram.Lists q.registers.pc (direction.code false rest) := by
      rw [hram, hpc]
      refine hlisted.write ?_ _
      rw [length_code, ← hpc]
      exact fun h => hbehind address h List.mem_cons_self
    -- the rest of the row has not been touched, and will not touch this byte again
    have hrow : rest.map q.ram.read = rest.map p.ram.read := by
      refine List.map_congr_left fun x hx => ?_
      have hne : x ≠ address := fun h => hfresh (h ▸ hx)
      rw [hram, Flat.read_write, if_neg hne]
    have hnext : (false : Bool) = true → rest ≠ [] := fun h => nomatch h
    obtain ⟨s, hreach', hripple, helsewhere⟩ := ih (hreach.quiet hquiet) hnodup' hnext hcode'
      fun x hx h => hbehind x hx (List.mem_cons_of_mem _ h)
    have hplace : s.ram.read address =
        (direction.moved (p.ram.read address) (!first && p.registers.flags.carry)).1 := by
      rw [helsewhere address hfresh, hram, Flat.read_write, if_pos rfl]
    refine ⟨s, ?_, ?_, ?_⟩
    · have hwhole := hreach.trans hreach'
      rwa [Nat.add_comm 1, Nat.add_comm 6, ← Nat.mul_succ] at hwhole
    · rw [hrow, Bool.not_false, Bool.true_and, hcarry] at hripple
      rw [List.map_cons, List.map_cons, ripple_cons, ← hripple, hplace]
    · intro x hx
      rw [List.mem_cons, not_or] at hx
      rw [helsewhere x hx.2, hram, Flat.read_write, if_neg hx.1]

/-- What becomes of a number of so many bytes: doubled, as far as it fits, or halved. -/
def shifted (size number : Nat) : Direction → Nat
  | .left => 2 * number % 256 ^ size
  | .right => number / 2

/-- When a one falls out of it: from the top when it is doubled, from the bottom when it is halved. -/
def Loses (size number : Nat) : Direction → Prop
  | .left => 256 ^ size ≤ 2 * number
  | .right => number % 2 = 1

/-- Whichever way the row goes, it has the addresses of the number. -/
theorem mem_row {x address : UInt16} {n : Nat} :
    x ∈ direction.row address n ↔ x ∈ consecutive address n := by
  cases direction with
  | left => exact Iff.rfl
  | right => exact List.mem_reverse

theorem length_row (direction : Direction) (address : UInt16) (n : Nat) :
    (direction.row address n).length = n := by
  cases direction with
  | left => exact length_consecutive address n
  | right => exact List.length_reverse.trans (length_consecutive address n)

/-- The carry that waits between two bytes cannot be seen in the number as a whole. -/
theorem of_ripple {m m' : Flat} {c : Bool} {address : UInt16} {n : Nat}
    (h : ((direction.row address n).map m'.read, c) =
      direction.ripple false ((direction.row address n).map m.read)) :
    littleEndian (m'.bytesAt address n) = direction.shifted n (littleEndian (m.bytesAt address n)) ∧
      (c = true ↔ direction.Loses n (littleEndian (m.bytesAt address n))) := by
  have hbefore := littleEndian_lt (m.bytesAt address n)
  have hafter := littleEndian_lt (m'.bytesAt address n)
  rw [Flat.length_bytesAt] at hbefore hafter
  cases direction with
  | left =>
    have hnumber := ripple_left false (m.bytesAt address n)
    have hripple : (m'.bytesAt address n, c) = Direction.left.ripple false (m.bytesAt address n) := h
    rw [← hripple, Flat.length_bytesAt] at hnumber
    show littleEndian (m'.bytesAt address n) = 2 * littleEndian (m.bytesAt address n) % 256 ^ n ∧
      (c = true ↔ 256 ^ n ≤ 2 * littleEndian (m.bytesAt address n))
    cases c with
    | false =>
      have hnumber : littleEndian (m'.bytesAt address n) = 2 * littleEndian (m.bytesAt address n) := by
        simpa using hnumber
      rw [← hnumber, Nat.mod_eq_of_lt hafter]
      exact ⟨rfl, by simpa using hafter⟩
    | true =>
      have hnumber : littleEndian (m'.bytesAt address n) + 256 ^ n =
          2 * littleEndian (m.bytesAt address n) := by simpa using hnumber
      rw [← hnumber, Nat.add_mod_right, Nat.mod_eq_of_lt hafter]
      exact ⟨rfl, by simp⟩
  | right =>
    -- here the row is the number's bytes backwards, and back again
    have hnumber := ripple_right false (m.bytesAt address n).reverse
    have hripple : ((m'.bytesAt address n).reverse, c) =
        Direction.right.ripple false (m.bytesAt address n).reverse := by
      unfold Flat.bytesAt
      rw [← List.map_reverse, ← List.map_reverse]
      exact h
    rw [← hripple, List.reverse_reverse, List.reverse_reverse] at hnumber
    show littleEndian (m'.bytesAt address n) = littleEndian (m.bytesAt address n) / 2 ∧
      (c = true ↔ littleEndian (m.bytesAt address n) % 2 = 1)
    cases c with
    | false =>
      have hnumber : 2 * littleEndian (m'.bytesAt address n) = littleEndian (m.bytesAt address n) := by
        simpa using hnumber
      simp only [Bool.false_eq_true, false_iff]
      omega
    | true =>
      have hnumber : 2 * littleEndian (m'.bytesAt address n) + 1 =
          littleEndian (m.bytesAt address n) := by simpa using hnumber
      simp only [true_iff]
      omega

/-- The whole program shifts the whole number, and touches nothing else. -/
theorem reaches_program (hquiet : p.world.panel.requests = {}) {address : UInt16} {n : Nat} (hn : 0 < n)
    (hcode : p.ram.Lists p.registers.pc (direction.program address n))
    (hapart : Apart p.registers.pc (3 * n) address n) :
    ∃ q, p.Reaches q n (6 * n) ∧
      littleEndian (q.ram.bytesAt address n) =
        direction.shifted n (littleEndian (p.ram.bytesAt address n)) ∧
      (q.registers.flags.carry = true ↔
        direction.Loses n (littleEndian (p.ram.bytesAt address n))) ∧
      ∀ x ∉ consecutive address n, q.ram.read x = p.ram.read x := by
  have hroom : n < 65536 := hapart.symm.lt (Nat.mul_pos (by decide) hn)
  have hnodup : (direction.row address n).Nodup := by
    have hconsecutive := nodup_consecutive (Nat.le_of_lt hroom) address
    cases direction with
    | left => exact hconsecutive
    | right => exact List.nodup_reverse.mpr hconsecutive
  -- a number of no bytes would have no first instruction
  have hsome : direction.row address n ≠ [] := by
    intro hnone
    have hlength := direction.length_row address n
    rw [hnone] at hlength
    exact Nat.ne_of_lt hn hlength
  have hlength := direction.length_row address n
  obtain ⟨q, hreach, hripple, helsewhere⟩ := reaches_code hquiet hnodup (fun _ => hsome) hcode
    (fun x hx h => hapart x (hlength ▸ hx) (mem_row.mp h))
  rw [hlength] at hreach
  obtain ⟨hnumber, hcarry⟩ := of_ripple hripple
  exact ⟨q, hreach, hnumber, hcarry, fun x hx => helsewhere x fun h => hx (mem_row.mp h)⟩

end Direction

end Breadboard
