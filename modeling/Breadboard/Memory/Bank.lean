import Breadboard.Signal.Wires
/-
  A bank of bytes behind a number of address lines.

  `Bank k` holds `span k` bytes as a perfect binary tree: each address line chooses a branch, the
  lowest line first, and the path ends at a cell.  Addresses are plain numbers, and a bank only
  looks at as many of their low bits as it has lines, so it appears again and again across a
  larger address space, as a chip does whose upper lines are not connected.

  What a bank holds is its view `b.read`.  The laws, all of them for every address:

    * `read_mod`    — only the address modulo `span k` matters;
    * `read_write`  — a written cell reads back, every other cell is as it was;
    * `read_fill`, `read_ofFn` — what a new bank holds;
    * `ext`         — a bank is determined by what it reads.
-/
namespace Breadboard

/-- A memory of `span k` bytes, as a tree: the lowest bit of an address tells which half the byte is in. -/
inductive Bank : Nat → Type where
  | cell (value : UInt8) : Bank 0
  | fork {k : Nat} (even odd : Bank k) : Bank (k + 1)

namespace Bank

/-- The byte at an address, of which the low `k` bits count; higher ones are not looked at. -/
def read : {k : Nat} → Bank k → Nat → UInt8
  | _, .cell value, _ => value
  | _, .fork even odd, a => if a % 2 = 0 then even.read (a / 2) else odd.read (a / 2)

/-- The bank with one byte replaced.  Only the path to that byte is made anew. -/
def write : {k : Nat} → Bank k → Nat → UInt8 → Bank k
  | _, .cell _, _, v => .cell v
  | _, .fork even odd, a, v =>
    if a % 2 = 0 then .fork (even.write (a / 2) v) odd else .fork even (odd.write (a / 2) v)

/-- A bank with the same byte everywhere; its halves are shared, so it takes no more than `k` steps. -/
def fill : (k : Nat) → UInt8 → Bank k
  | 0, v => .cell v
  | k + 1, v => let half := fill k v; .fork half half

/-- The bank that holds `f a` at every address `a` below `span k`. -/
def ofFn : (k : Nat) → (Nat → UInt8) → Bank k
  | 0, f => .cell (f 0)
  | k + 1, f => .fork (ofFn k fun a => f (2 * a)) (ofFn k fun a => f (2 * a + 1))

/-- The bank that holds `bytes` from address 0 on: what does not fit is left out, what is missing is
    zero. -/
def ofBytes (k : Nat) (bytes : Array UInt8) : Bank k :=
  ofFn k fun a => bytes.getD a 0

/-- All bytes in the order of their addresses, which is not the order in which the tree holds them. -/
def toList {k : Nat} (b : Bank k) : List UInt8 :=
  (List.range (span k)).map b.read

/-- Stores `bytes` one after the other from address `a` on, and goes on at the beginning after the last
    address. -/
def writeAll {k : Nat} : Bank k → Nat → List UInt8 → Bank k
  | b, _, [] => b
  | b, a, v :: vs => (b.write a v).writeAll (a + 1) vs

/-! ## Only the connected address lines count -/

/-- Only the low `k` bits of an address count for a read. -/
theorem read_mod {k : Nat} (b : Bank k) (a : Nat) : b.read (a % span k) = b.read a := by
  induction b generalizing a with
  | cell => rfl
  | @fork k even odd ihe iho =>
    have h1 : a % span (k + 1) % 2 = a % 2 := by
      rw [span_succ, Nat.mod_mul_right_mod]
    have h2 : a % span (k + 1) / 2 = a / 2 % span k := by
      rw [span_succ, Nat.mod_mul_right_div_self]
    simp only [read, h1, h2, ihe, iho]

/-- Only the low `k` bits of an address count for a write. -/
theorem write_mod {k : Nat} (b : Bank k) (a : Nat) (v : UInt8) :
    b.write (a % span k) v = b.write a v := by
  induction b generalizing a with
  | cell => rfl
  | @fork k even odd ihe iho =>
    have h1 : a % span (k + 1) % 2 = a % 2 := by
      rw [span_succ, Nat.mod_mul_right_mod]
    have h2 : a % span (k + 1) / 2 = a / 2 % span k := by
      rw [span_succ, Nat.mod_mul_right_div_self]
    simp only [write, h1, h2, ihe, iho]

/-! ## Reading after writing -/

/-- The law of banks: a byte is what was written there last.  Addresses that agree in their low `k` bits are
    the same place. -/
theorem read_write {k : Nat} (b : Bank k) (a c : Nat) (v : UInt8) :
    (b.write a v).read c = if c % span k = a % span k then v else b.read c := by
  induction b generalizing a c with
  | cell => simp [write, read, span_zero, Nat.mod_one]
  | @fork k even odd ihe iho =>
    -- an address is its lowest bit and the address within one half
    have split_mod : ∀ n : Nat, n % span (k + 1) = n % 2 + 2 * (n / 2 % span k) := fun n => by
      rw [span_succ, Nat.mod_mul]
    have hsame : a % 2 = c % 2 →
        ((c % span (k + 1) = a % span (k + 1)) ↔ c / 2 % span k = a / 2 % span k) := fun h => by
      rw [split_mod c, split_mod a]; omega
    have hdiff : a % 2 ≠ c % 2 → c % span (k + 1) ≠ a % span (k + 1) := fun h => by
      rw [split_mod c, split_mod a]; omega
    by_cases ha : a % 2 = 0 <;> by_cases hc : c % 2 = 0
    · rw [write, if_pos ha, read, if_pos hc, ihe, read, if_pos hc]
      simp only [hsame (by omega)]
    · rw [write, if_pos ha, if_neg (hdiff (by omega))]; simp only [read, if_neg hc]
    · rw [write, if_neg ha, if_neg (hdiff (by omega))]; simp only [read, if_pos hc]
    · rw [write, if_neg ha, read, if_neg hc, iho, read, if_neg hc]
      simp only [hsame (by omega)]

/-! ## New banks -/

/-- A filled bank answers every address with the byte it was filled with. -/
theorem read_fill (k : Nat) (v : UInt8) (a : Nat) : (fill k v).read a = v := by
  induction k generalizing a with
  | zero => rfl
  | succ k ih => simp only [fill, read, ih, ite_self]

/-- A bank that was made from a function answers as the function does, up to the address bits that it has. -/
theorem read_ofFn (k : Nat) (f : Nat → UInt8) (a : Nat) : (ofFn k f).read a = f (a % span k) := by
  induction k generalizing a f with
  | zero => simp [ofFn, read, span_zero, Nat.mod_one]
  | succ k ih =>
    have split_mod : a % span (k + 1) = a % 2 + 2 * (a / 2 % span k) := by
      rw [span_succ, Nat.mod_mul]
    by_cases ha : a % 2 = 0
    · simp only [ofFn, read, if_pos ha, ih, split_mod]; congr 1; omega
    · simp only [ofFn, read, if_neg ha, ih, split_mod]; congr 1; omega

/-- A bank that was made from bytes answers with them, and with zero where there are too few. -/
theorem read_ofBytes (k : Nat) (bytes : Array UInt8) (a : Nat) :
    (ofBytes k bytes).read a = bytes.getD (a % span k) 0 :=
  read_ofFn k _ a

/-- Two banks that read alike are the same bank: the tree has no room for anything but its bytes. -/
theorem ext {k : Nat} {b c : Bank k} (h : ∀ a, b.read a = c.read a) : b = c := by
  induction b with
  | cell v => cases c with | cell w => exact congrArg _ (h 0)
  | fork even odd ihe iho =>
    cases c with
    | fork even' odd' =>
      -- the even addresses are those of one half, and the odd ones those of the other
      have he : even = even' := ihe fun a => by
        have := h (2 * a); simpa [read] using this
      have ho : odd = odd' := iho fun a => by
        have := h (2 * a + 1)
        simpa [read, Nat.add_mod, show (2 * a + 1) / 2 = a by omega] using this
      rw [he, ho]

/-- To write a byte again changes nothing, because the first write has left nothing else behind. -/
theorem write_write {k : Nat} (b : Bank k) (a : Nat) (v : UInt8) :
    (b.write a v).write a v = b.write a v := by
  refine ext fun c => ?_
  rw [read_write, read_write]
  by_cases hc : c % span k = a % span k
  · rw [if_pos hc, if_pos hc]
  · rw [if_neg hc]

end Bank

end Breadboard
