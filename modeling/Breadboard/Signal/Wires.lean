import Breadboard.Log.Journal
/-
  Wires: the level of one, how many values a bundle of them can show, and the buses and racks they are
  kept in.

  A bus is wires that are read and driven together, as one number.  It is between 1 and 32 wires wide, and
  holds what was last driven onto it, cut down to its width.

  A rack is numbered cells.  Every cell holds the default until something else is put there, so a rack has
  no end and reading it cannot fail; `add` uses the first cell that nothing has been put into or beyond.
  `get_set` is the law, for all numbers.
-/
namespace Breadboard

/-- The two levels that a wire can have; there is no third one for a wire that nobody drives. -/
inductive Level where
  | low
  | high
deriving DecidableEq, Repr

namespace Level

/-- A wire that nobody has driven yet is low. -/
instance : Inhabited Level := ⟨low⟩

/-- High for true, as levels are written down in the state of a machine. -/
def ofBool : Bool → Level
  | true => high
  | false => low

/-- Whether a level is high; on the read/write wire that means a read. -/
def isHigh : Level → Bool
  | low => false
  | high => true

/-- A level in words, as scripts and watches report it. -/
def name : Level → String
  | low => "low"
  | high => "high"

/-- A level as a wire shows it to somebody who asks for its state. -/
def capitalName : Level → String
  | low => "Low"
  | high => "High"

end Level

/-- How many values a bundle of so many lines can show: two to that power. -/
def span (lines : Nat) : Nat :=
  1 <<< lines

theorem span_zero : span 0 = 1 := rfl

/-- One more line doubles what can be shown, which is what recursions on the number of lines go by. -/
theorem span_succ (lines : Nat) : span (lines + 1) = 2 * span lines :=
  Nat.shiftLeft_succ 1 lines

/-- There is always something to show, so that a remainder by `span` is below it. -/
theorem span_pos (lines : Nat) : 0 < span lines := by
  induction lines with
  | zero => decide
  | succ lines ih => rw [span_succ]; omega

/-- Sixteen lines show every address, and eight every byte. -/
theorem address_mod_span (a : UInt16) : a.toNat % span 16 = a.toNat :=
  Nat.mod_eq_of_lt a.toNat_lt

@[inherit_doc address_mod_span]
theorem byte_mod_span (v : UInt8) : v.toNat % span 8 = v.toNat :=
  Nat.mod_eq_of_lt v.toNat_lt

/-- A wire of a circuit, by its number.  Names belong to boards; a circuit knows only numbers. -/
structure WireId where
  index : Nat
deriving DecidableEq, Repr, Inhabited

/-- A bus of a circuit, by its number; wires are numbered on their own. -/
structure BusId where
  index : Nat
deriving DecidableEq, Repr, Inhabited

/-- The memory cells of a chip in a circuit, by their number.  The chip itself does not change; its cells
    are kept apart from it. -/
structure StoreId where
  index : Nat
deriving DecidableEq, Repr, Inhabited

/-- The counter of a script that listens in a circuit, which tells how often the script has been called. -/
structure CounterId where
  index : Nat
deriving DecidableEq, Repr, Inhabited

/-! ## Buses -/

/-- A bus and what is on it; before anything is driven it shows zero. -/
structure Bus where
  width : Nat := 1
  value : Nat := 0
deriving DecidableEq, Repr, Inhabited

namespace Bus

/-- The widest bus that there can be, in wires. -/
def maxWidth : Nat := 32

/-- The nearest width that a bus can have, at least one wire. -/
def clampWidth (width : Nat) : Nat :=
  min (max width 1) maxWidth

/-- A bus of that width, holding zero; a width that buses cannot have is clamped. -/
def ofWidth (width : Nat) : Logged Bus := do
  let clamped := clampWidth width
  if clamped ≠ width then
    note (.widthClamped width clamped)
  return { width := clamped }

/-- Drives the bus; bits for which it has no wire are lost. -/
def write (b : Bus) (v : Nat) : Bus :=
  { b with value := v % span b.width }

/-- What is on a bus after it was driven: the number that was driven, cut down to the width. -/
theorem value_write (b : Bus) (v : Nat) : (b.write v).value = v % span b.width := rfl

end Bus

/-! ## Racks -/

/-- Cells with numbers.  It is used for wires, buses, stores and counters, whatever the circuit has several
    of. -/
structure Rack (α : Type) where
  cells : List α := []
deriving DecidableEq, Repr

namespace Rack

variable {α : Type} [Inhabited α]

/-- What is in a cell; a cell beyond the last one holds the default. -/
def get (r : Rack α) (i : Nat) : α :=
  r.cells.getD i default

/-- The cells with cell number `i` replaced; cells that were not there yet hold the default. -/
def replace : List α → Nat → α → List α
  | [], 0, v => [v]
  | [], i + 1, v => default :: replace [] i v
  | _ :: cells, 0, v => v :: cells
  | c :: cells, i + 1, v => c :: replace cells i v

/-- Puts something into a cell, and defaults into those before it that are not there yet. -/
def set (r : Rack α) (i : Nat) (v : α) : Rack α :=
  ⟨replace r.cells i v⟩

/-- The rack with `v` in a new cell, and the number of the cell. -/
def add (r : Rack α) (v : α) : Nat × Rack α :=
  (r.cells.length, ⟨r.cells ++ [v]⟩)

/-- The law of `replace` on lists: the cell that was replaced holds the new value, and every other is as it
    was, also those that were filled in. -/
theorem getD_replace (cells : List α) (i j : Nat) (v : α) :
    (replace cells i v).getD j default = if j = i then v else cells.getD j default := by
  induction cells generalizing i j with
  | nil =>
    induction i generalizing j with
    | zero => cases j <;> simp [replace]
    | succ i ih =>
      cases j with
      | zero => simp [replace]
      | succ j => have := ih j; simp_all [replace]
  | cons c cells ih =>
    cases i with
    | zero => cases j <;> simp [replace]
    | succ i =>
      cases j with
      | zero => simp [replace]
      | succ j => have := ih i j; simp_all [replace]

/-- The law of racks: a cell holds what was put there last.  Everything that is proved of wires, buses and
    stores one at a time rests on it. -/
theorem get_set (r : Rack α) (i j : Nat) (v : α) :
    (r.set i v).get j = if j = i then v else r.get j :=
  getD_replace r.cells i j v

/-- The second of two replacements in one place is all that counts. -/
theorem replace_replace (cells : List α) (i : Nat) (v w : α) :
    replace (replace cells i v) i w = replace cells i w := by
  induction cells generalizing i with
  | nil =>
    induction i with
    | zero => rfl
    | succ i ih => simp [replace, ih]
  | cons c cells ih =>
    cases i with
    | zero => rfl
    | succ i => simp [replace, ih]

/-- What is put into a cell last is what it holds. -/
theorem set_set (r : Rack α) (i : Nat) (v w : α) : (r.set i v).set i w = r.set i w :=
  congrArg Rack.mk (replace_replace r.cells i v w)

/-- A new cell holds what it was made with, and it is no cell that was in use before. -/
theorem get_add (r : Rack α) (v : α) (j : Nat) :
    (r.add v).2.get j = if j = (r.add v).1 then v else r.get j := by
  simp only [get, add, List.getD_eq_getElem?_getD, List.getElem?_append]
  by_cases h : j < r.cells.length
  · simp [h, Nat.ne_of_lt h]
  · by_cases hj : j = r.cells.length
    · simp [hj]
    · simp [h, hj, show j - r.cells.length ≠ 0 by omega]

end Rack

end Breadboard
