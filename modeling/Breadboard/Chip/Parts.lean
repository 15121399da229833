import Breadboard.Chip.Image
import Breadboard.Memory.Bank
import Breadboard.Signal.Wires
/-
  The chips: ROM, static RAM, and the decoder that selects one of them.

  A chip knows the buses and wires that it is soldered to.  A ROM carries its bytes with it; the bytes
  of a RAM change while the circuit works and are kept by the circuit.

  The decoder has a list of windows.  A window is a range of plain numbers and never wraps around to
  address zero.
-/
namespace Breadboard

/-- A ROM and the places it is wired to.  Its bytes never change, so they are part of the chip. -/
structure Rom where
  name : String
  lines : Nat
  cells : Bank lines
  address : BusId
  data : BusId
  enable : WireId

namespace Rom

/-- How many bytes a ROM has, which depends on its address lines only. -/
def capacity (r : Rom) : Nat :=
  span r.lines

/-- The byte that the chip answers with at a bus address; address lines that the chip does not have make no
    difference. -/
def read (r : Rom) (address : UInt16) : UInt8 :=
  r.cells.read address.toNat

/-- A ROM with an image that is fitted to it, if there can be a chip with so many address lines. -/
def make (name : String) (image : Array UInt8) (lines : Nat) (address data : BusId)
    (enable : WireId) : Logged (Except ChipError Rom) := do
  match checkLines lines with
  | .error e => return .error e
  | .ok () =>
    let image ← Image.ofBytes image (span lines)
    return .ok { name, lines, cells := .ofBytes lines image.bytes, address, data, enable }

end Rom

/-- Memory cells behind their address lines, which can be written. -/
structure Store where
  lines : Nat
  cells : Bank lines

namespace Store

instance : Inhabited Store := ⟨⟨0, .fill 0 0⟩⟩

/-- Cells that are all zero, as in a RAM that has just been powered up. -/
def blank (lines : Nat) : Store :=
  ⟨lines, .fill lines 0⟩

/-- The byte in a cell; address lines beyond those of the store make no difference. -/
def read (s : Store) (address : UInt16) : UInt8 :=
  s.cells.read address.toNat

/-- The cells with one byte replaced, at an address cut down to the lines there are. -/
def write (s : Store) (address : UInt16) (v : UInt8) : Store :=
  ⟨s.lines, s.cells.write address.toNat v⟩

end Store

/-- A RAM and the places it is wired to.  Its cells are in a store of the circuit. -/
structure Ram where
  lines : Nat
  store : StoreId
  address : BusId
  data : BusId
  rw : WireId
  select : WireId
deriving DecidableEq, Repr

/-- How many bytes a RAM has, by the number of its address lines. -/
def Ram.capacity (r : Ram) : Nat :=
  span r.lines

/-- A range of addresses at which a ROM is enabled, and the wire that enables it. -/
structure Window where
  base : UInt16
  length : Nat
  enable : WireId
deriving DecidableEq, Repr

/-- Whether an address is in the window; the distance from its base is compared, so a window may end with
    the address space. -/
def Window.contains (w : Window) (address : UInt16) : Bool :=
  w.base ≤ address && (address - w.base).toNat < w.length

/-- The chip that selects one chip for each access: for a read the one whose window the address is in, and
    otherwise the RAM. -/
structure Decoder where
  address : BusId
  rw : WireId
  clock : WireId
  ramSelect : WireId
  windows : List Window
deriving DecidableEq, Repr

namespace Decoder

/-- The wire to pull low for an access: a read goes to the first window that contains the address,
    everything else goes to the RAM. -/
def selected (d : Decoder) (address : UInt16) (reading : Bool) : WireId :=
  match reading, d.windows.find? (·.contains address) with
  | true, some window => window.enable
  | _, _ => d.ramSelect

/-- All wires that the decoder drives: the one of the RAM first, and then those of the windows. -/
def outputs (d : Decoder) : List WireId :=
  d.ramSelect :: d.windows.map (·.enable)

end Decoder

/-- A chip on a board, of whatever kind; there are three of them. -/
inductive Device where
  | rom (chip : Rom)
  | ram (chip : Ram)
  | decoder (chip : Decoder)

end Breadboard
