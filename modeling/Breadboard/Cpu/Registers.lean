/-
  What the processor itself remembers, and what instructions compute from it, apart from where their
  operands come from.

  The status is eight flags, and the byte they make up.  From bit 7 down to bit 0 the byte holds negative,
  overflow, unused, break, decimal, interrupt-disable, zero and carry.  Break and unused are stored like the
  others; an instruction that pulls the status from the stack leaves those two as they are (`load` with
  `keepBreak`).  `ofByte_toByte` and `toByte_ofByte` say that flags and bytes are the same thing.
-/
namespace Breadboard

/-- The eight flags of the processor, all of them down to begin with.  Which of them an instruction may
    change is up to its routine. -/
structure Flags where
  negative : Bool := false
  overflow : Bool := false
  unused : Bool := false
  brk : Bool := false
  decimal : Bool := false
  interruptDisable : Bool := false
  zero : Bool := false
  carry : Bool := false
deriving DecidableEq, Repr, Inhabited

namespace Flags

/-- The byte whose only set bit is `bit` when the flag is up, and zero otherwise. -/
def weight (up : Bool) (bit : UInt8) : UInt8 :=
  if up then bit else 0

/-- The status byte that the flags make up, negative in its highest bit and carry in its lowest. -/
def toByte (f : Flags) : UInt8 :=
  weight f.negative 0x80 ||| weight f.overflow 0x40 ||| weight f.unused 0x20 |||
    weight f.brk 0x10 ||| weight f.decimal 0x08 ||| weight f.interruptDisable 0x04 |||
    weight f.zero 0x02 ||| weight f.carry 0x01

/-- The flags that a status byte stands for, every bit of it one flag. -/
def ofByte (p : UInt8) : Flags where
  negative := p &&& 0x80 != 0
  overflow := p &&& 0x40 != 0
  unused := p &&& 0x20 != 0
  brk := p &&& 0x10 != 0
  decimal := p &&& 0x08 != 0
  interruptDisable := p &&& 0x04 != 0
  zero := p &&& 0x02 != 0
  carry := p &&& 0x01 != 0

/-- Takes the flags from a status byte; with `keepBreak` the break and unused flags stay as they
    are. -/
def load (f : Flags) (p : UInt8) (keepBreak : Bool) : Flags :=
  if keepBreak then { ofByte p with unused := f.unused, brk := f.brk } else ofByte p

/-- Sets zero and negative as the byte `v` says, and leaves the other six alone. -/
def setZN (f : Flags) (v : UInt8) : Flags :=
  { f with zero := v == 0, negative := v &&& 0x80 != 0 }

/-! ## Flags and bytes are the same thing -/

/-- No flag is lost in the status byte: what was pushed can be pulled again.  There are few enough flags to
    try them all. -/
theorem ofByte_toByte (f : Flags) : ofByte f.toByte = f := by
  obtain ⟨n, v, u, b, d, i, z, c⟩ := f
  revert n v u b d i z c
  decide

/-- Every byte is the status of some flags, so whatever a program has put on the stack can be pulled as a
    status. -/
theorem toByte_ofByte (p : UInt8) : (ofByte p).toByte = p := by
  have all : ∀ n : Fin 256, (ofByte (UInt8.ofNat n)).toByte = UInt8.ofNat n := by decide +kernel
  have := all ⟨p.toNat, p.toNat_lt⟩
  simpa using this

end Flags

/-! ## Registers

The registers, the last address that was put on the bus, and the cycles charged so far. -/

/-- The registers as they are when the processor has been made: nothing in them but a stack pointer near the
    top of its page. -/
structure Registers where
  /-- The accumulator, which arithmetic works on. -/
  a : UInt8 := 0
  /-- An index; it is also the only way to the stack pointer. -/
  x : UInt8 := 0
  /-- The other index. -/
  y : UInt8 := 0
  /-- The stack is page 1; this is the low byte of the next free cell. -/
  sp : UInt8 := 0xFD
  /-- Where the next byte of the program is. -/
  pc : UInt16 := 0
  flags : Flags := {}
  /-- The last address put on the bus. -/
  addressLatch : UInt16 := 0
  /-- All cycles charged, counted modulo `2 ^ 64`. -/
  cycles : UInt64 := 0
deriving DecidableEq, Repr, Inhabited

/-- The word whose low byte is `lo` and whose high byte is `hi`. -/
def word (lo hi : UInt8) : UInt16 :=
  hi.toUInt16 <<< 8 ||| lo.toUInt16

/-- The low byte of a word, which is the one that comes first in memory. -/
def lowByte (w : UInt16) : UInt8 :=
  w.toUInt8

/-- The high byte of a word, which is at the next address in memory. -/
def highByte (w : UInt16) : UInt8 :=
  (w >>> 8).toUInt8

/-- The cell of the stack page that `sp` names; whatever `sp` is, the cell is in page 1. -/
def stackCell (sp : UInt8) : UInt16 :=
  0x100 ||| sp.toUInt16

/-- The page of an address, as the address of its first cell: accesses in one page share their high byte. -/
def page (address : UInt16) : UInt16 :=
  address &&& 0xFF00

/-- Where the address of a handler is kept, low byte first, at the very end of the address space. -/
def nmiVector : UInt16 := 0xFFFA

@[inherit_doc nmiVector]
def resetVector : UInt16 := 0xFFFC

@[inherit_doc nmiVector]
def irqVector : UInt16 := 0xFFFE

/-! ## Arithmetic

Addition and subtraction take the carry in binary mode: a subtraction borrows when the carry is clear.  In
decimal mode both work on a weight of 160 for each unit of the high digit and 1 for each unit of the low
digit, write that total as tens and ones, and do without the incoming carry; an addition then leaves
overflow alone, a subtraction does not.

Shifts move a byte by one place; rotates take the carry in at the other end. -/

/-- What a byte counts for in decimal mode: 160 for each unit of the high digit and 1 for each unit of the
    low one. -/
def decimalWeight (b : UInt8) : Nat :=
  10 * (b &&& 0xF0).toNat + (b &&& 0x0F).toNat

/-- Tens in the upper digits and ones in the lowest, both with the sign of the number. -/
def decimalDigits (n : Int) : Int :=
  16 * n.tdiv 10 + n.tmod 10

/-- Whether two bytes differ in their sign, that is in their highest bit. -/
def signsDiffer (a b : UInt8) : Bool :=
  (a ^^^ b) &&& 0x80 != 0

namespace Registers

/-- Adds `m` to A, in the mode that the decimal flag asks for.  The carry comes in only in binary mode, and
    overflow stays as it is in decimal mode. -/
def add (r : Registers) (m : UInt8) : Registers :=
  let total : Nat :=
    if r.flags.decimal then (decimalDigits (decimalWeight r.a + decimalWeight m)).toNat
    else r.a.toNat + m.toNat + r.flags.carry.toNat
  let a := UInt8.ofNat total
  let overflow :=
    if r.flags.decimal then r.flags.overflow else !signsDiffer r.a m && signsDiffer r.a a
  { r with a, flags := { r.flags with overflow, carry := 0xFF < total }.setZN a }

/-- Subtracts `m` from A, in the mode that the decimal flag asks for.  The carry stands for no borrow, and
    overflow is found in the same way in both modes. -/
def subtract (r : Registers) (m : UInt8) : Registers :=
  let total : Int :=
    if r.flags.decimal then decimalDigits (decimalWeight r.a - decimalWeight m)
    else r.a.toNat - m.toNat - (!r.flags.carry).toNat
  let a := UInt8.ofInt total
  let overflow := signsDiffer r.a a && signsDiffer r.a m
  { r with a, flags := { r.flags with overflow, carry := 0 ≤ total }.setZN a }

/-- Compares a register's value with `m`, as a subtraction whose result is thrown away. -/
def compare (r : Registers) (value m : UInt8) : Registers :=
  { r with flags := { r.flags with carry := m ≤ value }.setZN (value - m) }

/-- Tests the bits of `m` under the mask A; negative and overflow are the two highest bits of `m` itself,
    whatever the mask. -/
def testBits (r : Registers) (m : UInt8) : Registers :=
  { r with
    flags :=
      { r.flags with
        zero := r.a &&& m == 0, negative := m &&& 0x80 != 0, overflow := m &&& 0x40 != 0 } }

/-- Sets A and what it says of zero and negative, which is the last step of most instructions that leave
    something there. -/
def setA (r : Registers) (v : UInt8) : Registers :=
  { r with a := v, flags := r.flags.setZN v }

@[inherit_doc setA]
def setX (r : Registers) (v : UInt8) : Registers :=
  { r with x := v, flags := r.flags.setZN v }

@[inherit_doc setA]
def setY (r : Registers) (v : UInt8) : Registers :=
  { r with y := v, flags := r.flags.setZN v }

end Registers

/-! ## One place to the left, one place to the right -/

/-- The byte moved up one place, `carry` in its lowest bit, and the bit that fell out. -/
def shiftUp (v : UInt8) (carry : Bool) : UInt8 × Bool :=
  (v <<< 1 ||| (if carry then 0x01 else 0), v &&& 0x80 != 0)

/-- The byte moved down one place, `carry` in its highest bit, and the bit that fell out. -/
def shiftDown (v : UInt8) (carry : Bool) : UInt8 × Bool :=
  (v >>> 1 ||| (if carry then 0x80 else 0), v &&& 0x01 != 0)

end Breadboard
