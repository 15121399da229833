import Breadboard.Cpu.Instruction
import Breadboard.Cpu.Registers
/-
  Microprograms: the steps an instruction is made of.

  Below them is bus traffic, which is a computation that needs the bus, as data.  A `Traffic α` either has
  its result, or asks for one read and goes on with the byte it gets, or makes one write and goes on.  It
  says nothing about what is on the other end of the bus: a plain memory, a board full of chips and a tape
  that records addresses all `play` the same traffic, so what one of them does with an instruction can be
  compared with what another does.

  A `Micro α` works on the registers, makes bus traffic, and either ends with a result or with a fault; the
  registers as they are at a fault are not lost.  Every access leaves its address in the address latch.
  Words are read low byte first and pushed high byte first.

  The first thing that most instructions do is to look for their operand: `locate` consumes the operand
  bytes that follow the opcode and says where the operand is.  Indexing within page 0 stays in page 0;
  indexing anywhere else carries into the next page, which costs a descriptor with the page-cross mark one
  cycle more.
-/
namespace Breadboard

/-! ## Bus traffic -/

/-- Bus traffic that ends with a result.  After a read it goes on in a way that may depend on the byte,
    after a write it cannot. -/
inductive Traffic (α : Type) : Type where
  /-- Nothing more is asked of the bus. -/
  | done (result : α)
  /-- Asks for the byte at an address. -/
  | read (address : UInt16) (next : UInt8 → Traffic α)
  /-- Puts a byte to an address. -/
  | write (address : UInt16) (value : UInt8) (next : Traffic α)

namespace Traffic

variable {α β γ : Type}

/-- One traffic, then the one that its result calls for; no access comes in between. -/
def bind : Traffic α → (α → Traffic β) → Traffic β
  | .done result, f => f result
  | .read address next, f => .read address fun v => (next v).bind f
  | .write address value next, f => .write address value (next.bind f)

instance : Monad Traffic where
  pure := .done
  bind := bind

/-- To go on with nothing but the result changes nothing.  This and `bind_assoc` make traffic a lawful
    monad. -/
theorem bind_done (t : Traffic α) : t.bind .done = t := by
  induction t with
  | done => rfl
  | read a next ih => simp only [bind, ih]
  | write a v next ih => simp only [bind, ih]

/-- Only the order of the accesses matters, not how the traffic was put together from parts. -/
theorem bind_assoc (t : Traffic α) (f : α → Traffic β) (g : β → Traffic γ) :
    (t.bind f).bind g = t.bind fun a => (f a).bind g := by
  induction t with
  | done => rfl
  | read a next ih => simp only [bind, ih]
  | write a v next ih => simp only [bind, ih]

instance : LawfulMonad Traffic :=
  LawfulMonad.mk' Traffic bind_done (fun _ _ => rfl) bind_assoc

end Traffic

/-! ## Microprograms -/

/-- Steps that work on the registers and the bus.  A fault ends them, and the registers are then as the
    steps before it have left them. -/
abbrev Micro := ExceptT Fault (StateT Registers Traffic)

namespace Micro

/-- Reads the byte at an address, which is what the address latch holds from then on. -/
def readByte (address : UInt16) : Micro UInt8 := fun r =>
  .read address fun v => .done (.ok v, { r with addressLatch := address })

/-- Writes a byte to an address, which is what the address latch holds from then on. -/
def writeByte (address : UInt16) (value : UInt8) : Micro Unit := fun r =>
  .write address value (.done (.ok (), { r with addressLatch := address }))

/-- Reads a word; its high byte is at the next address, which after the last address of all is the first. -/
def readWord (address : UInt16) : Micro UInt16 := do
  let lo ← readByte address
  let hi ← readByte (address + 1)
  return word lo hi

/-- Reads a word from page 0; its high byte is at the next address within the page. -/
def readPageZeroWord (cell : UInt8) : Micro UInt16 := do
  let lo ← readByte cell.toUInt16
  let hi ← readByte (cell + 1).toUInt16
  return word lo hi

/-- Reads the next byte of the program, and moves the program counter on. -/
def fetchByte : Micro UInt8 := do
  let v ← readByte (← get).pc
  modify fun r => { r with pc := r.pc + 1 }
  return v

/-- Reads the next two bytes of the program, the low byte of a word and then its high byte. -/
def fetchWord : Micro UInt16 := do
  let lo ← fetchByte
  let hi ← fetchByte
  return word lo hi

/-- Puts a byte into the free cell of the stack, and moves the stack pointer down; after the last cell of
    the page comes the first. -/
def push (v : UInt8) : Micro Unit := do
  writeByte (stackCell (← get).sp) v
  modify fun r => { r with sp := r.sp - 1 }

/-- Moves the stack pointer up, and takes the byte that is there.  What is pulled is not erased. -/
def pull : Micro UInt8 := do
  modify fun r => { r with sp := r.sp + 1 }
  readByte (stackCell (← get).sp)

/-- Pushes a word, its high byte first, so that it lies in memory as any other word does. -/
def pushWord (w : UInt16) : Micro Unit := do
  push (highByte w)
  push (lowByte w)

/-- Pulls a word that was pushed by `pushWord`: the low byte comes back first. -/
def pullWord : Micro UInt16 := do
  let lo ← pull
  let hi ← pull
  return word lo hi

end Micro

/-! ## Operands -/

/-- Where an operand is, once it has been found. -/
inductive Operand where
  /-- In the register A, so that no access is needed. -/
  | accumulator
  /-- In the cell at an address. -/
  | cell (address : UInt16)
deriving DecidableEq, Repr

namespace Instruction

/-- The cycle that getting from `base` to `address` costs on top: one, if the descriptor has the mark and
    the two are in different pages. -/
def crossingCost (i : Instruction) (base address : UInt16) : Nat :=
  if i.pageCross && page base != page address then 1 else 0

/-- The cell at an index from `base`, and what reaching it costs on top.  The sum carries into the high
    byte, and wraps at the end of the address space. -/
def indexed (i : Instruction) (base : UInt16) (index : UInt8) : Operand × Nat :=
  let address := base + index.toUInt16
  (.cell address, i.crossingCost base address)

open Micro

/-- The operand and the cycles that reaching it costs on top.  Nothing is read here but operand bytes and
    pointers; an immediate operand is the operand byte itself, which is stepped over unread. -/
def locate (i : Instruction) : Micro (Operand × Nat) := do
  match i.mode with
  | .implied => throw (.impliedOperand i.mnemonic)
  | .accumulator => return (.accumulator, 0)
  -- an immediate operand is a cell like any other, the one that the program counter points at
  | .immediate =>
    let r ← get
    set { r with pc := r.pc + 1 }
    return (.cell r.pc, 0)
  | .absolute => return (.cell (← fetchWord), 0)
  | .indirect => return (.cell (← readWord (← fetchWord)), 0)
  | .absoluteX =>
    let base ← fetchWord
    return i.indexed base (← get).x
  | .absoluteY =>
    let base ← fetchWord
    return i.indexed base (← get).y
  | .indexedIndirect =>
    let cell ← fetchByte
    -- the sum wraps within page 0, and so does the pointer that is read from there
    return (.cell (← readPageZeroWord (cell + (← get).x)), 0)
  | .indirectIndexed =>
    let base ← readPageZeroWord (← fetchByte)
    return i.indexed base (← get).y
  | .zeroPage => return (.cell (← fetchByte).toUInt16, 0)
  | .zeroPageX =>
    let cell ← fetchByte
    return (.cell (cell + (← get).x).toUInt16, 0)
  | .zeroPageY =>
    let cell ← fetchByte
    return (.cell (cell + (← get).y).toUInt16, 0)
  -- the distance is counted from the next instruction, and may be negative
  | .relative =>
    let distance ← fetchByte
    return (.cell ((← get).pc + distance.toInt8.toInt16.toUInt16), 0)

end Instruction

namespace Operand

/-- The byte that an operand holds; for a cell that is one read, which latches its address. -/
def fetch : Operand → Micro UInt8
  | .accumulator => return (← get).a
  | .cell address => Micro.readByte address

/-- Puts a byte where the operand is; nothing is read for that. -/
def store : Operand → UInt8 → Micro Unit
  | .accumulator, v => modify fun r => { r with a := v }
  | .cell address, v => Micro.writeByte address v

/-- The second half of a read, modify, write: the byte goes into the accumulator, or to whatever address
    the latch holds by then. -/
def putBack : Operand → UInt8 → Micro Unit
  | .accumulator, v => modify fun r => { r with a := v }
  | .cell _, v => do Micro.writeByte (← get).addressLatch v

/-! Nothing comes between the two halves that could move the latch, so what is put back goes where the
    operand is.  This is all that anyone has to know about the latch in a read, modify, write. -/

/-- The address latch holds the cell of the operand, if the operand is in memory. -/
def Latched : Operand → Registers → Prop
  | .accumulator, _ => True
  | .cell address, r => r.addressLatch = address

variable {α : Type} {operand : Operand}

/-- With the operand latched, putting a byte back is storing it, whatever comes after. -/
theorem putBack_bind {r : Registers} (h : operand.Latched r) (v : UInt8) (next : Unit → Micro α) :
    (operand.putBack v >>= next) r = (operand.store v >>= next) r := by
  cases operand with
  | accumulator => rfl
  | cell address =>
    have hlatch : r.addressLatch = address := h
    -- with the address written as what is in the latch, the two sides are the same program
    rw [← hlatch]
    rfl

/-- Reading an operand latches it: what follows a read may count on the operand being latched. -/
theorem fetch_congr {next next' : UInt8 → Micro α}
    (h : ∀ v r, operand.Latched r → next v r = next' v r) :
    (operand.fetch >>= next) = (operand.fetch >>= next') := by
  funext r
  cases operand with
  | accumulator => exact h r.a r trivial
  | cell address => exact congrArg (Traffic.read address) (funext fun v => h v _ rfl)

end Operand

/-- The byte an instruction works on, and the cycles that reaching it costs on top. -/
def Instruction.operandByte (i : Instruction) : Micro (UInt8 × Nat) := do
  let (operand, extra) ← i.locate
  return (← operand.fetch, extra)

end Breadboard
