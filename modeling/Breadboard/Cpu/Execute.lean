import Breadboard.Cpu.Registers
import Breadboard.Cpu.Micro
import Breadboard.Panel
/-
  Executing one instruction.

  `execute` runs the routine that a descriptor names, and answers with the cycles to charge on top of
  the descriptor's own.  A routine that serves several mnemonics chooses by the mnemonic, and refuses
  one that it does not serve; a routine that cannot use an operand found in some mode refuses the
  mode.  Both refusals come before the operand is looked for, except in the logic routine, which
  reads its operand first.

  Hardware interrupts run the BRK routine.  They push the address of the instruction that was not
  started and a status byte with the break flag down, where BRK itself skips the byte that follows it
  and pushes the flag up.
-/
namespace Breadboard

namespace Instruction

open Micro

/-- The routine was given a mnemonic that it does not serve, which only a descriptor from outside the opcode
    table can bring about. -/
def unexpected {α : Type} (i : Instruction) : Micro α :=
  throw (.unexpectedMnemonic i.mnemonic i.handler)

/-- The routine cannot use an operand found in this mode; nothing has been read for it yet. -/
def refuseMode {α : Type} (i : Instruction) : Micro α :=
  throw (.invalidMode i.mnemonic i.mode)

/-! ## Arithmetic -/

/-- Adds the operand and the carry to A, in binary or decimal mode. -/
def adc (i : Instruction) : Micro Nat := do
  let (m, extra) ← i.operandByte
  modify (·.add m)
  return extra

/-- Subtracts the operand from A, with a borrow if the carry is clear. -/
def sbc (i : Instruction) : Micro Nat := do
  let (m, extra) ← i.operandByte
  modify (·.subtract m)
  return extra

/-- Combines A with the operand bit by bit.  This is the one routine that looks at its mnemonic only after
    it has read the operand. -/
def logic (i : Instruction) : Micro Nat := do
  let (m, extra) ← i.operandByte
  match i.mnemonic with
  | .and => modify fun r => r.setA (r.a &&& m)
  | .ora => modify fun r => r.setA (r.a ||| m)
  | .eor => modify fun r => r.setA (r.a ^^^ m)
  | _ => i.unexpected
  return extra

/-- Tests the operand against A, and leaves A as it is. -/
def bit (i : Instruction) : Micro Nat := do
  let (m, extra) ← i.operandByte
  modify (·.testBits m)
  return extra

/-- The register that a compare looks at, as it is before the operand is looked for. -/
def comparedRegister? (r : Registers) : Mnemonic → Option UInt8
  | .cmp => some r.a
  | .cpx => some r.x
  | .cpy => some r.y
  | _ => none

/-- Compares a register with the operand.  Of the operand modes it refuses those in which no byte could be
    meant. -/
def compare (i : Instruction) : Micro Nat := do
  match comparedRegister? (← get) i.mnemonic with
  | none => i.unexpected
  | some value =>
    match i.mode with
    | .accumulator | .relative | .indirect => i.refuseMode
    | _ =>
      let (m, extra) ← i.operandByte
      modify (·.compare value m)
      return extra

/-! ## Loads, stores, transfers -/

/-- What a load does with the byte it has read: it goes into the register of the mnemonic, and sets the
    flags. -/
def loaded? (m : UInt8) (r : Registers) : Mnemonic → Option Registers
  | .lda => some (r.setA m)
  | .ldx => some (r.setX m)
  | .ldy => some (r.setY m)
  | _ => none

/-- Loads the operand into a register; zero and negative tell about it. -/
def load (i : Instruction) : Micro Nat := do
  match i.mnemonic with
  | .lda | .ldx | .ldy =>
    let (m, extra) ← i.operandByte
    modify fun r => (loaded? m r i.mnemonic).getD r
    return extra
  | _ => i.unexpected

/-- The register that a store writes; no flag depends on it. -/
def storedRegister? (r : Registers) : Mnemonic → Option UInt8
  | .sta => some r.a
  | .stx => some r.x
  | .sty => some r.y
  | _ => none

/-- Stores a register where the operand is.  The write is the only access to that cell: it is not read
    first. -/
def store (i : Instruction) : Micro Nat := do
  match storedRegister? (← get) i.mnemonic with
  | none => i.unexpected
  | some value =>
    match i.mode with
    | .immediate | .accumulator | .relative => i.refuseMode
    | _ =>
      let (operand, extra) ← i.locate
      -- STA to a cell is a single write: a device there would notice a read
      operand.store value
      return extra

/-- The registers after a transfer; only a transfer to the stack pointer leaves the flags alone. -/
def transferred? (r : Registers) : Mnemonic → Option Registers
  | .tax => some (r.setX r.a)
  | .tay => some (r.setY r.a)
  | .tsx => some (r.setX r.sp)
  | .txa => some (r.setA r.x)
  | .txs => some { r with sp := r.x }
  | .tya => some (r.setA r.y)
  | _ => none

/-- Moves a byte from one register to another, without any access to the bus. -/
def transfer (i : Instruction) : Micro Nat := do
  match transferred? (← get) i.mnemonic with
  | none => i.unexpected
  | some r =>
    set r
    return 0

/-! ## Read, modify, write -/

/-- What a shift makes of a byte, and the carry it leaves; only the rotates take the old carry in. -/
def shifted? (v : UInt8) (carry : Bool) : Mnemonic → Option (UInt8 × Bool)
  | .asl => some (shiftUp v false)
  | .rol => some (shiftUp v carry)
  | .lsr => some (shiftDown v false)
  | .ror => some (shiftDown v carry)
  | _ => none

/-- Moves the bits of the operand by one place.  The result is put back at the address the latch holds,
    which is where the operand has just been read. -/
def shift (i : Instruction) : Micro Nat := do
  match i.mnemonic with
  | .asl | .rol | .lsr | .ror =>
    let (operand, extra) ← i.locate
    let v ← operand.fetch
    let (result, carry) := (shifted? v (← get).flags.carry i.mnemonic).getD (v, false)
    operand.putBack result
    modify fun r => { r with flags := { r.flags with carry }.setZN result }
    return extra
  | _ => i.unexpected

/-- The result of a shift goes where the operand is, because reading the operand has latched it. -/
theorem shift_eq (i : Instruction) : i.shift =
    match i.mnemonic with
    | .asl | .rol | .lsr | .ror => do
      let (operand, extra) ← i.locate
      let v ← operand.fetch
      let (result, carry) := (shifted? v (← get).flags.carry i.mnemonic).getD (v, false)
      operand.store result
      modify fun r => { r with flags := { r.flags with carry }.setZN result }
      return extra
    | _ => i.unexpected := by
  unfold shift
  split
  -- a mnemonic that does not shift anything is refused on both sides
  case h_5 => rfl
  all_goals
    refine bind_congr fun x => Operand.fetch_congr fun v r hlatched => ?_
    exact Operand.putBack_bind hlatched _ _

/-- What is added to the cell: to count down is to add 255, which wraps. -/
def memoryStep? : Mnemonic → Option UInt8
  | .inc => some 1
  | .dec => some 0xFF
  | _ => none

/-- Counts a cell up or down.  As in a shift, the result is put back at the address the latch holds. -/
def stepMemory (i : Instruction) : Micro Nat := do
  match memoryStep? i.mnemonic with
  | none => i.unexpected
  | some step =>
    let (operand, extra) ← i.locate
    let v ← operand.fetch
    operand.putBack (v + step)
    modify fun r => { r with flags := r.flags.setZN (v + step) }
    return extra

/-- The counted cell is the operand's, again because reading the operand has latched it. -/
theorem stepMemory_eq (i : Instruction) : i.stepMemory =
    match memoryStep? i.mnemonic with
    | none => i.unexpected
    | some step => do
      let (operand, extra) ← i.locate
      let v ← operand.fetch
      operand.store (v + step)
      modify fun r => { r with flags := r.flags.setZN (v + step) }
      return extra := by
  unfold stepMemory
  split
  case h_1 => rfl
  case h_2 =>
    refine bind_congr fun x => Operand.fetch_congr fun v r hlatched => ?_
    exact Operand.putBack_bind hlatched _ _

/-- The registers after an index has been stepped, up or down, with a wrap from either end to the other. -/
def indexStepped? (r : Registers) : Mnemonic → Option Registers
  | .inx => some (r.setX (r.x + 1))
  | .iny => some (r.setY (r.y + 1))
  | .dex => some (r.setX (r.x - 1))
  | .dey => some (r.setY (r.y - 1))
  | _ => none

/-- Counts X or Y up or down; zero and negative tell about the result. -/
def stepIndex (i : Instruction) : Micro Nat := do
  match indexStepped? (← get) i.mnemonic with
  | none => i.unexpected
  | some r =>
    set r
    return 0

/-! ## Flags and control flow -/

/-- The flags after one of them has been set or cleared by name. -/
def flagged? (f : Flags) : Mnemonic → Option Flags
  | .clc => some { f with carry := false }
  | .cld => some { f with decimal := false }
  | .cli => some { f with interruptDisable := false }
  | .clv => some { f with overflow := false }
  | .sec => some { f with carry := true }
  | .sed => some { f with decimal := true }
  | .sei => some { f with interruptDisable := true }
  | _ => none

/-- Sets or clears the one flag that the mnemonic names; there is no way to set overflow. -/
def flag (i : Instruction) : Micro Nat := do
  let r ← get
  match flagged? r.flags i.mnemonic with
  | none => i.unexpected
  | some flags =>
    set { r with flags }
    return 0

/-- Whether a branch is taken; every condition is one flag, up or down. -/
def taken? (f : Flags) : Mnemonic → Option Bool
  | .bcc => some !f.carry
  | .bcs => some f.carry
  | .bne => some !f.zero
  | .beq => some f.zero
  | .bpl => some !f.negative
  | .bmi => some f.negative
  | .bvc => some !f.overflow
  | .bvs => some f.overflow
  | _ => none

/-- Goes to the target if the condition holds.  A target in another page than the next instruction costs one
    cycle more, but only when the branch is taken. -/
def branch (i : Instruction) : Micro Nat := do
  match taken? (← get).flags i.mnemonic with
  | none => i.unexpected
  | some taken =>
    match ← i.locate with
    -- there is no address to go to
    | (.accumulator, _) => i.refuseMode
    | (.cell target, extra) =>
      if taken then
        -- by now the program counter is at the next instruction
        let r ← get
        set { r with pc := target }
        return extra + i.crossingCost r.pc target
      else
        return extra

/-- Goes to the operand's address; the cell that is there is not read. -/
def jmp (i : Instruction) : Micro Nat := do
  match i.mode with
  | .absolute | .indirect =>
    match ← i.locate with
    | (.accumulator, extra) => return extra
    | (.cell target, extra) =>
      modify fun r => { r with pc := target }
      return extra
  | _ => i.refuseMode

/-- Pushes the address of its own last byte, not of the instruction after it, and goes to the address in its
    operand bytes. -/
def jsr (i : Instruction) : Micro Nat := do
  match i.mode with
  | .absolute =>
    let target ← fetchWord
    pushWord ((← get).pc - 1)
    modify fun r => { r with pc := target }
    return 0
  | _ => i.refuseMode

end Instruction

/-! ## The stack -/

namespace Micro

/-- Pulls an address and goes to the one behind it, which makes up for what `jsr` pushes. -/
def rts : Micro Unit := do
  let last ← pullWord
  modify fun r => { r with pc := last + 1 }

/-- Pulls the status and then an address, and goes exactly there.  The flags break and unused stay as the
    processor has them. -/
def rti : Micro Unit := do
  let p ← pull
  modify fun r => { r with flags := r.flags.load p true }
  let target ← pullWord
  modify fun r => { r with pc := target }

/-- Pushes A as it is; no flag tells about it. -/
def pha : Micro Unit := do
  push (← get).a

/-- Pushes the status.  The pushed byte has its break and unused bits set, whatever the flags are. -/
def php : Micro Unit := do
  push ((← get).flags.toByte ||| 0x30)

/-- Pulls a byte into A; zero and negative tell about it. -/
def pla : Micro Unit := do
  let v ← pull
  modify (·.setA v)

/-- Pulls the status.  The flags break and unused stay as the processor has them. -/
def plp : Micro Unit := do
  let p ← pull
  modify fun r => { r with flags := r.flags.load p true }

/-- BRK when nothing is being serviced, and otherwise the entry into that interrupt's handler. -/
def enter (servicing : Option Interrupt) : Micro Unit := do
  if servicing.isNone then
    -- BRK itself is two bytes long, the second of which nobody looks at
    modify fun r => { r with pc := r.pc + 1 }
  pushWord (← get).pc
  -- the break bit of the pushed byte is how a handler tells the two apart
  push { (← get).flags with unused := true, brk := servicing.isNone }.toByte
  modify fun r => { r with flags := { r.flags with interruptDisable := true } }
  let target ← readWord (if servicing = some .nmi then nmiVector else irqVector)
  modify fun r => { r with pc := target }

end Micro

namespace Instruction

/-- Executes the instruction whose opcode was at `start`; the result is the cycles it costs on top.
    With an interrupt in `servicing` it is that interrupt which BRK enters. -/
def execute (i : Instruction) (servicing : Option Interrupt) (start : UInt16) : Micro Nat := do
  match i.handler with
  | .adc => i.adc
  | .sbc => i.sbc
  | .logic => i.logic
  | .bit => i.bit
  | .compare => i.compare
  | .load => i.load
  | .store => i.store
  | .shift => i.shift
  | .stepMemory => i.stepMemory
  | .stepIndex => i.stepIndex
  | .transfer => i.transfer
  | .flag => i.flag
  | .branch => i.branch
  | .jmp => i.jmp
  | .jsr => i.jsr
  | .brk => Micro.enter servicing; return 0
  | .rti => Micro.rti; return 0
  | .rts => Micro.rts; return 0
  | .pha => Micro.pha; return 0
  | .php => Micro.php; return 0
  | .pla => Micro.pla; return 0
  | .plp => Micro.plp; return 0
  | .nop => return 0
  | .unimplemented => throw (.unimplementedOpcode i.opcode start)

end Instruction

end Breadboard
