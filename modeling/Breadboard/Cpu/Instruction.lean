import Breadboard.Text.Shown
/-
  Instruction descriptors: what an opcode is called, where its operand comes from, which routine
  executes it, and what it costs; and why an instruction cannot be executed.

  A descriptor's parts are independent of each other.  Which combinations exist is the business of
  the opcode table; an executing routine checks the combinations that it can be handed, and each of the
  faults that it can find ends a run.
-/
namespace Breadboard

/-- What an instruction is called; `xxx` stands for an opcode without a documented meaning. -/
inductive Mnemonic where
  | adc | and | asl | bcc | bcs | beq | bit | bmi | bne | bpl | brk | bvc | bvs | clc | cld
  | cli | clv | cmp | cpx | cpy | dec | dex | dey | eor | inc | inx | iny | jmp | jsr | lda
  | ldx | ldy | lsr | nop | ora | pha | php | pla | plp | rol | ror | rti | rts | sbc | sec
  | sed | sei | sta | stx | sty | tax | tay | tsx | txa | txs | tya | xxx
deriving DecidableEq, Repr, Inhabited

/-- Where an instruction finds its operand.  The mode settles how many operand bytes follow the opcode, and
    so does the length of the instruction, which is kept beside it. -/
inductive Mode where
  /-- There is none. -/
  | implied
  /-- It is the register A. -/
  | accumulator
  /-- It is the byte after the opcode. -/
  | immediate
  /-- It is at the address after the opcode. -/
  | absolute
  /-- It is at the address stored where the word after the opcode points. -/
  | indirect
  /-- It is at an address, plus X. -/
  | absoluteX
  /-- It is at an address, plus Y. -/
  | absoluteY
  /-- It is at the address stored in page 0 at the next byte plus X. -/
  | indexedIndirect
  /-- It is at the address stored in page 0 at the next byte, plus Y. -/
  | indirectIndexed
  /-- It is in page 0. -/
  | zeroPage
  /-- It is in page 0 at the next byte plus X, which stays in page 0. -/
  | zeroPageX
  /-- It is in page 0 at the next byte plus Y, which stays in page 0. -/
  | zeroPageY
  /-- It is a branch target, given by its signed distance. -/
  | relative
deriving DecidableEq, Repr, Inhabited

/-- The routines that execute instructions; some of them serve several mnemonics, and tell them apart only
    when they run. -/
inductive Handler where
  | adc | sbc
  /-- AND, ORA, EOR. -/
  | logic
  | bit
  /-- CMP, CPX, CPY. -/
  | compare
  /-- LDA, LDX, LDY. -/
  | load
  /-- STA, STX, STY. -/
  | store
  /-- ASL, LSR, ROL, ROR. -/
  | shift
  /-- INC, DEC. -/
  | stepMemory
  /-- INX, INY, DEX, DEY. -/
  | stepIndex
  /-- TAX, TAY, TSX, TXA, TXS, TYA. -/
  | transfer
  /-- CLC, CLD, CLI, CLV, SEC, SED, SEI. -/
  | flag
  /-- BCC, BCS, BEQ, BMI, BNE, BPL, BVC, BVS. -/
  | branch
  | brk | jmp | jsr | rti | rts | pha | php | pla | plp | nop
  | unimplemented
deriving DecidableEq, Repr, Inhabited

/-- What is known of an opcode.  Nothing here keeps the parts in step with each other: a routine may be
    handed any combination, and refuses those that it cannot use. -/
structure Instruction where
  opcode : UInt8
  mnemonic : Mnemonic
  mode : Mode
  /-- The bytes it takes, its opcode included. -/
  length : Nat
  /-- The cycles it costs at least. -/
  cycles : Nat
  /-- One cycle more when an indexed address, or a taken branch, ends up in another page. -/
  pageCross : Bool
  handler : Handler
deriving DecidableEq, Repr

/-- Whether some routine executes the instruction; the others are the opcodes without a documented meaning. -/
def Instruction.implemented (i : Instruction) : Bool :=
  i.handler != .unimplemented

/-! ## Names -/

/-- What a mnemonic is called in messages and in the trace of a run. -/
def Mnemonic.name : Mnemonic → String
  | .adc => "ADC" | .and => "AND" | .asl => "ASL" | .bcc => "BCC" | .bcs => "BCS"
  | .beq => "BEQ" | .bit => "BIT" | .bmi => "BMI" | .bne => "BNE" | .bpl => "BPL"
  | .brk => "BRK" | .bvc => "BVC" | .bvs => "BVS" | .clc => "CLC" | .cld => "CLD"
  | .cli => "CLI" | .clv => "CLV" | .cmp => "CMP" | .cpx => "CPX" | .cpy => "CPY"
  | .dec => "DEC" | .dex => "DEX" | .dey => "DEY" | .eor => "EOR" | .inc => "INC"
  | .inx => "INX" | .iny => "INY" | .jmp => "JMP" | .jsr => "JSR" | .lda => "LDA"
  | .ldx => "LDX" | .ldy => "LDY" | .lsr => "LSR" | .nop => "NOP" | .ora => "ORA"
  | .pha => "PHA" | .php => "PHP" | .pla => "PLA" | .plp => "PLP" | .rol => "ROL"
  | .ror => "ROR" | .rti => "RTI" | .rts => "RTS" | .sbc => "SBC" | .sec => "SEC"
  | .sed => "SED" | .sei => "SEI" | .sta => "STA" | .stx => "STX" | .sty => "STY"
  | .tax => "TAX" | .tay => "TAY" | .tsx => "TSX" | .txa => "TXA" | .txs => "TXS"
  | .tya => "TYA" | .xxx => "XXX"

/-- What a mode is called in messages and in the trace; the words are run together. -/
def Mode.name : Mode → String
  | .implied => "Implied"
  | .accumulator => "Accumulator"
  | .immediate => "Immediate"
  | .absolute => "Absolute"
  | .indirect => "Indirect"
  | .absoluteX => "AbsoluteX"
  | .absoluteY => "AbsoluteY"
  | .indexedIndirect => "IndexedIndirect"
  | .indirectIndexed => "IndirectIndexed"
  | .zeroPage => "ZeroPage"
  | .zeroPageX => "ZeroPageX"
  | .zeroPageY => "ZeroPageY"
  | .relative => "Relative"

/-- What a routine is called in the message that it cannot execute a mnemonic. -/
def Handler.name : Handler → String
  | .adc => "Adc" | .sbc => "Sbc" | .logic => "Logic" | .bit => "Bit" | .compare => "Compare"
  | .load => "Load" | .store => "Store" | .shift => "Shift" | .stepMemory => "StepMemory"
  | .stepIndex => "StepIndex" | .transfer => "Transfer" | .flag => "Flag" | .branch => "Branch"
  | .brk => "Brk" | .jmp => "Jmp" | .jsr => "Jsr" | .rti => "Rti" | .rts => "Rts" | .pha => "Pha"
  | .php => "Php" | .pla => "Pla" | .plp => "Plp" | .nop => "Nop"
  | .unimplemented => "Unimplemented"

/-! ## All of them, and finding them by name -/

/-- All mnemonics in alphabetical order, the one that stands for no meaning last. -/
def Mnemonic.all : List Mnemonic := [
  .adc, .and, .asl, .bcc, .bcs, .beq, .bit, .bmi, .bne, .bpl, .brk, .bvc, .bvs, .clc, .cld, .cli,
  .clv, .cmp, .cpx, .cpy, .dec, .dex, .dey, .eor, .inc, .inx, .iny, .jmp, .jsr, .lda, .ldx, .ldy,
  .lsr, .nop, .ora, .pha, .php, .pla, .plp, .rol, .ror, .rti, .rts, .sbc, .sec, .sed, .sei, .sta,
  .stx, .sty, .tax, .tay, .tsx, .txa, .txs, .tya, .xxx]

/-- All modes, in the order in which they were declared. -/
def Mode.all : List Mode := [
  .implied, .accumulator, .immediate, .absolute, .indirect, .absoluteX, .absoluteY,
  .indexedIndirect, .indirectIndexed, .zeroPage, .zeroPageX, .zeroPageY, .relative]

/-- All routines, in the order in which they were declared. -/
def Handler.all : List Handler := [
  .adc, .sbc, .logic, .bit, .compare, .load, .store, .shift, .stepMemory, .stepIndex, .transfer,
  .flag, .branch, .brk, .jmp, .jsr, .rti, .rts, .pha, .php, .pla, .plp, .nop, .unimplemented]

/-- Finds a mnemonic by its name, upper case as it is printed. -/
def Mnemonic.ofName? (name : String) : Option Mnemonic :=
  Mnemonic.all.find? (·.name = name)

/-- Finds a mode by its name, in the spelling of the messages. -/
def Mode.ofName? (name : String) : Option Mode :=
  Mode.all.find? (·.name = name)

/-- Finds a routine by its name, in the spelling of the messages. -/
def Handler.ofName? (name : String) : Option Handler :=
  Handler.all.find? (·.name = name)

/-- The list of mnemonics leaves none out, so a name that is not found there belongs to no mnemonic at all. -/
theorem Mnemonic.mem_all (m : Mnemonic) : m ∈ Mnemonic.all := by cases m <;> decide

/-- The list of modes leaves none out, so what holds of its elements holds of every mode. -/
theorem Mode.mem_all (m : Mode) : m ∈ Mode.all := by cases m <;> decide

/-- The list of routines leaves none out, so what holds of its elements holds of every routine. -/
theorem Handler.mem_all (h : Handler) : h ∈ Handler.all := by cases h <;> decide

/-! ## Faults -/

/-- Why an instruction cannot be executed.  Only the first of these can come up with the descriptors of the
    opcode table; the others are for descriptors that somebody else has made. -/
inductive Fault where
  /-- The opcode at `pc` has no documented meaning. -/
  | unimplementedOpcode (opcode : UInt8) (pc : UInt16)
  /-- The routine of this mnemonic has no use for an operand found this way. -/
  | invalidMode (mnemonic : Mnemonic) (mode : Mode)
  /-- An operand was asked for where the mode has none. -/
  | impliedOperand (mnemonic : Mnemonic)
  /-- The routine does not serve this mnemonic. -/
  | unexpectedMnemonic (mnemonic : Mnemonic) (handler : Handler)
deriving DecidableEq, Repr

open Text in
/-- A fault in words, with opcodes and addresses in hexadecimal and everything else under its own name. -/
def Fault.message : Fault → String
  | .unimplementedOpcode opcode pc =>
    s!"unimplemented opcode {Hex.markedByte opcode} at {Hex.markedAddress pc}"
  | .invalidMode mnemonic mode => s!"{mnemonic.name} does not support {mode.name} addressing"
  | .impliedOperand mnemonic => s!"{mnemonic.name} requested an operand in implied mode"
  | .unexpectedMnemonic mnemonic handler =>
    s!"{handler.name} routine cannot execute {mnemonic.name}"

end Breadboard
