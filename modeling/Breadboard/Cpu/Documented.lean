import Breadboard.Cpu.Instruction
/-
  The documented opcodes: 151 of the 256, each with its mnemonic, addressing mode, length in bytes
  and cost in cycles.  `entry` rows always cost the same; a `crossing` row costs one cycle more when
  its address, or its branch target, lies in another page.

  `decode` finds the descriptor of an opcode.  An opcode that is not listed gets a descriptor too,
  one that no routine executes, so decoding never fails.
-/
namespace Breadboard

/-- The routine that executes a mnemonic; an opcode without a meaning has a routine that only reports it. -/
def Mnemonic.handler : Mnemonic → Handler
  | .adc => .adc
  | .sbc => .sbc
  | .and | .ora | .eor => .logic
  | .bit => .bit
  | .cmp | .cpx | .cpy => .compare
  | .lda | .ldx | .ldy => .load
  | .sta | .stx | .sty => .store
  | .asl | .lsr | .rol | .ror => .shift
  | .inc | .dec => .stepMemory
  | .inx | .iny | .dex | .dey => .stepIndex
  | .tax | .tay | .tsx | .txa | .txs | .tya => .transfer
  | .clc | .cld | .cli | .clv | .sec | .sed | .sei => .flag
  | .bcc | .bcs | .beq | .bmi | .bne | .bpl | .bvc | .bvs => .branch
  | .brk => .brk
  | .jmp => .jmp
  | .jsr => .jsr
  | .rti => .rti
  | .rts => .rts
  | .pha => .pha
  | .php => .php
  | .pla => .pla
  | .plp => .plp
  | .nop => .nop
  | .xxx => .unimplemented

namespace Instruction

/-- An instruction that always costs the same, with the routine that serves its mnemonic. -/
def entry (opcode : UInt8) (mnemonic : Mnemonic) (mode : Mode) (length cycles : Nat) :
    Instruction :=
  { opcode, mnemonic, mode, length, cycles, pageCross := false, handler := mnemonic.handler }

/-- An instruction that costs one cycle more across a page boundary, with the routine that serves its
    mnemonic. -/
def crossing (opcode : UInt8) (mnemonic : Mnemonic) (mode : Mode) (length cycles : Nat) :
    Instruction :=
  { opcode, mnemonic, mode, length, cycles, pageCross := true, handler := mnemonic.handler }

/-- The descriptor of an opcode without a documented meaning: one byte, no cycles, and a routine that
    fails. -/
def undocumented (opcode : UInt8) : Instruction :=
  entry opcode .xxx .implied 1 0

/-- The documented instructions, mnemonic by mnemonic, each with its length and its cost without a page
    crossing. -/
def documented : List Instruction := [
  entry 0x69 .adc .immediate 2 2, entry 0x65 .adc .zeroPage 2 3, entry 0x75 .adc .zeroPageX 2 4,
  entry 0x6D .adc .absolute 3 4, crossing 0x7D .adc .absoluteX 3 4,
  crossing 0x79 .adc .absoluteY 3 4, entry 0x61 .adc .indexedIndirect 2 6,
  crossing 0x71 .adc .indirectIndexed 2 5,
  entry 0x29 .and .immediate 2 2, entry 0x25 .and .zeroPage 2 3, entry 0x35 .and .zeroPageX 2 4,
  entry 0x2D .and .absolute 3 4, crossing 0x3D .and .absoluteX 3 4,
  crossing 0x39 .and .absoluteY 3 4, entry 0x21 .and .indexedIndirect 2 6,
  crossing 0x31 .and .indirectIndexed 2 5,
  entry 0x0A .asl .accumulator 1 2, entry 0x06 .asl .zeroPage 2 5, entry 0x16 .asl .zeroPageX 2 6,
  entry 0x0E .asl .absolute 3 6, entry 0x1E .asl .absoluteX 3 7,
  crossing 0x90 .bcc .relative 2 2, crossing 0xB0 .bcs .relative 2 2,
  crossing 0xF0 .beq .relative 2 2, crossing 0x30 .bmi .relative 2 2,
  crossing 0xD0 .bne .relative 2 2, crossing 0x10 .bpl .relative 2 2,
  crossing 0x50 .bvc .relative 2 2, crossing 0x70 .bvs .relative 2 2,
  entry 0x24 .bit .zeroPage 2 3, entry 0x2C .bit .absolute 3 4,
  entry 0x00 .brk .implied 1 7, entry 0x18 .clc .implied 1 2, entry 0xD8 .cld .implied 1 2,
  entry 0x58 .cli .implied 1 2, entry 0xB8 .clv .implied 1 2,
  entry 0xC9 .cmp .immediate 2 2, entry 0xC5 .cmp .zeroPage 2 3, entry 0xD5 .cmp .zeroPageX 2 4,
  entry 0xCD .cmp .absolute 3 4, crossing 0xDD .cmp .absoluteX 3 4,
  crossing 0xD9 .cmp .absoluteY 3 4, entry 0xC1 .cmp .indexedIndirect 2 6,
  crossing 0xD1 .cmp .indirectIndexed 2 5,
  entry 0xE0 .cpx .immediate 2 2, entry 0xE4 .cpx .zeroPage 2 3, entry 0xEC .cpx .absolute 3 4,
  entry 0xC0 .cpy .immediate 2 2, entry 0xC4 .cpy .zeroPage 2 3, entry 0xCC .cpy .absolute 3 4,
  entry 0xC6 .dec .zeroPage 2 5, entry 0xD6 .dec .zeroPageX 2 6, entry 0xCE .dec .absolute 3 6,
  entry 0xDE .dec .absoluteX 3 7,
  entry 0xCA .dex .implied 1 2, entry 0x88 .dey .implied 1 2,
  entry 0x49 .eor .immediate 2 2, entry 0x45 .eor .zeroPage 2 3, entry 0x55 .eor .zeroPageX 2 4,
  entry 0x4D .eor .absolute 3 4, crossing 0x5D .eor .absoluteX 3 4,
  crossing 0x59 .eor .absoluteY 3 4, entry 0x41 .eor .indexedIndirect 2 6,
  crossing 0x51 .eor .indirectIndexed 2 5,
  entry 0xE6 .inc .zeroPage 2 5, entry 0xF6 .inc .zeroPageX 2 6, entry 0xEE .inc .absolute 3 6,
  entry 0xFE .inc .absoluteX 3 7,
  entry 0xE8 .inx .implied 1 2, entry 0xC8 .iny .implied 1 2,
  entry 0x4C .jmp .absolute 3 3, entry 0x6C .jmp .indirect 3 5,
  entry 0x20 .jsr .absolute 3 6,
  entry 0xA9 .lda .immediate 2 2, entry 0xA5 .lda .zeroPage 2 3, entry 0xB5 .lda .zeroPageX 2 4,
  entry 0xAD .lda .absolute 3 4, crossing 0xBD .lda .absoluteX 3 4,
  crossing 0xB9 .lda .absoluteY 3 4, entry 0xA1 .lda .indexedIndirect 2 6,
  crossing 0xB1 .lda .indirectIndexed 2 5,
  entry 0xA2 .ldx .immediate 2 2, entry 0xA6 .ldx .zeroPage 2 3, entry 0xB6 .ldx .zeroPageY 2 4,
  entry 0xAE .ldx .absolute 3 4, crossing 0xBE .ldx .absoluteY 3 4,
  entry 0xA0 .ldy .immediate 2 2, entry 0xA4 .ldy .zeroPage 2 3, entry 0xB4 .ldy .zeroPageX 2 4,
  entry 0xAC .ldy .absolute 3 4, crossing 0xBC .ldy .absoluteX 3 4,
  entry 0x4A .lsr .accumulator 1 2, entry 0x46 .lsr .zeroPage 2 5, entry 0x56 .lsr .zeroPageX 2 6,
  entry 0x4E .lsr .absolute 3 6, entry 0x5E .lsr .absoluteX 3 7,
  entry 0xEA .nop .implied 1 2,
  entry 0x09 .ora .immediate 2 2, entry 0x05 .ora .zeroPage 2 3, entry 0x15 .ora .zeroPageX 2 4,
  entry 0x0D .ora .absolute 3 4, crossing 0x1D .ora .absoluteX 3 4,
  crossing 0x19 .ora .absoluteY 3 4, entry 0x01 .ora .indexedIndirect 2 6,
  crossing 0x11 .ora .indirectIndexed 2 5,
  entry 0x48 .pha .implied 1 3, entry 0x08 .php .implied 1 3, entry 0x68 .pla .implied 1 4,
  entry 0x28 .plp .implied 1 4,
  entry 0x2A .rol .accumulator 1 2, entry 0x26 .rol .zeroPage 2 5, entry 0x36 .rol .zeroPageX 2 6,
  entry 0x2E .rol .absolute 3 6, entry 0x3E .rol .absoluteX 3 7,
  entry 0x6A .ror .accumulator 1 2, entry 0x66 .ror .zeroPage 2 5, entry 0x76 .ror .zeroPageX 2 6,
  entry 0x6E .ror .absolute 3 6, entry 0x7E .ror .absoluteX 3 7,
  entry 0x40 .rti .implied 1 6, entry 0x60 .rts .implied 1 6,
  entry 0xE9 .sbc .immediate 2 2, entry 0xE5 .sbc .zeroPage 2 3, entry 0xF5 .sbc .zeroPageX 2 4,
  entry 0xED .sbc .absolute 3 4, crossing 0xFD .sbc .absoluteX 3 4,
  crossing 0xF9 .sbc .absoluteY 3 4, entry 0xE1 .sbc .indexedIndirect 2 6,
  crossing 0xF1 .sbc .indirectIndexed 2 5,
  entry 0x38 .sec .implied 1 2, entry 0xF8 .sed .implied 1 2, entry 0x78 .sei .implied 1 2,
  entry 0x85 .sta .zeroPage 2 3, entry 0x95 .sta .zeroPageX 2 4, entry 0x8D .sta .absolute 3 4,
  entry 0x9D .sta .absoluteX 3 5, entry 0x99 .sta .absoluteY 3 5,
  entry 0x81 .sta .indexedIndirect 2 6, entry 0x91 .sta .indirectIndexed 2 6,
  entry 0x86 .stx .zeroPage 2 3, entry 0x96 .stx .zeroPageY 2 4, entry 0x8E .stx .absolute 3 4,
  entry 0x84 .sty .zeroPage 2 3, entry 0x94 .sty .zeroPageX 2 4, entry 0x8C .sty .absolute 3 4,
  entry 0xAA .tax .implied 1 2, entry 0xA8 .tay .implied 1 2, entry 0xBA .tsx .implied 1 2,
  entry 0x8A .txa .implied 1 2, entry 0x9A .txs .implied 1 2, entry 0x98 .tya .implied 1 2]

/-- The descriptor of an opcode: the documented one, or else the one for opcodes without a meaning. -/
def decode (opcode : UInt8) : Instruction :=
  (documented.find? (·.opcode == opcode)).getD (undocumented opcode)

/-! ## The table is well formed -/

/-- There are 151 documented instructions, so 105 of the 256 opcodes are without a meaning. -/
theorem length_documented : documented.length = 151 := by decide +kernel

/-- No opcode is listed twice, so the order of the table does not matter to `decode`. -/
theorem nodup_opcode_documented : (documented.map (·.opcode)).Nodup := by decide +kernel

/-- A descriptor knows its own opcode, whether that has a meaning or not. -/
theorem opcode_decode (op : UInt8) : (decode op).opcode = op := by
  unfold decode
  cases h : documented.find? (·.opcode == op) with
  | none => rfl
  | some i => simpa using List.find?_some h

/-- Whatever has a routine is in the table: what holds of all documented instructions holds of every opcode
    that can be executed. -/
theorem mem_documented_of_implemented {op : UInt8} (h : (decode op).implemented) :
    decode op ∈ documented := by
  unfold decode at *
  cases hf : documented.find? (·.opcode == op) with
  | none => simp [hf, undocumented, entry, implemented, Mnemonic.handler] at h
  | some i => exact List.mem_of_find?_eq_some hf

end Instruction

end Breadboard
