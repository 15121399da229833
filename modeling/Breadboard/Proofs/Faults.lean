import Breadboard.Machine.Run
import Breadboard.Memory.World
import Breadboard.Proofs.Costs
/-
  When an instruction fails.

  The routines check what they are handed: a mnemonic that they serve, a mode that they can find their
  operand in.  `Fits` collects these checks, as a property of a descriptor alone.  A routine that is
  handed a descriptor that fits comes to its end whatever is in the registers and whatever the bus
  answers (`succeeds_execute`), and every row of the opcode table fits (`fits_documented`).  That leaves
  one fault out of four: the opcode that the table does not list.

  Such an opcode is found before anything has been done.  The program counter has already been moved,
  but a fault puts it back, and so a failed cycle can be told only from the address latch.
-/
namespace Breadboard

variable {α β : Type}

/-! ## Microprograms that cannot fail -/

/-- What is so at the end of all traffic may be weakened, by induction over the accesses. -/
theorem Traffic.Always.imp {P Q : α → Prop} {t : Traffic α} (h : t.Always P)
    (hPQ : ∀ a, P a → Q a) : t.Always Q := by
  induction t with
  | done result => exact hPQ result h
  | read address next ih => exact fun v => ih v (h v)
  | write address value next ih => exact ih h

namespace Micro

/-- Whatever is in the registers and on the bus, the microprogram ends without a fault, and its result is
    such. -/
def Completes (m : Micro α) (P : α → Prop) : Prop :=
  ∀ r, (m r).Always fun x => ∃ a, x.1 = .ok a ∧ P a

/-- It ends without a fault, and nothing is said of its result. -/
abbrev Succeeds (m : Micro α) : Prop :=
  m.Completes fun _ => True

variable {P : α → Prop} {Q : β → Prop}

theorem completes_pure {a : α} (h : P a) : Completes (pure a) P :=
  fun _ => ⟨a, rfl, h⟩

theorem succeeds_pure (a : α) : Succeeds (pure a) :=
  completes_pure trivial

/-- Two microprograms in a row end if the first one does and the second one does after every result that the
    first can have. -/
theorem Completes.bind {m : Micro α} {f : α → Micro β} (h : Completes m P)
    (hnext : ∀ a, P a → Completes (f a) Q) : Completes (m >>= f) Q := by
  intro r
  refine Traffic.Always.bind (h r) ?_
  rintro ⟨outcome, r'⟩ ⟨a, rfl, ha⟩
  exact hnext a ha r'

theorem Completes.succeeds {m : Micro α} (h : Completes m P) : Succeeds m :=
  fun r => (h r).imp fun _ ⟨a, hok, _⟩ => ⟨a, hok, trivial⟩

/-- Where nothing needs to be known of the result to go on, which is so nearly everywhere. -/
theorem Succeeds.then {m : Micro α} {f : α → Micro β} (h : Succeeds m)
    (hnext : ∀ a, Completes (f a) Q) : Completes (m >>= f) Q :=
  Completes.bind h fun a _ => hnext a

theorem succeeds_get : Succeeds (get : Micro Registers) :=
  fun r => ⟨r, rfl, trivial⟩

theorem succeeds_set (r : Registers) : Succeeds (set r : Micro Unit) :=
  fun _ => ⟨(), rfl, trivial⟩

theorem succeeds_modify (f : Registers → Registers) : Succeeds (modify f : Micro Unit) :=
  fun _ => ⟨(), rfl, trivial⟩

/-- An access to the bus cannot fail: every address answers something. -/
theorem succeeds_readByte (address : UInt16) : Succeeds (readByte address) :=
  fun _ v => ⟨v, rfl, trivial⟩

theorem succeeds_writeByte (address : UInt16) (value : UInt8) :
    Succeeds (writeByte address value) :=
  fun _ => ⟨(), rfl, trivial⟩

/-- Nor can two accesses in a row, and the same goes for all that follows up to whole routines. -/
theorem succeeds_readWord (address : UInt16) : Succeeds (readWord address) :=
  (succeeds_readByte _).then fun _ => (succeeds_readByte _).then fun _ => succeeds_pure _

theorem succeeds_readPageZeroWord (cell : UInt8) : Succeeds (readPageZeroWord cell) :=
  (succeeds_readByte _).then fun _ => (succeeds_readByte _).then fun _ => succeeds_pure _

/-- Fetching takes the program counter along, which wraps around and so has nowhere to fail. -/
theorem succeeds_fetchByte : Succeeds fetchByte :=
  succeeds_get.then fun _ => (succeeds_readByte _).then fun _ =>
    (succeeds_modify _).then fun _ => succeeds_pure _

theorem succeeds_fetchWord : Succeeds fetchWord :=
  succeeds_fetchByte.then fun _ => succeeds_fetchByte.then fun _ => succeeds_pure _

/-- A push goes to the stack page at whatever the stack pointer is, since the stack wraps around instead of
    running out. -/
theorem succeeds_push (v : UInt8) : Succeeds (push v) :=
  succeeds_get.then fun _ => (succeeds_writeByte _ _).then fun _ => succeeds_modify _

/-- The same for a pull: a stack is never empty. -/
theorem succeeds_pull : Succeeds pull :=
  (succeeds_modify _).then fun _ => succeeds_get.then fun _ => succeeds_readByte _

theorem succeeds_pushWord (w : UInt16) : Succeeds (pushWord w) :=
  (succeeds_push _).then fun _ => succeeds_push _

theorem succeeds_pullWord : Succeeds pullWord :=
  succeeds_pull.then fun _ => succeeds_pull.then fun _ => succeeds_pure _

end Micro

open Micro

theorem Operand.succeeds_fetch (operand : Operand) : Succeeds operand.fetch := by
  cases operand with
  | accumulator => exact succeeds_get.then fun _ => succeeds_pure _
  | cell address => exact succeeds_readByte address

/-- It can be stored to as well, an operand being a register or a cell. -/
theorem Operand.succeeds_store (operand : Operand) (v : UInt8) : Succeeds (operand.store v) := by
  cases operand with
  | accumulator => exact succeeds_modify _
  | cell address => exact succeeds_writeByte address v

/-! ## Descriptors that fit their routine -/

namespace Instruction

/-- Whether a routine can find its operand in a mode.  These are the modes that the routine does not turn
    down, be it by its own check or when the operand is located. -/
def Takes (mode : Mode) : Handler → Prop
  | .adc | .sbc | .logic | .bit | .load | .shift | .stepMemory => mode ≠ .implied
  | .compare => mode ∉ [.implied, .accumulator, .relative, .indirect]
  | .store => mode ∉ [.implied, .immediate, .accumulator, .relative]
  | .branch => mode ∉ [.implied, .accumulator]
  | .jmp => mode ∈ [.absolute, .indirect]
  | .jsr => mode ∈ [.absolute]
  -- the routine for everything else turns down whatever it gets
  | .unimplemented => False
  | _ => True

/-- The descriptor names the routine that serves its mnemonic, and a mode that the routine takes.  Both are
    needed: the routines check the one and the other. -/
structure Fits (i : Instruction) : Prop where
  serves : i.mnemonic.handler = i.handler
  takes : Takes i.mode i.handler

instance (mode : Mode) (handler : Handler) : Decidable (Takes mode handler) := by
  unfold Takes
  split <;> infer_instance

/-- The two conditions as a conjunction, which is what can be decided. -/
theorem fits_iff (i : Instruction) :
    i.Fits ↔ i.mnemonic.handler = i.handler ∧ Takes i.mode i.handler :=
  ⟨fun ⟨hserves, htakes⟩ => ⟨hserves, htakes⟩, fun ⟨hserves, htakes⟩ => ⟨hserves, htakes⟩⟩

instance (i : Instruction) : Decidable i.Fits :=
  decidable_of_iff _ i.fits_iff.symm

/-- Every row of the opcode table fits.  This is one evaluation over the rows, and the only place where the
    table itself is looked into. -/
theorem fits_documented : ∀ i ∈ documented, i.Fits := by decide +kernel

/-! ## Routines that cannot fail -/

variable {i : Instruction}

/-- An operand is found in every mode but the one that has none, and it is the accumulator in accumulator
    mode only. -/
theorem completes_locate (h : i.mode ≠ .implied) :
    i.locate.Completes fun x => x.1 = .accumulator → i.mode = .accumulator := by
  have hcell : ∀ {address : UInt16} {extra : Nat},
      Completes (pure (Operand.cell address, extra))
        fun x => x.1 = .accumulator → i.mode = .accumulator :=
    completes_pure fun h => nomatch h
  -- one case for each mode, each of them a chain of fetches and reads
  unfold locate
  split
  case h_1 hmode => exact absurd hmode h
  case h_2 hmode => exact completes_pure fun _ => hmode
  case h_3 => exact succeeds_get.then fun _ => (succeeds_set _).then fun _ => hcell
  case h_4 => exact succeeds_fetchWord.then fun _ => hcell
  case h_5 => exact succeeds_fetchWord.then fun _ => (succeeds_readWord _).then fun _ => hcell
  case h_6 | h_7 => exact succeeds_fetchWord.then fun _ => succeeds_get.then fun _ => hcell
  case h_8 =>
    exact succeeds_fetchByte.then fun _ => succeeds_get.then fun _ =>
      (succeeds_readPageZeroWord _).then fun _ => hcell
  case h_9 =>
    exact succeeds_fetchByte.then fun _ => (succeeds_readPageZeroWord _).then fun _ =>
      succeeds_get.then fun _ => hcell
  case h_10 => exact succeeds_fetchByte.then fun _ => hcell
  case h_11 | h_12 | h_13 => exact succeeds_fetchByte.then fun _ => succeeds_get.then fun _ => hcell

/-- Where only the finding matters, and not what is found. -/
theorem succeeds_locate (h : i.mode ≠ .implied) : i.locate.Succeeds :=
  (completes_locate h).succeeds

/-- Hence the byte of an operand can be had in every mode but that one. -/
theorem succeeds_operandByte (h : i.mode ≠ .implied) : i.operandByte.Succeeds :=
  (succeeds_locate h).then fun x => x.1.succeeds_fetch.then fun _ => succeeds_pure _

/-- The routines follow one by one.  Addition takes its operand and writes registers, with nothing to
    check. -/
theorem succeeds_adc (h : i.mode ≠ .implied) : i.adc.Succeeds :=
  (succeeds_operandByte h).then fun _ => (succeeds_modify _).then fun _ => succeeds_pure _

theorem succeeds_sbc (h : i.mode ≠ .implied) : i.sbc.Succeeds :=
  (succeeds_operandByte h).then fun _ => (succeeds_modify _).then fun _ => succeeds_pure _

theorem succeeds_bit (h : i.mode ≠ .implied) : i.bit.Succeeds :=
  (succeeds_operandByte h).then fun _ => (succeeds_modify _).then fun _ => succeeds_pure _

/-- The three logical operations end for each mnemonic that this routine serves, and the check of the
    mnemonic is passed by these alone. -/
theorem succeeds_logic (hserves : i.mnemonic.handler = .logic) (h : i.mode ≠ .implied) :
    i.logic.Succeeds := by
  refine (succeeds_operandByte h).then fun x => ?_
  dsimp only
  split
  case h_4 hand hora heor =>
    -- the table gives this routine three mnemonics, and these are excluded here
    revert hserves hand hora heor
    cases i.mnemonic <;> simp [Mnemonic.handler]
  all_goals exact (succeeds_modify _).then fun _ => succeeds_pure _

/-- Every mnemonic of the comparing routine has a register that it compares. -/
theorem comparedRegister?_isSome (r : Registers) {m : Mnemonic} (h : m.handler = .compare) :
    comparedRegister? r m ≠ none := by
  revert h
  cases m <;> simp [Mnemonic.handler, comparedRegister?]

/-- Comparing turns down four modes of its own before it looks for an operand. -/
theorem succeeds_compare (hserves : i.mnemonic.handler = .compare)
    (h : i.mode ∉ [.implied, .accumulator, .relative, .indirect]) : i.compare.Succeeds := by
  refine succeeds_get.then fun r => ?_
  split
  case h_1 hnone => exact absurd hnone (comparedRegister?_isSome r hserves)
  case h_2 =>
    split
    case h_4 =>
      have hmode : i.mode ≠ .implied := List.ne_of_not_mem_cons h
      exact (succeeds_operandByte hmode).then fun _ => (succeeds_modify _).then fun _ =>
        succeeds_pure _
    all_goals
      -- one of the modes that are turned down, and so not one of those that the routine takes
      rename_i hmode
      rw [hmode] at h
      exact absurd h (by decide)

theorem succeeds_load (hserves : i.mnemonic.handler = .load) (h : i.mode ≠ .implied) :
    i.load.Succeeds := by
  unfold load
  split
  -- what is left is a mnemonic that is none of the three, and the routine does not serve it
  case h_4 hlda hldx hldy =>
    revert hserves hlda hldx hldy
    cases i.mnemonic <;> simp [Mnemonic.handler]
  all_goals
    exact (succeeds_operandByte h).then fun _ => (succeeds_modify _).then fun _ => succeeds_pure _

/-- Every mnemonic of the storing routine has a register that it stores. -/
theorem storedRegister?_isSome (r : Registers) {m : Mnemonic} (h : m.handler = .store) :
    storedRegister? r m ≠ none := by
  revert h
  cases m <;> simp [Mnemonic.handler, storedRegister?]

/-- Storing turns down the modes in which there is nowhere to store. -/
theorem succeeds_store (hserves : i.mnemonic.handler = .store)
    (h : i.mode ∉ [.implied, .immediate, .accumulator, .relative]) : i.store.Succeeds := by
  refine succeeds_get.then fun r => ?_
  split
  case h_1 hnone => exact absurd hnone (storedRegister?_isSome r hserves)
  case h_2 =>
    split
    case h_4 =>
      have hmode : i.mode ≠ .implied := List.ne_of_not_mem_cons h
      exact (succeeds_locate hmode).then fun x => (x.1.succeeds_store _).then fun _ =>
        succeeds_pure _
    all_goals
      -- as for comparing
      rename_i hmode
      rw [hmode] at h
      exact absurd h (by decide)

/-- Every mnemonic of the transferring routine is one of the transfers. -/
theorem transferred?_isSome (r : Registers) {m : Mnemonic} (h : m.handler = .transfer) :
    transferred? r m ≠ none := by
  revert h
  cases m <;> simp [Mnemonic.handler, transferred?]

/-- A transfer stays within the registers and has no operand to look for. -/
theorem succeeds_transfer (hserves : i.mnemonic.handler = .transfer) : i.transfer.Succeeds := by
  refine succeeds_get.then fun r => ?_
  split
  case h_1 hnone => exact absurd hnone (transferred?_isSome r hserves)
  case h_2 => exact (succeeds_set _).then fun _ => succeeds_pure _

/-- Shifting and rotating fetch an operand and store it back, which every mode with an operand allows. -/
theorem succeeds_shift (hserves : i.mnemonic.handler = .shift) (h : i.mode ≠ .implied) :
    i.shift.Succeeds := by
  rw [shift_eq]
  split
  -- none of the four mnemonics, which the routine does not serve
  case h_5 hasl hrol hlsr hror =>
    revert hserves hasl hrol hlsr hror
    cases i.mnemonic <;> simp [Mnemonic.handler]
  all_goals
    exact (succeeds_locate h).then fun x => x.1.succeeds_fetch.then fun _ =>
      succeeds_get.then fun _ => (x.1.succeeds_store _).then fun _ =>
        (succeeds_modify _).then fun _ => succeeds_pure _

/-- Every mnemonic of the memory counting routine counts up or down. -/
theorem memoryStep?_isSome {m : Mnemonic} (h : m.handler = .stepMemory) : memoryStep? m ≠ none := by
  revert h
  cases m <;> simp [Mnemonic.handler, memoryStep?]

/-- Counting in memory goes through the same motions as shifting does. -/
theorem succeeds_stepMemory (hserves : i.mnemonic.handler = .stepMemory)
    (h : i.mode ≠ .implied) : i.stepMemory.Succeeds := by
  rw [stepMemory_eq]
  split
  case h_1 hnone => exact absurd hnone (memoryStep?_isSome hserves)
  case h_2 =>
    exact (succeeds_locate h).then fun x => x.1.succeeds_fetch.then fun _ =>
      (x.1.succeeds_store _).then fun _ => (succeeds_modify _).then fun _ => succeeds_pure _

/-- Every mnemonic of the index counting routine names an index register. -/
theorem indexStepped?_isSome (r : Registers) {m : Mnemonic} (h : m.handler = .stepIndex) :
    indexStepped? r m ≠ none := by
  revert h
  cases m <;> simp [Mnemonic.handler, indexStepped?]

theorem succeeds_stepIndex (hserves : i.mnemonic.handler = .stepIndex) : i.stepIndex.Succeeds := by
  refine succeeds_get.then fun r => ?_
  split
  case h_1 hnone => exact absurd hnone (indexStepped?_isSome r hserves)
  case h_2 => exact (succeeds_set _).then fun _ => succeeds_pure _

theorem flagged?_isSome (f : Flags) {m : Mnemonic} (h : m.handler = .flag) : flagged? f m ≠ none := by
  revert h
  cases m <;> simp [Mnemonic.handler, flagged?]

theorem succeeds_flag (hserves : i.mnemonic.handler = .flag) : i.flag.Succeeds := by
  refine succeeds_get.then fun r => ?_
  split
  case h_1 hnone => exact absurd hnone (flagged?_isSome r.flags hserves)
  case h_2 => exact (succeeds_set _).then fun _ => succeeds_pure _

theorem taken?_isSome (f : Flags) {m : Mnemonic} (h : m.handler = .branch) : taken? f m ≠ none := by
  revert h
  cases m <;> simp [Mnemonic.handler, taken?]

/-- A branch ends, taken or not.  Its target is a cell, as long as the mode is not the one that finds none. -/
theorem succeeds_branch (hserves : i.mnemonic.handler = .branch)
    (h : i.mode ∉ [.implied, .accumulator]) : i.branch.Succeeds := by
  have himplied : i.mode ≠ .implied := List.ne_of_not_mem_cons h
  have haccumulator : i.mode ≠ .accumulator := fun hmode => h (by simp [hmode])
  refine succeeds_get.then fun r => ?_
  split
  case h_1 hnone => exact absurd hnone (taken?_isSome r.flags hserves)
  case h_2 taken _ =>
    refine (completes_locate himplied).bind ?_
    rintro ⟨operand, extra⟩ hoperand
    cases operand with
    | accumulator => exact absurd (hoperand rfl) haccumulator
    | cell target =>
      simp only
      split
      · exact succeeds_get.then fun _ => (succeeds_set _).then fun _ => succeeds_pure _
      · exact succeeds_pure _

/-- A jump takes two modes, each of them with a cell for its target. -/
theorem succeeds_jmp (h : i.mode ∈ [.absolute, .indirect]) : i.jmp.Succeeds := by
  have himplied : i.mode ≠ .implied := fun hmode => by simp [hmode] at h
  unfold jmp
  split
  -- a mode that is neither, which the routine does not take
  case h_3 habsolute hindirect =>
    rcases List.mem_cons.mp h with hmode | hmode
    · exact absurd hmode habsolute
    · exact absurd (List.mem_singleton.mp hmode) hindirect
  all_goals
    refine (succeeds_locate himplied).then fun ⟨operand, extra⟩ => ?_
    cases operand with
    | accumulator => exact succeeds_pure _
    | cell target => exact (succeeds_modify _).then fun _ => succeeds_pure _

/-- A subroutine call takes one mode, and the rest of it is pushes. -/
theorem succeeds_jsr (h : i.mode ∈ [.absolute]) : i.jsr.Succeeds := by
  unfold jsr
  rw [List.mem_singleton.mp h]
  exact succeeds_fetchWord.then fun _ => succeeds_get.then fun _ => (succeeds_pushWord _).then
    fun _ => (succeeds_modify _).then fun _ => succeeds_pure _

end Instruction

namespace Micro

theorem succeeds_rts : Succeeds rts :=
  succeeds_pullWord.then fun _ => succeeds_modify _

/-- Both returns only pull, and what they pull is taken as it is. -/
theorem succeeds_rti : Succeeds rti :=
  succeeds_pull.then fun _ => (succeeds_modify _).then fun _ => succeeds_pullWord.then fun _ =>
    succeeds_modify _

theorem succeeds_pha : Succeeds pha :=
  succeeds_get.then fun _ => succeeds_push _

theorem succeeds_php : Succeeds php :=
  succeeds_get.then fun _ => succeeds_push _

theorem succeeds_pla : Succeeds pla :=
  succeeds_pull.then fun _ => succeeds_modify _

theorem succeeds_plp : Succeeds plp :=
  succeeds_pull.then fun _ => succeeds_modify _

/-- Entering an interrupt pushes three bytes and reads a vector.  Whether an instruction or a request led to
    it only decides where the program counter points, and which vector is read. -/
theorem succeeds_enter (servicing : Option Interrupt) : Succeeds (enter servicing) := by
  have hpushes : Succeeds (do
      pushWord (← get).pc
      push { (← get).flags with unused := true, brk := servicing.isNone }.toByte
      modify fun r => { r with flags := { r.flags with interruptDisable := true } }
      let target ← readWord (if servicing = some .nmi then nmiVector else irqVector)
      modify fun r => { r with pc := target }) :=
    succeeds_get.then fun _ => (succeeds_pushWord _).then fun _ => succeeds_get.then fun _ =>
      (succeeds_push _).then fun _ => (succeeds_modify _).then fun _ =>
        (succeeds_readWord _).then fun _ => succeeds_modify _
  unfold enter
  -- BRK skips a byte first, and a request does not
  cases servicing with
  | none => exact (succeeds_modify _).then fun _ => hpushes
  | some interrupt => exact hpushes

end Micro

namespace Instruction

/-- An instruction whose descriptor fits cannot fail, whatever is serviced by it and wherever it started. -/
theorem succeeds_execute {i : Instruction} (h : i.Fits) (servicing : Option Interrupt)
    (start : UInt16) : (i.execute servicing start).Succeeds := by
  obtain ⟨hserves, htakes⟩ := h
  unfold execute
  -- the routine decides which mnemonics and which modes remain
  generalize hhandler : i.handler = handler at hserves htakes
  cases handler with
  | adc => exact succeeds_adc htakes
  | sbc => exact succeeds_sbc htakes
  | logic => exact succeeds_logic hserves htakes
  | bit => exact succeeds_bit htakes
  | compare => exact succeeds_compare hserves htakes
  | load => exact succeeds_load hserves htakes
  | store => exact succeeds_store hserves htakes
  | shift => exact succeeds_shift hserves htakes
  | stepMemory => exact succeeds_stepMemory hserves htakes
  | stepIndex => exact succeeds_stepIndex hserves
  | transfer => exact succeeds_transfer hserves
  | flag => exact succeeds_flag hserves
  | branch => exact succeeds_branch hserves htakes
  | jmp => exact succeeds_jmp htakes
  | jsr => exact succeeds_jsr htakes
  | brk => exact (succeeds_enter _).then fun _ => succeeds_pure _
  | rti => exact succeeds_rti.then fun _ => succeeds_pure _
  | rts => exact succeeds_rts.then fun _ => succeeds_pure _
  | pha => exact succeeds_pha.then fun _ => succeeds_pure _
  | php => exact succeeds_php.then fun _ => succeeds_pure _
  | pla => exact succeeds_pla.then fun _ => succeeds_pure _
  | plp => exact succeeds_plp.then fun _ => succeeds_pure _
  | nop => exact succeeds_pure _
  | unimplemented => exact absurd htakes id

/-! ## Opcodes without a meaning -/

/-- The opcode table does not list this opcode. -/
def Undocumented (opcode : UInt8) : Prop :=
  opcode ∉ documented.map (·.opcode)

instance (opcode : UInt8) : Decidable (Undocumented opcode) :=
  inferInstanceAs (Decidable (¬_))

/-- An opcode that is not listed decodes to the row for such opcodes. -/
theorem decode_of_undocumented {opcode : UInt8} (h : Undocumented opcode) :
    decode opcode = undocumented opcode := by
  have hfind : documented.find? (·.opcode == opcode) = none := by
    refine List.find?_eq_none.mpr fun i hi heq => h ?_
    exact List.mem_map.mpr ⟨i, hi, by simpa using heq⟩
  rw [decode, hfind]
  rfl

/-- What an opcode decodes to fits its routine, unless the table does not list it. -/
theorem fits_decode {opcode : UInt8} (h : ¬Undocumented opcode) : (decode opcode).Fits := by
  obtain ⟨i, hi, hopcode⟩ := List.mem_map.mp (Decidable.not_not.mp h)
  cases hfind : documented.find? (·.opcode == opcode) with
  | none => exact absurd hopcode (by simpa using List.find?_eq_none.mp hfind i hi)
  | some found =>
    rw [decode, hfind]
    exact fits_documented found (List.mem_of_find?_eq_some hfind)

end Instruction

/-- The fault is that of an opcode which the table does not list, and none of the other three. -/
def Fault.OfOpcode (fault : Fault) : Prop :=
  ∃ opcode pc, Instruction.Undocumented opcode ∧ fault = .unimplementedOpcode opcode pc

/-! ## Steps that fail -/

/-- Where no RESET is pending and nothing is next, nothing is pending at all. -/
theorem Requests.eq_none {r : Requests} (hreset : ¬r.reset = true) (hnext : r.next? = none) :
    r = {} := by
  obtain ⟨nmi, irq, reset⟩ := r
  revert hreset hnext
  cases nmi <;> cases irq <;> cases reset <;> simp [Requests.next?]

namespace Processor

section

variable {μ : Type} [Memory μ] (p : Processor μ)

/-- An instruction that fits runs to its end on any memory and is charged for.  An interrupt is entered
    through BRK, which fits as well. -/
theorem ran_of_fits {i : Instruction} (h : i.Fits) (servicing : Option Interrupt)
    (start : UInt16) : ∃ cycles, (p.ran i servicing start).1 = .ok cycles := by
  obtain ⟨extra, hextra, -⟩ :=
    (Instruction.succeeds_execute h servicing start p.registers).play p.world
  have hperform : (p.perform (i.execute servicing start)).1 = .ok extra := hextra
  unfold ran
  generalize p.perform (i.execute servicing start) = performed at hperform
  obtain ⟨outcome, q⟩ := performed
  obtain rfl : outcome = .ok extra := hperform
  exact ⟨i.cycles + extra, rfl⟩

/-- An opcode that is not listed stops before it has touched anything, and the program counter is put back
    to where it was. -/
theorem ran_of_undocumented {opcode : UInt8} (h : Instruction.Undocumented opcode) (start : UInt16) :
    p.ran (.decode opcode) none start =
      (.error (.unimplementedOpcode opcode start),
        { p with registers := { p.registers with pc := start } }) := by
  rw [Instruction.decode_of_undocumented h]
  rfl

/-- The next thing to do is to execute an opcode that the table does not list. -/
structure Lost : Prop where
  quiet : p.world.panel.requests = {}
  undocumented : Instruction.Undocumented p.fetchOpcode.1

/-- The two conditions as a conjunction, to be decided. -/
theorem lost_iff : p.Lost ↔
    p.world.panel.requests = {} ∧ Instruction.Undocumented p.fetchOpcode.1 :=
  ⟨fun ⟨hquiet, hopcode⟩ => ⟨hquiet, hopcode⟩, fun ⟨hquiet, hopcode⟩ => ⟨hquiet, hopcode⟩⟩

instance : Decidable p.Lost :=
  decidable_of_iff _ p.lost_iff.symm

/-- The cycle of a lost processor fails at the opcode that it has fetched.  What is left of the cycle is the
    fetch, and of the fetch the address latch. -/
theorem cycled_of_lost (h : p.Lost) : p.cycled =
    (.error (.unimplementedOpcode p.fetchOpcode.1 p.registers.pc),
      { p.fetchOpcode.2 with
        registers := { p.registers with addressLatch := p.registers.pc } }) := by
  unfold cycled
  rw [h.quiet]
  exact ran_of_undocumented _ h.undocumented _

/-- A processor that is not lost does something in every cycle: a RESET, an interrupt, or an instruction
    that fits. -/
theorem cycled_of_not_lost (h : ¬p.Lost) : ∃ cycles, p.cycled.1 = .ok cycles := by
  unfold cycled
  split
  case isTrue => exact ⟨resetCycles, rfl⟩
  case isFalse hreset =>
    split
    -- an interrupt comes first; its descriptor is that of BRK
    case h_1 interrupt _ => exact ran_of_fits _ (by decide) _ _
    case h_2 hnext =>
      refine ran_of_fits _ (Instruction.fits_decode fun hopcode => h ⟨?_, hopcode⟩) _ _
      exact Requests.eq_none hreset hnext

/-- Thus a cycle fails exactly when the processor is lost. -/
theorem cycled_error_iff : (∃ fault, p.cycled.1 = .error fault) ↔ p.Lost := by
  constructor
  · rintro ⟨fault, hfault⟩
    refine Decidable.byContradiction fun hlost => ?_
    obtain ⟨cycles, hcycles⟩ := p.cycled_of_not_lost hlost
    rw [hcycles] at hfault
    cases hfault
  · exact fun h => ⟨_, congrArg Prod.fst (p.cycled_of_lost h)⟩

/-- A cycle that fails does so at an opcode that is not listed. -/
theorem fault_cycled {fault : Fault} (h : p.cycled.1 = .error fault) : fault.OfOpcode := by
  have hlost := p.cycled_error_iff.mp ⟨fault, h⟩
  rw [p.cycled_of_lost hlost] at h
  obtain rfl := Except.error.inj h
  exact ⟨_, _, hlost.undocumented, rfl⟩

/-- So does a step, which is a cycle and what has to be settled after it. -/
theorem fault_stepped {fault : Fault} (h : p.stepped.1 = .error fault) : fault.OfOpcode := by
  refine p.fault_cycled ?_
  unfold stepped at h
  generalize p.cycled = cycled at h ⊢
  obtain ⟨outcome | cycles, q⟩ := cycled
  · exact h
  · cases h

/-- So does a run, whatever happens to the panel while it sleeps: by induction over the looks at the panel,
    since each of them leads to one step at most. -/
theorem fault_runLoop (asleep : Panel → Option Panel) (fuel : Nat) (j : Journal) {fault : Fault}
    (h : ((p.runLoop asleep fuel).run j).1.1 = .failed fault) : fault.OfOpcode := by
  induction fuel generalizing p j with
  | zero => cases h
  | succ fuel ih =>
    unfold runLoop at h
    split at h
    -- stopped, held, or a step
    case h_1 => cases h
    case h_2 =>
      split at h
      · cases h
      · exact ih _ _ h
    case h_3 =>
      rw [fst_bind (p.fst_step j)] at h
      have hstepped := @fault_stepped _ _ p
      generalize p.stepped = stepped at h hstepped
      obtain ⟨outcome | cycles, q⟩ := stepped
      · obtain rfl : outcome = fault := Ending.failed.inj h
        exact hstepped rfl
      · exact ih _ _ h

end

end Processor

theorem Machine.fault_step (m : Machine) (j : Journal) {fault : Fault}
    (h : (m.step.run j).1.1 = .error fault) : fault.OfOpcode := by
  refine m.processor.fault_stepped ?_
  unfold Machine.step at h
  rw [fst_bind (m.processor.fst_step j)] at h
  exact h

/-! ## On a flat memory -/

namespace Processor

/-- What comes of a cycle that fails on a flat memory: nothing has changed but the address latch. -/
def failed (p : Processor Flat) : Except Fault Nat × Processor Flat :=
  (.error (.unimplementedOpcode (p.world.memory.read p.registers.pc) p.registers.pc),
    { p with registers := { p.registers with addressLatch := p.registers.pc } })

/-- On a flat memory this is what comes of it, since reading changes nothing there. -/
theorem cycled_of_lost_flat {p : Processor Flat} (h : p.Lost) : p.cycled = p.failed :=
  p.cycled_of_lost h

/-- The next cycle of a processor that has failed meets the same opcode, nothing having moved it on. -/
theorem lost_failed {p : Processor Flat} (h : p.Lost) : p.failed.2.Lost :=
  ⟨h.quiet, h.undocumented⟩

/-- A processor that fails twice is where it was after failing once. -/
theorem failed_failed (p : Processor Flat) : p.failed.2.failed = p.failed := rfl

/-- A cycle on a flat memory fails exactly when nothing is pending and the byte at the program counter is
    an opcode that the table does not list.  The fault names the byte and its address; registers, panel
    and memory are what they were, but for the address latch; and any further cycle fails in the same
    way.  On no memory does a cycle, a run or a step of a machine end with a fault of another kind. -/
theorem fails_iff_undocumented (p : Processor Flat) (j : Journal) :
    ((∃ fault, (p.cycle.run j).1.1 = .error fault) ↔
      p.world.panel.requests = {} ∧
        Instruction.Undocumented (p.world.memory.read p.registers.pc)) ∧
    (∀ fault, (p.cycle.run j).1.1 = .error fault →
      fault = .unimplementedOpcode (p.world.memory.read p.registers.pc) p.registers.pc ∧
      (p.cycle.run j).1.2 =
        { p with registers := { p.registers with addressLatch := p.registers.pc } } ∧
      ∀ j', ((p.cycle.run j).1.2.cycle.run j').1 = (p.cycle.run j).1) ∧
    (∀ (μ : Type) [Memory μ] (q : Processor μ) (k : Journal) (fault : Fault),
      ((q.cycle.run k).1.1 = .error fault ∨
        ∃ asleep fuel, ((q.runLoop asleep fuel).run k).1.1 = .failed fault) → fault.OfOpcode) ∧
    ∀ (m : Machine) (k : Journal) (fault : Fault),
      (m.step.run k).1.1 = .error fault → fault.OfOpcode := by
  refine ⟨?_, ?_, ?_, fun m k fault h => m.fault_step k h⟩
  · rw [p.fst_cycle j, p.cycled_error_iff]
    exact p.lost_iff
  · rw [p.fst_cycle j]
    intro fault h
    have hlost : p.Lost := p.cycled_error_iff.mp ⟨fault, h⟩
    rw [cycled_of_lost_flat hlost] at h ⊢
    refine ⟨(Except.error.inj h).symm, rfl, fun j' => ?_⟩
    rw [fst_cycle, cycled_of_lost_flat (lost_failed hlost), failed_failed]
  · rintro μ _ q k fault (h | ⟨asleep, fuel, h⟩)
    · rw [q.fst_cycle k] at h
      exact q.fault_cycled h
    · exact q.fault_runLoop asleep fuel k h

/-- A processor at the opcode 0x02 of a memory that holds nothing else, with nothing pending. -/
def stray : Processor Flat where
  world := { memory := ({} : Flat).write 0 0x02 }

/-- There a cycle fails, and the fault says where. -/
theorem fails_at_stray :
    ((stray.cycle.run {}).1.1 = .error (.unimplementedOpcode 0x02 0)) ∧
      ∃ fault, (stray.cycle.run {}).1.1 = .error fault := by
  have hread : stray.world.memory.read stray.registers.pc = 0x02 := by decide
  obtain ⟨hiff, hfault, -⟩ := fails_iff_undocumented stray {}
  obtain ⟨fault, h⟩ := hiff.mpr ⟨rfl, by decide +kernel⟩
  refine ⟨?_, fault, h⟩
  rw [h, (hfault fault h).1, hread]
  rfl

end Processor

end Breadboard
