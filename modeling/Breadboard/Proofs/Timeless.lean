import Breadboard.Proofs.Costs
/-
  Instructions do not know what time it is.

  The cycle counter is a register like the others, but only `charge` uses it.  `Timeless` says so of a
  microprogram: with another count it makes the same traffic, with the same results, and hands the count
  on as it was.  There is one lemma for each way of putting microprograms together, and one for each
  routine; most of them have nothing to show but that a change to some register commutes with a change to
  the counter, which is true by definition.
-/
namespace Breadboard

variable {α β : Type}

/-- The registers, at another time: only the counter of cycles is different. -/
def Registers.withCycles (r : Registers) (cycles : UInt64) : Registers :=
  { r with cycles }

namespace Micro

/-- It neither looks at the cycle counter nor changes it: with another count it makes the same accesses and
    ends in the same way, with that other count. -/
def Timeless (m : Micro α) : Prop :=
  ∀ r cycles, m (r.withCycles cycles) = (m r).bind fun x => .done (x.1, x.2.withCycles cycles)

/-- A result that is just given does not depend on the time. -/
theorem timeless_pure (a : α) : Timeless (pure a) := fun _ _ => rfl

theorem timeless_throw (fault : Fault) : Timeless (throw fault : Micro α) := fun _ _ => rfl

/-- An access sets the latch, and the latch is not the counter. -/
theorem timeless_readByte (address : UInt16) : Timeless (readByte address) := fun _ _ => rfl

theorem timeless_writeByte (address : UInt16) (v : UInt8) : Timeless (writeByte address v) :=
  fun _ _ => rfl

/-- The rule for one microprogram after another: the first hands the other count on to the second. -/
theorem Timeless.bind {m : Micro α} {f : α → Micro β} (h : Timeless m)
    (hnext : ∀ a, Timeless (f a)) : Timeless (m >>= f) := by
  intro r cycles
  -- the count is handed on between the two parts, and again at the end
  show (m (r.withCycles cycles)).bind _ = ((m r).bind _).bind _
  rw [h r cycles, Traffic.bind_assoc, Traffic.bind_assoc]
  congr 1
  funext x
  obtain ⟨outcome, r'⟩ := x
  cases outcome with
  | ok a => exact hnext a r' cycles
  | error fault => rfl

/-- A change to the registers that leaves the counter out.  Almost all changes in routines are of this kind,
    and `rfl` says so. -/
theorem timeless_modify {f : Registers → Registers}
    (h : ∀ r cycles, f (r.withCycles cycles) = (f r).withCycles cycles) :
    Timeless (modify f : Micro Unit) := by
  intro r cycles
  show Traffic.done (Except.ok (), f (r.withCycles cycles)) = _
  rw [h]
  rfl

/-- A look at the registers changes nothing, so what follows begins where the look was. -/
theorem run_look (f : Registers → Micro α) (r : Registers) : (get >>= f) r = f r r := rfl

/-- A look at the registers that leaves the counter out, and then something timeless for whatever has been
    seen. -/
theorem timeless_look {f : Registers → Micro α}
    (hsame : ∀ r cycles, f (r.withCycles cycles) = f r) (h : ∀ r, Timeless (f r)) :
    Timeless (get >>= f) := by
  intro r cycles
  rw [run_look, run_look, hsame]
  exact h r r cycles

/-- New registers that are made from the old ones, if they are made at all. -/
theorem timeless_update {g : Registers → Option Registers} {refused done : Micro α}
    (hg : ∀ r cycles, g (r.withCycles cycles) = (g r).map (·.withCycles cycles))
    (hrefused : Timeless refused) (hdone : Timeless done) :
    Timeless (get >>= fun r => match g r with
      | none => refused
      | some r => do
        set r
        done) := by
  intro r cycles
  -- what is looked up depends on the counter only by carrying it along
  show (match g (r.withCycles cycles) with
    | none => refused
    | some r => do
      set r
      done : Micro α) (r.withCycles cycles) =
    ((match g r with
      | none => refused
      | some r => do
        set r
        done : Micro α) r).bind _
  rw [hg]
  cases g r with
  | none => exact hrefused r cycles
  | some r' => exact hdone r' cycles

/-! ## Words, bytes and the stack -/

theorem timeless_readWord (address : UInt16) : Timeless (readWord address) :=
  (timeless_readByte _).bind fun _ => (timeless_readByte _).bind fun _ => timeless_pure _

theorem timeless_readPageZeroWord (cell : UInt8) : Timeless (readPageZeroWord cell) :=
  (timeless_readByte _).bind fun _ => (timeless_readByte _).bind fun _ => timeless_pure _

/-- The program counter is looked at and moved on, and that is not the counter of cycles. -/
theorem timeless_fetchByte : Timeless fetchByte :=
  timeless_look (fun _ _ => rfl) fun _ => (timeless_readByte _).bind fun _ =>
    (timeless_modify fun _ _ => rfl).bind fun _ => timeless_pure _

theorem timeless_fetchWord : Timeless fetchWord :=
  timeless_fetchByte.bind fun _ => timeless_fetchByte.bind fun _ => timeless_pure _

/-- The stack pointer is looked at and moved, the byte is written. -/
theorem timeless_push (v : UInt8) : Timeless (push v) :=
  timeless_look (fun _ _ => rfl) fun _ => (timeless_writeByte _ _).bind fun _ =>
    timeless_modify fun _ _ => rfl

/-- The stack pointer is moved and looked at, the byte is read. -/
theorem timeless_pull : Timeless pull :=
  (timeless_modify fun _ _ => rfl).bind fun _ => timeless_look (fun _ _ => rfl) fun _ =>
    timeless_readByte _

theorem timeless_pushWord (w : UInt16) : Timeless (pushWord w) :=
  (timeless_push _).bind fun _ => timeless_push _

theorem timeless_pullWord : Timeless pullWord :=
  timeless_pull.bind fun _ => timeless_pull.bind fun _ => timeless_pure _

end Micro

open Micro

theorem Operand.timeless_fetch (operand : Operand) : operand.fetch.Timeless := by
  cases operand with
  | accumulator => exact timeless_look (fun _ _ => rfl) fun _ => timeless_pure _
  | cell address => exact timeless_readByte address

theorem Operand.timeless_store (operand : Operand) (v : UInt8) : (operand.store v).Timeless := by
  cases operand with
  | accumulator => exact timeless_modify fun _ _ => rfl
  | cell address => exact timeless_writeByte address v

namespace Instruction

/-! ## Routines -/

/-- Operands are found by the program counter, the index registers and what is in memory, and in no mode by
    the time. -/
theorem timeless_locate (i : Instruction) : i.locate.Timeless := by
  unfold locate
  cases i.mode with
  | implied => exact timeless_throw _
  | accumulator => exact timeless_pure _
  | immediate =>
    intro r cycles
    rfl
  | absolute => exact timeless_fetchWord.bind fun _ => timeless_pure _
  | indirect =>
    exact timeless_fetchWord.bind fun _ => (timeless_readWord _).bind fun _ => timeless_pure _
  -- an index register is looked at, and that is not the counter
  | absoluteX | absoluteY =>
    exact timeless_fetchWord.bind fun _ => timeless_look (fun _ _ => rfl) fun _ => timeless_pure _
  | indexedIndirect =>
    exact timeless_fetchByte.bind fun _ => timeless_look (fun _ _ => rfl) fun _ =>
      (timeless_readPageZeroWord _).bind fun _ => timeless_pure _
  | indirectIndexed =>
    exact timeless_fetchByte.bind fun _ => (timeless_readPageZeroWord _).bind fun _ =>
      timeless_look (fun _ _ => rfl) fun _ => timeless_pure _
  | zeroPage => exact timeless_fetchByte.bind fun _ => timeless_pure _
  | zeroPageX | zeroPageY | relative =>
    exact timeless_fetchByte.bind fun _ => timeless_look (fun _ _ => rfl) fun _ => timeless_pure _

/-- So the byte that is found does not depend on the time either. -/
theorem timeless_operandByte (i : Instruction) : i.operandByte.Timeless :=
  i.timeless_locate.bind fun _ => (Operand.timeless_fetch _).bind fun _ => timeless_pure _

theorem timeless_unexpected (i : Instruction) : (i.unexpected : Micro α).Timeless :=
  timeless_throw _

theorem timeless_refuseMode (i : Instruction) : (i.refuseMode : Micro α).Timeless :=
  timeless_throw _

/-- Arithmetic takes the carry and the decimal mode from the flags, and nothing from the counter. -/
theorem timeless_adc (i : Instruction) : i.adc.Timeless :=
  i.timeless_operandByte.bind fun _ => (timeless_modify fun _ _ => rfl).bind fun _ => timeless_pure _

theorem timeless_sbc (i : Instruction) : i.sbc.Timeless :=
  i.timeless_operandByte.bind fun _ => (timeless_modify fun _ _ => rfl).bind fun _ => timeless_pure _

theorem timeless_bit (i : Instruction) : i.bit.Timeless :=
  i.timeless_operandByte.bind fun _ => (timeless_modify fun _ _ => rfl).bind fun _ => timeless_pure _

/-- Which combination is taken depends on the mnemonic only. -/
theorem timeless_logic (i : Instruction) : i.logic.Timeless := by
  refine i.timeless_operandByte.bind ?_
  rintro ⟨m, extra⟩
  dsimp only
  split
  · exact (timeless_modify fun _ _ => rfl).bind fun _ => timeless_pure _
  · exact (timeless_modify fun _ _ => rfl).bind fun _ => timeless_pure _
  · exact (timeless_modify fun _ _ => rfl).bind fun _ => timeless_pure _
  · exact i.timeless_unexpected.bind fun _ => timeless_pure _

/-- The register is looked at before the operand, and both looks leave the counter out. -/
theorem timeless_compare (i : Instruction) : i.compare.Timeless := by
  refine timeless_look (fun r cycles => ?_) fun r => ?_
  · cases i.mnemonic <;> rfl
  · split
    · exact i.timeless_unexpected
    · split
      · exact i.timeless_refuseMode
      · exact i.timeless_refuseMode
      · exact i.timeless_refuseMode
      · exact i.timeless_operandByte.bind fun _ => (timeless_modify fun _ _ => rfl).bind fun _ =>
          timeless_pure _

/-- A load into a register and another time can be put down in either order. -/
theorem loaded?_withCycles (m : UInt8) (r : Registers) (cycles : UInt64) (mnemonic : Mnemonic) :
    (loaded? m (r.withCycles cycles) mnemonic).getD (r.withCycles cycles) =
      ((loaded? m r mnemonic).getD r).withCycles cycles := by
  cases mnemonic <;> rfl

/-- The three mnemonics load in the same way, each into its register. -/
theorem timeless_load (i : Instruction) : i.load.Timeless := by
  unfold load
  split
  case h_4 => exact i.timeless_unexpected
  all_goals
    exact i.timeless_operandByte.bind fun x =>
      (timeless_modify fun r cycles => loaded?_withCycles x.1 r cycles i.mnemonic).bind fun _ =>
        timeless_pure _

/-- A store looks at its register and then finds its operand. -/
theorem timeless_store (i : Instruction) : i.store.Timeless := by
  refine timeless_look (fun r cycles => ?_) fun r => ?_
  · cases i.mnemonic <;> rfl
  · split
    · exact i.timeless_unexpected
    · split
      · exact i.timeless_refuseMode
      · exact i.timeless_refuseMode
      · exact i.timeless_refuseMode
      · exact i.timeless_locate.bind fun _ => (Operand.timeless_store _ _).bind fun _ =>
          timeless_pure _

/-- Between its two accesses a shift looks at the carry, which the counter has no part in. -/
theorem timeless_shift (i : Instruction) : i.shift.Timeless := by
  rw [shift_eq]
  split
  any_goals
    exact i.timeless_locate.bind fun _ => (Operand.timeless_fetch _).bind fun _ =>
      timeless_look (fun _ _ => rfl) fun _ => (Operand.timeless_store _ _).bind fun _ =>
        (timeless_modify fun _ _ => rfl).bind fun _ => timeless_pure _
  exact i.timeless_unexpected

theorem timeless_stepMemory (i : Instruction) : i.stepMemory.Timeless := by
  rw [stepMemory_eq]
  split
  · exact i.timeless_unexpected
  · exact i.timeless_locate.bind fun _ => (Operand.timeless_fetch _).bind fun _ =>
      (Operand.timeless_store _ _).bind fun _ => (timeless_modify fun _ _ => rfl).bind fun _ =>
        timeless_pure _

/-- An update of the registers that either is refused or leaves the counter out. -/
theorem timeless_stepIndex (i : Instruction) : i.stepIndex.Timeless :=
  timeless_update (fun _ _ => by cases i.mnemonic <;> rfl) i.timeless_unexpected (timeless_pure 0)

theorem timeless_transfer (i : Instruction) : i.transfer.Timeless :=
  timeless_update (fun _ _ => by cases i.mnemonic <;> rfl) i.timeless_unexpected (timeless_pure 0)

theorem timeless_flag (i : Instruction) : i.flag.Timeless := by
  intro r cycles
  unfold flag
  -- the new registers are made from those that were looked at, count and all, which is why
  -- `timeless_look` does not apply
  have hsame : flagged? (r.withCycles cycles).flags i.mnemonic = flagged? r.flags i.mnemonic := rfl
  rw [run_look, run_look, hsame]
  cases flagged? r.flags i.mnemonic with
  | none => exact i.timeless_unexpected r cycles
  | some flags => rfl

/-- Whether a branch is taken, and what it costs, is a matter of flags and addresses. -/
theorem timeless_branch (i : Instruction) : i.branch.Timeless := by
  refine timeless_look (fun _ _ => rfl) fun r => ?_
  split
  · exact i.timeless_unexpected
  · refine i.timeless_locate.bind ?_
    rintro ⟨operand, extra⟩
    cases operand with
    | accumulator => exact i.timeless_refuseMode
    | cell target =>
      dsimp only
      split
      · intro r cycles
        rfl
      · exact timeless_pure _

/-- A jump goes where its operand is, at any time. -/
theorem timeless_jmp (i : Instruction) : i.jmp.Timeless := by
  unfold jmp
  split
  case h_3 => exact i.timeless_refuseMode
  all_goals
    refine i.timeless_locate.bind ?_
    rintro ⟨operand, extra⟩
    cases operand with
    | accumulator => exact timeless_pure _
    | cell target => exact (timeless_modify fun _ _ => rfl).bind fun _ => timeless_pure _

/-- A call pushes an address that the program counter gives. -/
theorem timeless_jsr (i : Instruction) : i.jsr.Timeless := by
  unfold jsr
  split
  · exact timeless_fetchWord.bind fun _ => timeless_look (fun _ _ => rfl) fun _ =>
      (timeless_pushWord _).bind fun _ => (timeless_modify fun _ _ => rfl).bind fun _ =>
        timeless_pure _
  · exact i.timeless_refuseMode

end Instruction

namespace Micro

theorem timeless_rts : Timeless rts :=
  timeless_pullWord.bind fun _ => timeless_modify fun _ _ => rfl

/-- Pulling the status keeps two of the flags that are there, and the counter is none of them. -/
theorem timeless_rti : Timeless rti :=
  timeless_pull.bind fun _ => (timeless_modify fun _ _ => rfl).bind fun _ =>
    timeless_pullWord.bind fun _ => timeless_modify fun _ _ => rfl

theorem timeless_pha : Timeless pha :=
  timeless_look (fun _ _ => rfl) fun _ => timeless_push _

theorem timeless_php : Timeless php :=
  timeless_look (fun _ _ => rfl) fun _ => timeless_push _

theorem timeless_pla : Timeless pla :=
  timeless_pull.bind fun _ => timeless_modify fun _ _ => rfl

theorem timeless_plp : Timeless plp :=
  timeless_pull.bind fun _ => timeless_modify fun _ _ => rfl

/-- Entering a handler, by BRK or by an interrupt: pushes, a look at the flags, and a vector. -/
theorem timeless_enter (servicing : Option Interrupt) : Timeless (enter servicing) := by
  -- the two kinds of entry differ only in the step over the byte behind BRK
  have hpushes : Timeless (do
      pushWord (← get).pc
      push { (← get).flags with unused := true, brk := servicing.isNone }.toByte
      modify fun r => { r with flags := { r.flags with interruptDisable := true } }
      let target ← readWord (if servicing = some .nmi then nmiVector else irqVector)
      modify fun r => { r with pc := target }) :=
    timeless_look (fun _ _ => rfl) fun _ => (timeless_pushWord _).bind fun _ =>
      timeless_look (fun _ _ => rfl) fun _ => (timeless_push _).bind fun _ =>
        (timeless_modify fun _ _ => rfl).bind fun _ => (timeless_readWord _).bind fun _ =>
          timeless_modify fun _ _ => rfl
  unfold enter
  cases servicing with
  | none => exact (timeless_modify fun _ _ => rfl).bind fun _ => hpushes
  | some interrupt => exact hpushes

end Micro

/-- No instruction looks at the cycle counter or changes it.  The routines are gone through one by one;
    there is no other way to know. -/
theorem Instruction.timeless_execute (i : Instruction) (servicing : Option Interrupt)
    (start : UInt16) : (i.execute servicing start).Timeless := by
  unfold execute
  cases i.handler with
  | adc => exact i.timeless_adc
  | sbc => exact i.timeless_sbc
  | logic => exact i.timeless_logic
  | bit => exact i.timeless_bit
  | compare => exact i.timeless_compare
  | load => exact i.timeless_load
  | store => exact i.timeless_store
  | shift => exact i.timeless_shift
  | stepMemory => exact i.timeless_stepMemory
  | stepIndex => exact i.timeless_stepIndex
  | transfer => exact i.timeless_transfer
  | flag => exact i.timeless_flag
  | branch => exact i.timeless_branch
  | jmp => exact i.timeless_jmp
  | jsr => exact i.timeless_jsr
  | brk => exact (timeless_enter servicing).bind fun _ => timeless_pure 0
  | rti => exact timeless_rti.bind fun _ => timeless_pure 0
  | rts => exact timeless_rts.bind fun _ => timeless_pure 0
  | pha => exact timeless_pha.bind fun _ => timeless_pure 0
  | php => exact timeless_php.bind fun _ => timeless_pure 0
  | pla => exact timeless_pla.bind fun _ => timeless_pure 0
  | plp => exact timeless_plp.bind fun _ => timeless_pure 0
  | nop => exact timeless_pure 0
  | unimplemented => exact timeless_throw _

/-! ## The counter of a processor -/

/-- A microprogram that does not know the time leaves the counter at what it was. -/
theorem Micro.Timeless.always {m : Micro α} (h : m.Timeless) (r : Registers) :
    (m r).Always fun x => x.2.cycles = r.cycles := by
  have hsame := h r r.cycles
  rw [show r.withCycles r.cycles = r from rfl] at hsame
  rw [hsame]
  exact (Traffic.always_of_forall (fun _ => trivial) (m r)).bind fun _ (_ : True) => rfl

namespace Processor

variable {μ : Type} [Memory μ]

/-- A timeless microprogram leaves the counter as it was. -/
theorem cycles_perform (p : Processor μ) {m : Micro α} (h : m.Timeless) :
    (p.perform m).2.registers.cycles = p.registers.cycles :=
  (h.always p.registers).play p.world

theorem timeless_bootstrap : bootstrap.Timeless :=
  (timeless_readWord _).bind fun _ => timeless_modify fun _ _ => rfl

/-- Executing an instruction leaves the counter alone; the charge comes afterwards. -/
theorem cycles_performed (p : Processor μ) (i : Instruction) (servicing : Option Interrupt)
    (start : UInt16) :
    (p.performed i servicing start).2.registers.cycles = p.registers.cycles := by
  have hperform := p.cycles_perform (i.timeless_execute servicing start)
  unfold performed
  rcases hrun : p.perform (i.execute servicing start) with ⟨fault | extra, q⟩
  · rw [hrun] at hperform
    exact hperform
  · rw [hrun] at hperform
    cases servicing <;> exact hperform

/-- So does everything that a cycle does before its charge. -/
theorem cycles_worked (p : Processor μ) : p.worked.2.registers.cycles = p.registers.cycles := by
  unfold worked
  split
  · exact p.cleared.cycles_perform timeless_bootstrap
  · cases p.world.panel.requests.next? with
    | some interrupt => exact p.cycles_performed _ _ _
    | none => exact p.fetchOpcode.2.cycles_performed _ _ _

/-- The counter counts what is charged, and a failed step charges nothing. -/
theorem cycles_stepped (p : Processor μ) : p.stepped.2.registers.cycles =
    p.registers.cycles + UInt64.ofNat (p.stepped.1.toOption.getD 0) := by
  have hworked := p.cycles_worked
  unfold stepped
  rw [cycled_eq]
  rcases hrun : p.worked with ⟨fault | cycles, q⟩
  · rw [hrun] at hworked
    exact hworked.trans (UInt64.add_zero _).symm
  · rw [hrun] at hworked
    exact congrArg (· + UInt64.ofNat cycles) hworked

end Processor

end Breadboard
