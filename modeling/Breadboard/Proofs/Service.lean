import Breadboard.Cpu.Bench
import Breadboard.Proofs.Unreported
/-
  What one cycle does, access by access, on a flat memory with a recorder on the bus.

  `Processor.Serves` says it for every state: a pending RESET is serviced before everything else
  (`Resets`), then an NMI, then an IRQ (`Enters`), whatever the interrupt-disable flag is; and if nothing
  is pending, the byte at the program counter is fetched (`Fetches`).

  An interrupt goes through the routine of the BRK instruction, but it fetches nothing, it saves the
  program counter as it is, and it saves the status with the break flag down.  Its traffic does not
  depend on what the memory holds (`traffic_enter`), so it can be written out; the vectors lie outside the
  stack page, so what is pushed never changes where it leads.
-/
namespace Breadboard

/-- The input that asks for an interrupt; every interrupt has one. -/
def Interrupt.request : Interrupt → Request
  | .nmi => .nmi
  | .irq => .irq

/-- Where the address of an interrupt's handler is kept.  BRK goes through the vector of IRQ. -/
def Interrupt.vector : Interrupt → UInt16
  | .nmi => nmiVector
  | .irq => irqVector

/-- The vectors are at the end of the address space, where no push can reach them. -/
theorem Interrupt.le_vector (i : Interrupt) : 0xFFFA ≤ i.vector ∧ 0xFFFA ≤ i.vector + 1 := by
  cases i <;> decide

namespace Requests

/-- Whether a request has been made and not been answered yet, one kind at a time. -/
def pending (r : Requests) : Request → Bool
  | .nmi => r.nmi
  | .irq => r.irq
  | .reset => r.reset

/-- What is serviced next: RESET goes before NMI, and NMI before IRQ.  The other two stay pending. -/
def serviced? (r : Requests) : Option Request :=
  if r.reset then some .reset
  else if r.nmi then some .nmi
  else if r.irq then some .irq
  else none

/-- What is pending after a request is what was pending and what has just been requested. -/
theorem pending_raise (r : Requests) (made kind : Request) :
    (r.raise made).pending kind = true ↔ made = kind ∨ r.pending kind = true := by
  cases made <;> cases kind <;> simp [raise, pending]

/-- What is pending after an interrupt was entered is what was pending, less that interrupt. -/
theorem pending_clear (r : Requests) (i : Interrupt) (kind : Request) :
    (r.clear i).pending kind = true ↔ r.pending kind = true ∧ i.request ≠ kind := by
  cases i <;> cases kind <;> simp [clear, pending, Interrupt.request]

theorem pending_none (kind : Request) : ({} : Requests).pending kind = false := by
  cases kind <;> rfl

end Requests

/-- A flat memory after an access: only writes leave something behind. -/
def Flat.replay (m : Flat) : BusAccess → Flat
  | .read _ _ => m
  | .write address v => m.write address v

namespace Processor

variable {p : Processor (Recorded Flat)} {result : Except Fault Nat × Processor (Recorded Flat)}

/-- What is pending at a processor on a bench. -/
abbrev requests (p : Processor (Recorded Flat)) : Requests :=
  p.world.panel.requests

/-- The memory of a processor on a bench, without its tape recorder. -/
abbrev flat (p : Processor (Recorded Flat)) : Flat :=
  p.world.memory.memory

/-- The accesses that have been made on a bench, the latest first. -/
abbrev tape (p : Processor (Recorded Flat)) : List BusAccess :=
  p.world.memory.tape

/-- The service of a RESET: it reads its vector, and nothing remains pending. -/
structure Resets (p : Processor (Recorded Flat))
    (result : Except Fault Nat × Processor (Recorded Flat)) : Prop where
  outcome : result.1 = .ok 7
  tape : result.2.tape =
    [.read 0xFFFC (p.flat.read 0xFFFC), .read 0xFFFD (p.flat.read 0xFFFD)].reverse ++ p.tape
  flat : result.2.flat = p.flat
  registers : result.2.registers = { p.registers with
    a := 0, x := 0, y := 0, sp := 0xFD, flags := {}
    pc := word (p.flat.read 0xFFFC) (p.flat.read 0xFFFD)
    addressLatch := 0xFFFD
    cycles := p.registers.cycles + 7 }
  requests : result.2.requests = {}

/-- The accesses of an interrupt's entry.  It saves the program counter, high byte first, and the status
    with break down, unused up, and the other six flags as they are; then it reads its vector. -/
def entry (p : Processor (Recorded Flat)) (i : Interrupt) : List BusAccess :=
  let r := p.registers
  [.write (0x100 + r.sp.toUInt16) (highByte r.pc),
    .write (0x100 + (r.sp - 1).toUInt16) (lowByte r.pc),
    .write (0x100 + (r.sp - 2).toUInt16) (r.flags.toByte &&& 0xCF ||| 0x20),
    .read i.vector (p.flat.read i.vector),
    .read (i.vector + 1) (p.flat.read (i.vector + 1))]

/-- The service of an interrupt: the accesses are those of its entry and no others, it sets the
    interrupt-disable flag, and it takes back its own request. -/
structure Enters (i : Interrupt) (p : Processor (Recorded Flat))
    (result : Except Fault Nat × Processor (Recorded Flat)) : Prop where
  outcome : result.1 = .ok 7
  tape : result.2.tape = (p.entry i).reverse ++ p.tape
  flat : result.2.flat = (p.entry i).foldl Flat.replay p.flat
  registers : result.2.registers = { p.registers with
    sp := p.registers.sp - 3
    pc := word (p.flat.read i.vector) (p.flat.read (i.vector + 1))
    flags := { p.registers.flags with interruptDisable := true }
    addressLatch := i.vector + 1
    cycles := p.registers.cycles + 7 }
  requests : result.2.requests = p.requests.clear i

/-- The execution of an instruction: the first access reads the byte at the program counter, and every
    request stays, whether the instruction fails or not. -/
structure Fetches (p : Processor (Recorded Flat))
    (result : Except Fault Nat × Processor (Recorded Flat)) : Prop where
  tape : (.read p.registers.pc (p.flat.read p.registers.pc) :: p.tape) <:+ result.2.tape
  requests : result.2.requests = p.requests

/-- What a cycle does, by what is pending when it begins: one of four things, and never two of them. -/
def Serves (p : Processor (Recorded Flat))
    (result : Except Fault Nat × Processor (Recorded Flat)) : Prop :=
  match p.requests.serviced? with
  | some .reset => Resets p result
  | some .nmi => Enters .nmi p result
  | some .irq => Enters .irq p result
  | none => Fetches p result

/-! ## The entry of an interrupt -/

/-- The cell of the stack as a sum: no bit of the page is a bit of the stack pointer. -/
theorem stackCell_eq (sp : UInt8) : stackCell sp = 0x100 + sp.toUInt16 := by
  have all : ∀ n : Fin 256,
      stackCell (UInt8.ofNat n) = 0x100 + (UInt8.ofNat n).toUInt16 := by decide +kernel
  have := all ⟨sp.toNat, sp.toNat_lt⟩
  simpa using this

/-- The stack page is page 1; the vectors are at the top of the address space. -/
theorem stackCell_ne (sp : UInt8) {address : UInt16} (h : 0xFFFA ≤ address) :
    address ≠ stackCell sp := by
  intro heq
  have hcell : address.toNat = (0x100 + sp.toUInt16).toNat := by rw [heq, stackCell_eq]
  have hsp := sp.toNat_lt
  rw [UInt16.le_iff_toNat_le] at h
  simp at hcell h
  omega

/-- The status that an interrupt saves: break down, unused up, and the other six bits as they are. -/
theorem toByte_saved (f : Flags) :
    { f with unused := true, brk := false }.toByte = f.toByte &&& 0xCF ||| 0x20 := by
  obtain ⟨n, v, u, b, d, i, z, c⟩ := f
  revert n v u b d i z c
  decide

/-- An interrupt makes the same traffic whatever is in the memory, up to the address it jumps to. -/
theorem traffic_enter (i : Interrupt) (start : UInt16) (r : Registers) :
    (Instruction.decode 0x00).execute (some i) start r =
      .write (stackCell r.sp) (highByte r.pc)
        (.write (stackCell (r.sp - 1)) (lowByte r.pc)
          (.write (stackCell (r.sp - 1 - 1))
            { r.flags with unused := true, brk := false }.toByte
            (.read i.vector fun lo => .read (i.vector + 1) fun hi =>
              .done (.ok 0, { r with
                sp := r.sp - 1 - 1 - 1
                pc := word lo hi
                flags := { r.flags with interruptDisable := true }
                addressLatch := i.vector + 1 })))) := by
  cases i <;> rfl

/-- What is pushed leaves the vectors as they are, since the stack is page 1 wherever its pointer is. -/
theorem read_pushed (m : Flat) (sp v : UInt8) {address : UInt16} (h : 0xFFFA ≤ address) :
    (m.write (stackCell sp) v).read address = m.read address := by
  rw [Flat.read_write, if_neg (stackCell_ne sp h)]

/-- The processor when an interrupt has been entered, and not yet taken back and charged. -/
def entered (p : Processor (Recorded Flat)) (i : Interrupt) : Processor (Recorded Flat) where
  registers := { p.registers with
    sp := p.registers.sp - 3
    pc := word (p.flat.read i.vector) (p.flat.read (i.vector + 1))
    flags := { p.registers.flags with interruptDisable := true }
    addressLatch := i.vector + 1 }
  world := { p.world with
    memory := {
      memory := (p.entry i).foldl Flat.replay p.flat
      tape := (p.entry i).reverse ++ p.tape } }

/-- The entry of an interrupt, followed access by access: three pushes, and then the two bytes of the
    vector. -/
theorem perform_enter (p : Processor (Recorded Flat)) (i : Interrupt) (start : UInt16) :
    p.perform ((Instruction.decode 0x00).execute (some i) start) = (.ok 0, p.entered i) := by
  have htwo : p.registers.sp - 1 - 1 = p.registers.sp - 2 := by grind
  have hthree : p.registers.sp - 1 - 1 - 1 = p.registers.sp - 3 := by grind
  obtain ⟨hlo, hhi⟩ := i.le_vector
  unfold perform
  rw [traffic_enter]
  -- the vector is read after the pushes, from a memory that they have changed elsewhere
  simp only [Traffic.play, Memory.write, Memory.read, Recorded.record, Recorded.bare,
    read_pushed _ _ _ hlo, read_pushed _ _ _ hhi]
  simp only [toByte_saved, stackCell_eq]
  rw [hthree, htwo]
  rfl

/-- Entering an interrupt does what `Enters` says, with the status pushed as it was but for the break flag. -/
theorem enters (p : Processor (Recorded Flat)) (i : Interrupt) (start : UInt16) :
    Enters i p (p.ran (.decode 0x00) (some i) start) := by
  have hran : p.ran (.decode 0x00) (some i) start =
      (.ok 7, ((p.entered i).answer (some i)).charge 7) := by
    unfold ran
    rw [perform_enter]
    rfl
  rw [hran]
  exact ⟨rfl, rfl, rfl, rfl, rfl⟩

/-! ## The other services -/

/-- Powering up does what `Resets` says, by looking at each of its steps. -/
theorem resets (p : Processor (Recorded Flat)) :
    Resets p (.ok resetCycles, p.poweredUp.charge resetCycles) :=
  ⟨rfl, rfl, rfl, rfl, rfl⟩

/-- Traffic on a flat memory leaves the panel alone, so what is pending after an instruction is what was
    pending before. -/
theorem panel_play {α : Type} (t : Traffic α) (w : World (Recorded Flat)) :
    (t.play w).2.panel = w.panel := by
  induction t generalizing w with
  | done result => rfl
  | read address next ih => exact ih _ _
  | write address v next ih => exact ih _

/-- Traffic adds to the tape and takes nothing from it. -/
theorem tape_play {α : Type} (t : Traffic α) (w : World (Recorded Flat)) :
    w.memory.tape <:+ (t.play w).2.memory.tape := by
  induction t generalizing w with
  | done result => exact List.suffix_rfl
  | read address next ih => exact (List.suffix_cons _ _).trans (ih _ (Memory.read address w).2)
  | write address v next ih => exact (List.suffix_cons _ _).trans (ih (Memory.write address v w))

/-- An instruction that enters nothing keeps all requests and adds to the tape, also when it fails. -/
theorem ran_unserviced (p : Processor (Recorded Flat)) (i : Instruction) (start : UInt16) :
    p.tape <:+ (p.ran i none start).2.tape ∧ (p.ran i none start).2.requests = p.requests := by
  have htape : p.tape <:+ (p.perform (i.execute none start)).2.tape := tape_play _ p.world
  have hpanel : (p.perform (i.execute none start)).2.world.panel = p.world.panel :=
    panel_play _ p.world
  unfold ran
  -- neither outcome touches the requests: there is none to take back, and a charge is not one
  generalize p.perform (i.execute none start) = performed at htape hpanel ⊢
  rcases performed with ⟨fault | extra, q⟩
  · exact ⟨htape, congrArg (·.requests) hpanel⟩
  · exact ⟨htape, congrArg (·.requests) hpanel⟩

/-- With nothing pending, the first access is the read of the opcode.  What follows adds to the tape and
    leaves the requests alone. -/
theorem fetches (p : Processor (Recorded Flat)) :
    Fetches p (p.fetchOpcode.2.ran (.decode p.fetchOpcode.1) none p.registers.pc) := by
  obtain ⟨htape, hrequests⟩ :=
    ran_unserviced p.fetchOpcode.2 (.decode p.fetchOpcode.1) p.registers.pc
  exact ⟨htape, hrequests⟩

/-! ## A cycle -/

/-- A cycle does what is due.  The cases are those in which `serviced?` looks at the requests. -/
theorem serves_cycled (p : Processor (Recorded Flat)) : Serves p p.cycled := by
  unfold Serves cycled Requests.serviced? Requests.next?
  by_cases hreset : p.requests.reset = true
  · rw [if_pos hreset, if_pos hreset]
    exact resets p
  · rw [if_neg hreset, if_neg hreset]
    by_cases hnmi : p.requests.nmi = true
    · rw [if_pos hnmi, if_pos hnmi]
      exact enters p .nmi p.registers.pc
    · rw [if_neg hnmi, if_neg hnmi]
      by_cases hirq : p.requests.irq = true
      · rw [if_pos hirq, if_pos hirq]
        exact enters p .irq p.registers.pc
      · rw [if_neg hirq, if_neg hirq]
        exact fetches p

/-- A cycle takes back what it services, and a RESET takes back everything. -/
theorem pending_cycled (p : Processor (Recorded Flat)) (kind : Request) :
    p.cycled.2.requests.pending kind = true ↔
      p.requests.pending kind = true ∧
        ¬(p.requests.serviced? = some .reset ∨ p.requests.serviced? = some kind) := by
  have h := serves_cycled p
  unfold Serves at h
  split at h <;> rename_i hserviced <;> rw [h.requests, hserviced]
  · simp [Requests.pending_none]
  · cases kind <;> simp [Requests.pending_clear, Interrupt.request]
  · cases kind <;> simp [Requests.pending_clear, Interrupt.request]
  · simp

end Processor

end Breadboard
