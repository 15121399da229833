import Breadboard.Proofs.Itinerary
/-
  Interrupts, BRK and subroutine calls return as if nothing had happened.

  The program is interrupted, the handler is interrupted before it has executed anything, and so on; then
  every handler returns.  Each entry pushes three bytes below those of the entry before it and each return
  pulls three, so the frames nest like brackets.  What is proved of them is proved from the outside in
  (`returns_nested`): the outermost entry leaves the processor in a state from which everything inside comes
  back, by induction, and then its own frame is still there to be pulled.  It is there because the pushes
  inside go to cells below it, as long as they do not go around the stack page (`above_not_pushed`), which
  is what the bound on the depth is for.

  The handlers lie outside the stack page, and so do the vectors, so no push changes where an interrupt
  leads or what is there (`Handled.of_offStack`).
-/
namespace Breadboard

/-! ## The stack page -/

/-- The stack is in page 1, wherever the stack pointer is. -/
theorem page_stackCell (sp : UInt8) : page (stackCell sp) = 0x100 := by
  have all : ∀ n : Fin 256, page (stackCell (UInt8.ofNat n)) = 0x100 := by decide +kernel
  have := all ⟨sp.toNat, sp.toNat_lt⟩
  simpa using this

theorem stackCell_inj {s t : UInt8} : stackCell s = stackCell t ↔ s = t := by
  constructor
  · intro h
    rw [Processor.stackCell_eq, Processor.stackCell_eq] at h
    have hs := s.toNat_lt
    have ht := t.toNat_lt
    have hnat := congrArg UInt16.toNat h
    simp at hnat
    exact UInt8.toNat_inj.mp (by omega)
  · exact congrArg stackCell

theorem word_bytes (w : UInt16) : word (lowByte w) (highByte w) = w := by
  have hw := w.toNat_lt
  have hlo : (lowByte w).toNat = w.toNat % 256 := by simp [lowByte]
  have hhi : (highByte w).toNat = w.toNat / 256 := by
    simp only [highByte, UInt16.toNat_toUInt8, UInt16.toNat_shiftRight]
    simp [Nat.shiftRight_eq_div_pow]
    omega
  apply UInt16.toNat_inj.mp
  rw [word, UInt16.toNat_or, UInt16.toNat_shiftLeft]
  simp only [UInt8.toNat_toUInt16, hlo, hhi]
  -- the low byte fits below the high byte, so the two can be added
  have hshift : (w.toNat / 256) <<< ((8 : UInt16).toNat % 16) % 2 ^ 16 = 2 ^ 8 * (w.toNat / 256) := by
    simp [Nat.shiftLeft_eq]
    omega
  rw [hshift, ← Nat.two_pow_add_eq_or_of_lt (by omega)]
  omega

/-- One step down, and then `k` more, are `k + 1` steps down; bytes wrap, so this is not about numbers. -/
theorem sub_ofNat_succ (sp : UInt8) (k : Nat) :
    sp - UInt8.ofNat (k + 1) = sp - 1 - UInt8.ofNat k := by
  rw [UInt8.ofNat_add]
  grind

/-- A push goes to a cell that is so many below the stack pointer. -/
theorem mem_pushedTo {address : UInt16} {sp : UInt8} {n : Nat} :
    address ∈ pushedTo sp n ↔ ∃ k < n, address = stackCell (sp - UInt8.ofNat k) := by
  induction n generalizing sp with
  | zero => simp [pushedTo]
  | succ n ih =>
    rw [pushedTo, List.mem_cons, ih, ← Processor.stackCell_eq]
    constructor
    -- the first push goes to the stack pointer itself, and the others count from the one below
    · rintro (rfl | ⟨k, hk, rfl⟩)
      · exact ⟨0, by omega, by simp⟩
      · exact ⟨k + 1, by omega, by rw [sub_ofNat_succ]⟩
    · rintro ⟨k, hk, rfl⟩
      cases k with
      | zero => exact .inl (by simp)
      | succ k => exact .inr ⟨k, by omega, by rw [sub_ofNat_succ]⟩

/-- Pushes that do not go around the page stay below what was pushed before them. -/
theorem above_not_pushed {sp : UInt8} {d n : Nat} (hd : 0 < d) (h : d + n ≤ 256) :
    stackCell (sp + UInt8.ofNat d) ∉ pushedTo sp n := by
  rw [mem_pushedTo]
  rintro ⟨k, hk, hcell⟩
  have hsp : sp + UInt8.ofNat d = sp - UInt8.ofNat k := stackCell_inj.mp hcell
  -- going `d` up and `k` down to the same cell means that the two together go around the page
  have hzero : UInt8.ofNat (d + k) = 0 := by
    rw [UInt8.ofNat_add]
    grind
  have hnat := congrArg UInt8.toNat hzero
  simp at hnat
  omega

theorem page_of_mem_pushedTo {address : UInt16} {sp : UInt8} {n : Nat}
    (h : address ∈ pushedTo sp n) : page address = 0x100 := by
  obtain ⟨k, -, rfl⟩ := mem_pushedTo.mp h
  exact page_stackCell _

/-- The vectors are not in page 1, neither byte of them. -/
theorem page_vector (i : Interrupt) : page i.vector ≠ 0x100 ∧ page (i.vector + 1) ≠ 0x100 := by
  cases i <;> decide

theorem pushedTo_add (sp : UInt8) (n k : Nat) :
    pushedTo sp (n + k) = pushedTo sp n ++ pushedTo (sp - UInt8.ofNat n) k := by
  induction n generalizing sp with
  | zero => simp [pushedTo]
  | succ n ih =>
    rw [Nat.succ_add, pushedTo, ih, sub_ofNat_succ]
    rfl

/-! ## Handlers -/

namespace Flat

/-- Where the handler of an interrupt begins, by its vector. -/
def handler (m : Flat) (i : Interrupt) : UInt16 :=
  word (m.read i.vector) (m.read (i.vector + 1))

/-- At an address outside the stack page there is this opcode. -/
structure Holds (m : Flat) (address : UInt16) (opcode : UInt8) : Prop where
  offStack : page address ≠ 0x100
  read : m.read address = opcode

/-- The memory `m'` differs from `m` in the stack page at most. -/
def OffStack (m m' : Flat) : Prop :=
  ∀ address, page address ≠ 0x100 → m'.read address = m.read address

variable {m m' : Flat} {address : UInt16} {opcode : UInt8}

theorem OffStack.write (h : m.OffStack m') (sp v : UInt8) :
    m.OffStack (m'.write (stackCell sp) v) := by
  intro address haddress
  have hne : address ≠ stackCell sp := fun heq => haddress (heq ▸ page_stackCell sp)
  rw [Flat.read_write, if_neg hne, h address haddress]

theorem OffStack.of_pushed {sp : UInt8} {n : Nat}
    (h : ∀ address, address ∉ pushedTo sp n → m'.read address = m.read address) :
    m.OffStack m' :=
  fun address haddress => h address fun hmem => haddress (page_of_mem_pushedTo hmem)

/-- An opcode outside the stack page is still there. -/
theorem OffStack.holds (h : m.OffStack m') (hm : m.Holds address opcode) :
    m'.Holds address opcode :=
  ⟨hm.offStack, (h address hm.offStack).trans hm.read⟩

/-- An interrupt still leads where it led, since its vector is outside the stack page. -/
theorem OffStack.handler (h : m.OffStack m') (i : Interrupt) : m'.handler i = m.handler i := by
  obtain ⟨hlo, hhi⟩ := page_vector i
  unfold Flat.handler
  rw [h _ hlo, h _ hhi]

/-- A word on the stack, high byte first, so that the low byte ends up at the lower address. -/
def pushWord (m : Flat) (sp : UInt8) (w : UInt16) : Flat :=
  (m.write (stackCell sp) (highByte w)).write (stackCell (sp - 1)) (lowByte w)

/-- A return address on the stack, and a status below it. -/
def pushFrame (m : Flat) (sp : UInt8) (w : UInt16) (status : UInt8) : Flat :=
  (m.pushWord sp w).write (stackCell (sp - 2)) status

/-- Pushing a word changes nothing outside the stack page, and nor does a frame below. -/
theorem offStack_pushWord (m : Flat) (sp : UInt8) (w : UInt16) : m.OffStack (m.pushWord sp w) :=
  .write (.write (fun _ _ => rfl) _ _) _ _

theorem offStack_pushFrame (m : Flat) (sp : UInt8) (w : UInt16) (status : UInt8) :
    m.OffStack (m.pushFrame sp w status) :=
  .write (m.offStack_pushWord sp w) _ _

/-- The stack pointer is two lower now, and what was pushed is above it. -/
theorem read_pushWord (m : Flat) (sp : UInt8) (w : UInt16) :
    (m.pushWord sp w).read (stackCell (sp - 2 + 1)) = lowByte w ∧
      (m.pushWord sp w).read (stackCell (sp - 2 + 2)) = highByte w := by
  have hlo : sp - 2 + 1 = sp - 1 := by grind
  have hhi : sp - 2 + 2 = sp := by grind
  have hne : sp ≠ sp - 1 := by grind
  constructor
  · rw [hlo, pushWord, read_write, if_pos rfl]
  · rw [hhi, pushWord, read_write, if_neg (fun h => hne (stackCell_inj.mp h)), read_write,
      if_pos rfl]

/-- The same for a frame, with the status lowest. -/
theorem read_pushFrame (m : Flat) (sp : UInt8) (w : UInt16) (status : UInt8) :
    (m.pushFrame sp w status).read (stackCell (sp - 3 + 1)) = status ∧
      (m.pushFrame sp w status).read (stackCell (sp - 3 + 2)) = lowByte w ∧
      (m.pushFrame sp w status).read (stackCell (sp - 3 + 3)) = highByte w := by
  have hstatus : sp - 3 + 1 = sp - 2 := by grind
  have hlo : sp - 3 + 2 = sp - 2 + 1 := by grind
  have hhi : sp - 3 + 3 = sp - 2 + 2 := by grind
  have hne : sp - 2 + 1 ≠ sp - 2 := by grind
  have hne' : sp - 2 + 2 ≠ sp - 2 := by grind
  obtain ⟨hreadlo, hreadhi⟩ := m.read_pushWord sp w
  refine ⟨?_, ?_, ?_⟩
  · rw [hstatus, pushFrame, read_write, if_pos rfl]
  · rw [hlo, pushFrame, read_write, if_neg (fun h => hne (stackCell_inj.mp h)), hreadlo]
  · rw [hhi, pushFrame, read_write, if_neg (fun h => hne' (stackCell_inj.mp h)), hreadhi]

theorem read_pushWord_of_not_mem {address : UInt16} {sp : UInt8} {w : UInt16} (m : Flat)
    (h : address ∉ pushedTo sp 2) : (m.pushWord sp w).read address = m.read address := by
  simp only [pushedTo, List.mem_cons, List.not_mem_nil, or_false, not_or,
    ← Processor.stackCell_eq] at h
  rw [pushWord, read_write, if_neg h.2, read_write, if_neg h.1]

/-- The same for a frame, which is a word and then a byte. -/
theorem read_pushFrame_of_not_mem {address : UInt16} {sp : UInt8} {w : UInt16} {status : UInt8}
    (m : Flat) (h : address ∉ pushedTo sp 3) :
    (m.pushFrame sp w status).read address = m.read address := by
  rw [pushedTo_add sp 2 1, List.mem_append, not_or] at h
  obtain ⟨hword, hstatus⟩ := h
  have hne : address ≠ stackCell (sp - 2) := by
    rw [Processor.stackCell_eq]
    exact fun heq => hstatus (List.mem_singleton.mpr heq)
  rw [pushFrame, read_write, if_neg hne, m.read_pushWord_of_not_mem hword]

end Flat

/-! ## One cycle -/

/-- RTI makes the same traffic whatever it finds on the stack. -/
theorem traffic_rti (start : UInt16) (r : Registers) :
    (Instruction.decode 0x40).execute none start r =
      .read (stackCell (r.sp + 1)) fun status =>
        .read (stackCell (r.sp + 1 + 1)) fun lo => .read (stackCell (r.sp + 1 + 1 + 1)) fun hi =>
          .done (.ok 0, { r with
            sp := r.sp + 1 + 1 + 1
            pc := word lo hi
            flags := r.flags.load status true
            addressLatch := stackCell (r.sp + 1 + 1 + 1) }) :=
  rfl

/-- RTS pulls a word and goes on behind it. -/
theorem traffic_rts (start : UInt16) (r : Registers) :
    (Instruction.decode 0x60).execute none start r =
      .read (stackCell (r.sp + 1)) fun lo => .read (stackCell (r.sp + 1 + 1)) fun hi =>
        .done (.ok 0, { r with
          sp := r.sp + 1 + 1
          pc := word lo hi + 1
          addressLatch := stackCell (r.sp + 1 + 1) }) :=
  rfl

/-- JSR saves the address of its own last byte. -/
theorem traffic_jsr (start : UInt16) (r : Registers) :
    (Instruction.decode 0x20).execute none start r =
      .read r.pc fun lo => .read (r.pc + 1) fun hi =>
        .write (stackCell r.sp) (highByte (r.pc + 1 + 1 - 1))
          (.write (stackCell (r.sp - 1)) (lowByte (r.pc + 1 + 1 - 1))
            (.done (.ok 0, { r with
              sp := r.sp - 1 - 1
              pc := word lo hi
              addressLatch := stackCell (r.sp - 1) }))) :=
  rfl

/-- BRK saves an address behind the byte that follows it, and the status with break up. -/
theorem traffic_brk (start : UInt16) (r : Registers) :
    (Instruction.decode 0x00).execute none start r =
      .write (stackCell r.sp) (highByte (r.pc + 1))
        (.write (stackCell (r.sp - 1)) (lowByte (r.pc + 1))
          (.write (stackCell (r.sp - 1 - 1))
            { r.flags with unused := true, brk := true }.toByte
            (.read irqVector fun lo => .read (irqVector + 1) fun hi =>
              .done (.ok 0, { r with
                sp := r.sp - 1 - 1 - 1
                pc := word lo hi
                flags := { r.flags with interruptDisable := true }
                addressLatch := irqVector + 1 })))) :=
  rfl

namespace Processor

/-- The memory of a processor on a flat memory, under a short name. -/
abbrev ram (p : Processor Flat) : Flat :=
  p.world.memory

/-- With nothing pending, a cycle executes the instruction at the program counter. -/
theorem cycled_of_quiet {p : Processor Flat} (hquiet : p.world.panel.requests = {}) {opcode : UInt8}
    (hopcode : p.ram.read p.registers.pc = opcode) :
    p.cycled = Processor.ran { p with registers := p.registers.opened } (.decode opcode) none
      p.registers.pc := by
  subst hopcode
  unfold cycled
  rw [hquiet]
  rfl

/-- A cycle at RTI: three bytes are pulled, and the processor keeps its own break and unused flags. -/
theorem cycled_rti {p : Processor Flat} (hquiet : p.world.panel.requests = {})
    (hopcode : p.ram.read p.registers.pc = 0x40) :
    p.cycled = (.ok 6, {
      registers := { p.registers with
        sp := p.registers.sp + 3
        pc := word (p.ram.read (stackCell (p.registers.sp + 2)))
          (p.ram.read (stackCell (p.registers.sp + 3)))
        flags := p.registers.flags.load (p.ram.read (stackCell (p.registers.sp + 1))) true
        addressLatch := stackCell (p.registers.sp + 3)
        cycles := p.registers.cycles + 6 }
      world := { p.world with panel := p.world.panel.charge 6 } }) := by
  have htwo : p.registers.sp + 1 + 1 = p.registers.sp + 2 := by grind
  have hthree : p.registers.sp + 1 + 1 + 1 = p.registers.sp + 3 := by grind
  rw [cycled_of_quiet hquiet hopcode, ← htwo, ← hthree]
  unfold ran perform
  rw [traffic_rti]
  rfl

/-- A cycle at RTS: two bytes are pulled, and the program goes on behind the address that they make up. -/
theorem cycled_rts {p : Processor Flat} (hquiet : p.world.panel.requests = {})
    (hopcode : p.ram.read p.registers.pc = 0x60) :
    p.cycled = (.ok 6, {
      registers := { p.registers with
        sp := p.registers.sp + 2
        pc := word (p.ram.read (stackCell (p.registers.sp + 1)))
          (p.ram.read (stackCell (p.registers.sp + 2))) + 1
        addressLatch := stackCell (p.registers.sp + 2)
        cycles := p.registers.cycles + 6 }
      world := { p.world with panel := p.world.panel.charge 6 } }) := by
  have htwo : p.registers.sp + 1 + 1 = p.registers.sp + 2 := by grind
  rw [cycled_of_quiet hquiet hopcode, ← htwo]
  unfold ran perform
  rw [traffic_rts]
  rfl

/-- A processor that has just called a subroutine: the address of the last byte of the call is on the
    stack. -/
def called (p : Processor Flat) : Processor Flat where
  registers := { p.registers with
    sp := p.registers.sp - 2
    pc := word (p.ram.read (p.registers.pc + 1)) (p.ram.read (p.registers.pc + 2))
    addressLatch := stackCell (p.registers.sp - 1)
    cycles := p.registers.cycles + 6 }
  world := {
    memory := p.ram.pushWord p.registers.sp (p.registers.pc + 2)
    panel := p.world.panel.charge 6 }

/-- A cycle at JSR calls the subroutine. -/
theorem cycled_jsr {p : Processor Flat} (hquiet : p.world.panel.requests = {})
    (hopcode : p.ram.read p.registers.pc = 0x20) : p.cycled = (.ok 6, p.called) := by
  have htwo : p.registers.sp - 1 - 1 = p.registers.sp - 2 := by grind
  have hnext : p.registers.pc + 1 + 1 = p.registers.pc + 2 := by grind
  have hlast : p.registers.pc + 1 + 1 + 1 - 1 = p.registers.pc + 2 := by grind
  unfold called
  rw [cycled_of_quiet hquiet hopcode, ← htwo]
  unfold ran perform
  rw [traffic_jsr]
  unfold Registers.opened
  dsimp only
  rw [hlast, hnext]
  rfl

/-- A processor that has just executed BRK: its status is on the stack with break up, and no request has
    been taken. -/
def broken (p : Processor Flat) : Processor Flat where
  registers := { p.registers with
    sp := p.registers.sp - 3
    pc := p.ram.handler .irq
    flags := { p.registers.flags with interruptDisable := true }
    addressLatch := 0xFFFF
    cycles := p.registers.cycles + 7 }
  world := {
    memory := p.ram.pushFrame p.registers.sp (p.registers.pc + 2)
      { p.registers.flags with unused := true, brk := true }.toByte
    panel := p.world.panel.charge 7 }

/-- A cycle at BRK does that, and the handler that it leads to is still the one of the memory before the
    pushes. -/
theorem cycled_brk {p : Processor Flat} (hquiet : p.world.panel.requests = {})
    (hopcode : p.ram.read p.registers.pc = 0x00) : p.cycled = (.ok 7, p.broken) := by
  have htwo : p.registers.sp - 1 - 1 = p.registers.sp - 2 := by grind
  have hthree : p.registers.sp - 1 - 1 - 1 = p.registers.sp - 3 := by grind
  have hnext : p.registers.pc + 1 + 1 = p.registers.pc + 2 := by grind
  have hhandler := (p.ram.offStack_pushFrame p.registers.sp (p.registers.pc + 2)
    { p.registers.flags with unused := true, brk := true }.toByte).handler .irq
  unfold broken
  rw [cycled_of_quiet hquiet hopcode, ← hhandler, ← hthree]
  unfold ran perform
  rw [traffic_brk]
  unfold Registers.opened
  dsimp only
  rw [hnext, htwo]
  rfl

/-- A processor that has just entered an interrupt.  This differs from BRK in the address that is saved, the
    break bit of the status, and the request that is taken. -/
def interrupted (p : Processor Flat) (i : Interrupt) : Processor Flat where
  registers := { p.registers with
    sp := p.registers.sp - 3
    pc := p.ram.handler i
    flags := { p.registers.flags with interruptDisable := true }
    addressLatch := i.vector + 1
    cycles := p.registers.cycles + 7 }
  world := {
    memory := p.ram.pushFrame p.registers.sp p.registers.pc
      { p.registers.flags with unused := true, brk := false }.toByte
    panel := { p.world.panel.charge 7 with requests := p.world.panel.requests.clear i } }

/-- A cycle with an interrupt next in turn enters it. -/
theorem cycled_interrupted {p : Processor Flat} {i : Interrupt}
    (hreset : p.world.panel.requests.reset = false)
    (hnext : p.world.panel.requests.next? = some i) : p.cycled = (.ok 7, p.interrupted i) := by
  have htwo : p.registers.sp - 1 - 1 = p.registers.sp - 2 := by grind
  have hthree : p.registers.sp - 1 - 1 - 1 = p.registers.sp - 3 := by grind
  have hhandler := (p.ram.offStack_pushFrame p.registers.sp p.registers.pc
    { p.registers.flags with unused := true, brk := false }.toByte).handler i
  have hcycled : p.cycled = p.ran (.decode 0x00) (some i) p.registers.pc := by
    unfold cycled
    rw [hreset, hnext]
    rfl
  unfold interrupted
  rw [hcycled, ← hhandler, ← hthree]
  unfold ran perform
  rw [traffic_enter, htwo]
  rfl

end Processor

/-! ## Rounds -/

namespace Requests

/-- Latches the requests for some interrupts, in the order given, which does not matter. -/
def raiseAll (r : Requests) (made : List Interrupt) : Requests :=
  made.foldl (fun r i => r.raise i.request) r

/-- In every round an interrupt is serviced that is pending or has just been requested, and at the end none
    is left. -/
def Nested (r : Requests) : List (List Interrupt) → Prop
  | [] => r = {}
  | made :: rest => ∃ i, (r.raiseAll made).next? = some i ∧ ((r.raiseAll made).clear i).Nested rest

/-- One request in each round is as good as any. -/
theorem nested_singles (interrupts : List Interrupt) : Nested {} (interrupts.map fun i => [i]) := by
  induction interrupts with
  | nil => rfl
  | cons i rest ih =>
    refine ⟨i, ?_, ?_⟩
    · cases i <;> rfl
    · cases i <;> exact ih

theorem reset_raiseAll (r : Requests) (made : List Interrupt) : (r.raiseAll made).reset = r.reset := by
  unfold raiseAll
  induction made generalizing r with
  | nil => rfl
  | cons i rest ih =>
    rw [List.foldl_cons, ih]
    cases i <;> rfl

theorem reset_clear (r : Requests) (i : Interrupt) : (r.clear i).reset = r.reset := by
  cases i <;> rfl

end Requests

namespace Processor

/-- Some interrupts are requested, by calls to the processor. -/
def request (p : Processor Flat) (made : List Interrupt) : Processor Flat :=
  made.foldl (fun p i => p.onPanel (·.raise i.request)) p

/-- One cycle for each list of interrupts, which are requested just before it; the result is the cycles
    charged for all of them, or the first fault. -/
def rounds : List (List Interrupt) → Processor Flat → Logged (Except Fault Nat × Processor Flat)
  | [], p => return (.ok 0, p)
  | made :: rest, p => do
    match ← (p.request made).cycle with
    | (.error fault, p) => return (.error fault, p)
    | (.ok cycles, p) =>
      let (outcome, p) ← rounds rest p
      return (outcome.map (cycles + ·), p)

/-- What comes of `rounds`, without the messages. -/
def gone : List (List Interrupt) → Processor Flat → Except Fault Nat × Processor Flat
  | [], p => (.ok 0, p)
  | made :: rest, p =>
    match (p.request made).cycled with
    | (.error fault, p) => (.error fault, p)
    | (.ok cycles, p) => ((gone rest p).1.map (cycles + ·), (gone rest p).2)

/-- The journal makes no difference to what comes of rounds, by induction over them. -/
theorem fst_rounds (all : List (List Interrupt)) (p : Processor Flat) (j : Journal) :
    ((p.rounds all).run j).1 = p.gone all := by
  induction all generalizing p j with
  | nil => rfl
  | cons made rest ih =>
    unfold rounds gone
    rw [fst_bind ((p.request made).fst_cycle j)]
    rcases (p.request made).cycled with ⟨fault | cycles, q⟩
    · rfl
    · dsimp only
      rw [fst_bind (ih q _)]
      rfl

/-- A round that succeeds, and rounds that come back from where it led, are rounds that come back. -/
theorem gone_cons {p q last : Processor Flat} {made : List Interrupt} {rest : List (List Interrupt)}
    {cycles more : Nat} (h : (p.request made).cycled = (.ok cycles, q))
    (hrest : q.gone rest = (.ok more, last)) :
    p.gone (made :: rest) = (.ok (cycles + more), last) := by
  unfold gone
  rw [h]
  dsimp only
  rw [hrest]
  rfl

/-- Likewise for two runs of rounds, one after the other; the cycles add up. -/
theorem gone_append {p q last : Processor Flat} {first rest : List (List Interrupt)}
    {cycles more : Nat} (h : p.gone first = (.ok cycles, q))
    (hrest : q.gone rest = (.ok more, last)) :
    p.gone (first ++ rest) = (.ok (cycles + more), last) := by
  induction first generalizing p cycles with
  | nil =>
    obtain ⟨rfl, rfl⟩ : 0 = cycles ∧ p = q := by simpa [gone] using h
    rw [Nat.zero_add]
    exact hrest
  | cons made first ih =>
    unfold gone at h
    rcases hcycled : (p.request made).cycled with ⟨fault | used, p'⟩
    -- the first run succeeds, so no round in it can have failed
    · rw [hcycled] at h
      cases h
    · rw [hcycled] at h
      dsimp only at h
      rcases hgone : p'.gone first with ⟨fault | inner, q'⟩
      · rw [hgone] at h
        cases h
      · rw [hgone] at h
        obtain ⟨rfl, rfl⟩ : used + inner = cycles ∧ q' = q := by simpa [Except.map] using h
        rw [Nat.add_assoc]
        exact gone_cons hcycled (ih hgone)

theorem request_eq (p : Processor Flat) (made : List Interrupt) :
    p.request made = p.onPanel fun panel =>
      { panel with requests := panel.requests.raiseAll made } := by
  unfold request Requests.raiseAll
  induction made generalizing p with
  | nil => rfl
  | cons i rest ih =>
    rw [List.foldl_cons, ih]
    rfl

/-- A run of rounds has come back: it has charged so many cycles, so many bytes have been pushed in the
    course of it, nothing is pending, and apart from the program counter, the address latch and the
    counting of cycles everything is as it was. -/
structure Returns (p : Processor Flat) (pc : UInt16) (pushed cycles : Nat)
    (result : Except Fault Nat × Processor Flat) : Prop where
  outcome : result.1 = .ok cycles
  registers : result.2.registers = { p.registers with
    pc
    addressLatch := result.2.registers.addressLatch
    cycles := p.registers.cycles + UInt64.ofNat cycles }
  panel : result.2.world.panel = { p.world.panel.charge cycles with requests := {} }
  memory : ∀ address, address ∉ pushedTo p.registers.sp pushed →
    result.2.ram.read address = p.ram.read address

end Processor

theorem Budget.charge_charge (b : Budget) (m n : Nat) :
    (b.charge m).charge n = b.charge (m + n) := by
  unfold charge
  rw [Int64.ofNat_add, UInt64.ofNat_add, UInt64.add_assoc]
  congr 1
  grind

theorem Budget.charge_zero (b : Budget) : b.charge 0 = b := by
  simp [charge]

/-- The flags that a status was made from come back with it.  Whatever the status says of break and unused,
    the processor keeps its own. -/
theorem Flags.load_saved (f : Flags) (interruptDisable unused brk : Bool) :
    ({ f with interruptDisable } : Flags).load { f with unused, brk }.toByte true = f := by
  unfold load
  rw [ofByte_toByte]
  rfl

namespace Processor

/-- Where nothing is pending, nothing has to come back, and that is a run of no rounds. -/
theorem Returns.refl {p : Processor Flat} (hquiet : p.world.panel.requests = {}) :
    Returns p p.registers.pc 0 0 (.ok 0, p) where
  outcome := rfl
  registers := by simp
  panel := by
    unfold Panel.charge
    rw [Budget.charge_zero, ← hquiet]
  memory _ _ := rfl

/-- From inside a handler everything has come back, and the handler returns: the frame that was pushed on
    entry is still there, below it lie the bytes that have been pushed since. -/
theorem Returns.resume {p q : Processor Flat} {m : Flat} {sp : UInt8} {w : UInt16} {f : Flags}
    {brk : Bool} {pushed cycles : Nat} (hback : Returns p p.registers.pc pushed cycles (.ok cycles, q))
    (hsp : p.registers.sp = sp - 3)
    (hflags : p.registers.flags = { f with interruptDisable := true })
    (hram : p.ram = m.pushFrame sp w { f with unused := true, brk }.toByte)
    (hholds : p.ram.Holds p.registers.pc 0x40) (hpushed : 3 + pushed ≤ 256) :
    ∃ last, q.cycled = (.ok 6, last) ∧
      last.registers = { p.registers with
        sp, pc := w, flags := f
        addressLatch := last.registers.addressLatch
        cycles := p.registers.cycles + UInt64.ofNat (cycles + 6) } ∧
      last.world.panel = { p.world.panel.charge (cycles + 6) with requests := {} } ∧
      ∀ address, address ∉ pushedTo sp (3 + pushed) → last.ram.read address = m.read address := by
  obtain ⟨-, hregisters, hpanel, hmemory⟩ := hback
  have hquiet : q.world.panel.requests = {} := by rw [hpanel]
  have hopcode : q.ram.read q.registers.pc = 0x40 := by
    rw [hregisters]
    exact ((Flat.OffStack.of_pushed hmemory).holds hholds).read
  -- the three bytes of the frame have survived all that was pushed below them
  have hkept : ∀ d : Nat, 0 < d → d ≤ 3 → q.ram.read (stackCell (sp - 3 + UInt8.ofNat d)) =
      (m.pushFrame sp w { f with unused := true, brk }.toByte).read
        (stackCell (sp - 3 + UInt8.ofNat d)) := by
    intro d hd hle
    rw [← hram]
    refine hmemory _ ?_
    rw [hsp]
    exact above_not_pushed hd (by omega)
  obtain ⟨hstatus, hlo, hhi⟩ := m.read_pushFrame sp w { f with unused := true, brk }.toByte
  have hone : q.ram.read (stackCell (sp - 3 + 1)) = _ := (hkept 1 (by omega) (by omega)).trans hstatus
  have htwo : q.ram.read (stackCell (sp - 3 + 2)) = _ := (hkept 2 (by omega) (by omega)).trans hlo
  have hthree : q.ram.read (stackCell (sp - 3 + 3)) = _ := (hkept 3 (by omega) (by omega)).trans hhi
  have hqsp : q.registers.sp = sp - 3 := by rw [hregisters, ← hsp]
  have hqflags : q.registers.flags = { f with interruptDisable := true } := by
    rw [hregisters, ← hflags]
  have hqcycles : q.registers.cycles = p.registers.cycles + UInt64.ofNat cycles := by
    rw [hregisters]
  -- registers, panel and memory
  refine ⟨_, cycled_rti hquiet hopcode, ?_, ?_, ?_⟩
  · have hup : sp - 3 + 3 = sp := by grind
    have hcycles : p.registers.cycles + UInt64.ofNat cycles + 6 =
        p.registers.cycles + UInt64.ofNat (cycles + 6) := by
      rw [UInt64.ofNat_add, UInt64.add_assoc]
      rfl
    dsimp only
    rw [hqsp, hone, htwo, hthree, word_bytes, hqflags, Flags.load_saved, hqcycles, hcycles, hup,
      hregisters]
  · dsimp only
    rw [hpanel]
    unfold Panel.charge
    dsimp only
    rw [Budget.charge_charge]
  · intro address haddress
    rw [pushedTo_add, List.mem_append, not_or] at haddress
    have hframe : address ∉ pushedTo sp 3 := haddress.1
    have hinner : address ∉ pushedTo (sp - 3) pushed := haddress.2
    rw [← hsp] at hinner
    exact (hmemory address hinner).trans (hram ▸ m.read_pushFrame_of_not_mem hframe)

/-- A round that is followed by its return: if everything comes back inside the interrupt that it enters,
    then everything comes back around it. -/
theorem Returns.around {p : Processor Flat} {made : List Interrupt} {i : Interrupt}
    {middle : List (List Interrupt)} {pushed cycles : Nat}
    (hreset : p.world.panel.requests.reset = false)
    (hnext : (p.world.panel.requests.raiseAll made).next? = some i)
    (hhandler : p.ram.Holds (p.ram.handler i) 0x40) (hpushed : 3 + pushed ≤ 256)
    (hback : Returns ((p.request made).interrupted i) (p.ram.handler i) pushed cycles
      (((p.request made).interrupted i).gone middle)) :
    Returns p p.registers.pc (3 + pushed) (7 + (cycles + 6))
      (p.gone (made :: (middle ++ [[]]))) := by
  -- the round itself, then the rounds inside, then the one that returns
  have hentry : (p.request made).cycled = (.ok 7, (p.request made).interrupted i) := by
    rw [request_eq]
    exact cycled_interrupted ((p.world.panel.requests.reset_raiseAll made).trans hreset) hnext
  have hgone : ∀ {q last : Processor Flat},
      ((p.request made).interrupted i).gone middle = (.ok cycles, q) → q.cycled = (.ok 6, last) →
        p.gone (made :: (middle ++ [[]])) = (.ok (7 + (cycles + 6)), last) := by
    intro q last hmiddle hrti
    have hreturn : q.gone [[]] = (.ok (6 + 0), last) := gone_cons hrti rfl
    exact gone_cons hentry (gone_append hmiddle hreturn)
  have hholds := (p.ram.offStack_pushFrame p.registers.sp p.registers.pc
    { p.registers.flags with unused := true, brk := false }.toByte).holds hhandler
  rcases hmiddle : ((p.request made).interrupted i).gone middle with ⟨outcome, q⟩
  rw [hmiddle] at hback
  obtain rfl : outcome = .ok cycles := hback.outcome
  rw [request_eq] at hback
  obtain ⟨last, hrti, hregisters, hpanel, hmemory⟩ :=
    hback.resume rfl rfl rfl hholds hpushed
  rw [hgone hmiddle hrti]
  refine ⟨rfl, ?_, ?_, hmemory⟩
  · rw [UInt64.ofNat_add, ← UInt64.add_assoc]
    exact hregisters
  · have hcharge := p.world.panel.budget.charge_charge 7 (cycles + 6)
    unfold Panel.charge
    rw [← hcharge]
    exact hpanel

/-- Everything comes back from a nest of interrupts, whatever is pending when it begins.  The outermost
    frame is pushed first and pulled last; what is inside comes back by induction. -/
theorem returns_nested (services : List (List Interrupt)) (p : Processor Flat)
    (hreset : p.world.panel.requests.reset = false)
    (hnested : p.world.panel.requests.Nested services) (hdepth : 3 * services.length ≤ 256)
    (hhandlers : ∀ i, p.ram.Holds (p.ram.handler i) 0x40) :
    Returns p p.registers.pc (3 * services.length) (13 * services.length)
      (p.gone (services ++ List.replicate services.length [])) := by
  induction services generalizing p with
  | nil => exact Returns.refl hnested
  | cons made rest ih =>
    obtain ⟨i, hnext, hrest⟩ := hnested
    rw [List.length_cons] at hdepth ⊢
    have hpushed : 3 * (rest.length + 1) = 3 + 3 * rest.length := by omega
    have hcycles : 13 * (rest.length + 1) = 7 + (13 * rest.length + 6) := by omega
    rw [hpushed, hcycles, List.replicate_succ', List.cons_append, ← List.append_assoc]
    -- what is left inside is the same nest without its outermost service, in a memory with one frame more
    refine Returns.around hreset hnext (hhandlers i) (by omega) ?_
    rw [request_eq]
    have hoff := p.ram.offStack_pushFrame p.registers.sp p.registers.pc
      { p.registers.flags with unused := true, brk := false }.toByte
    refine ih (Processor.interrupted _ i) ?_ hrest (by omega) fun i' => ?_
    · exact (Requests.reset_clear _ i).trans ((Requests.reset_raiseAll _ made).trans hreset)
    · have hholds := hoff.holds (hhandlers i')
      rw [← hoff.handler i'] at hholds
      exact hholds

/-- BRK and the return from its handler come back behind the byte that follows BRK, like an interrupt of
    depth one. -/
theorem returns_brk {p : Processor Flat} (hquiet : p.world.panel.requests = {})
    (hopcode : p.ram.read p.registers.pc = 0x00)
    (hhandler : p.ram.Holds (p.ram.handler .irq) 0x40) :
    Returns p (p.registers.pc + 2) 3 13 (p.gone [[], []]) := by
  have hinside : p.broken.world.panel.requests = {} := hquiet
  have hholds := (p.ram.offStack_pushFrame p.registers.sp (p.registers.pc + 2)
    { p.registers.flags with unused := true, brk := true }.toByte).holds hhandler
  obtain ⟨last, hrti, hregisters, hpanel, hmemory⟩ :=
    (Returns.refl hinside).resume rfl rfl rfl hholds (by omega)
  have hreturn : p.broken.gone [[]] = (.ok (6 + 0), last) := gone_cons hrti rfl
  have hgone : p.gone [[], []] = (.ok (7 + (6 + 0)), last) :=
    gone_cons (cycled_brk hquiet hopcode) hreturn
  rw [hgone]
  refine ⟨rfl, ?_, ?_, hmemory⟩
  · have hcycles : p.registers.cycles + 7 + UInt64.ofNat (0 + 6) =
        p.registers.cycles + UInt64.ofNat 13 := UInt64.add_assoc _ _ _
    rw [← hcycles]
    exact hregisters
  · have hcharge := p.world.panel.budget.charge_charge 7 (0 + 6)
    unfold Panel.charge
    rw [← hcharge]
    exact hpanel

/-- JSR and the return from where it leads; RTS goes to the address behind the one that was saved. -/
theorem returns_jsr {p : Processor Flat} (hquiet : p.world.panel.requests = {})
    (hopcode : p.ram.read p.registers.pc = 0x20)
    (htarget : p.ram.Holds
      (word (p.ram.read (p.registers.pc + 1)) (p.ram.read (p.registers.pc + 2))) 0x60) :
    Returns p (p.registers.pc + 3) 2 12 (p.gone [[], []]) := by
  have hinside : p.called.world.panel.requests = {} := hquiet
  have hopcode' : p.called.ram.read p.called.registers.pc = 0x60 :=
    ((p.ram.offStack_pushWord p.registers.sp (p.registers.pc + 2)).holds htarget).read
  obtain ⟨hlo, hhi⟩ := p.ram.read_pushWord p.registers.sp (p.registers.pc + 2)
  have hsp : p.registers.sp - 2 + 2 = p.registers.sp := by grind
  have hpc : p.registers.pc + 2 + 1 = p.registers.pc + 3 := by grind
  have hcycles : p.registers.cycles + 6 + 6 = p.registers.cycles + UInt64.ofNat 12 :=
    UInt64.add_assoc _ _ _
  have hrts : p.called.cycled = (.ok 6, {
      registers := { p.registers with
        pc := p.registers.pc + 3
        addressLatch := stackCell p.registers.sp
        cycles := p.registers.cycles + UInt64.ofNat 12 }
      world := {
        memory := p.ram.pushWord p.registers.sp (p.registers.pc + 2)
        panel := (p.world.panel.charge 6).charge 6 } }) := by
    rw [cycled_rts hinside hopcode']
    dsimp only [called]
    rw [hlo, hhi, word_bytes, hsp, hpc, hcycles]
  have hreturn : p.called.gone [[]] = (.ok (6 + 0), _) := gone_cons hrts rfl
  have hgone : p.gone [[], []] = (.ok (6 + (6 + 0)), _) :=
    gone_cons (cycled_jsr hquiet hopcode) hreturn
  rw [hgone]
  refine ⟨rfl, rfl, ?_, fun address haddress => p.ram.read_pushWord_of_not_mem haddress⟩
  unfold Panel.charge
  dsimp only
  rw [Budget.charge_charge, hquiet]

/-! ## What a program sees of it -/

/-- The plain case: one request in each round, made inside the service of the one before.  Whatever the
    order of NMI and IRQ, as many returns as there were requests bring everything back. -/
theorem returns_singles (interrupts : List Interrupt) (p : Processor Flat) (j : Journal)
    (hquiet : p.world.panel.requests = {}) (hdepth : 3 * interrupts.length ≤ 256)
    (hhandlers : ∀ i, p.ram.Holds (p.ram.handler i) 0x40) :
    Returns p p.registers.pc (3 * interrupts.length) (13 * interrupts.length)
      ((p.rounds (interrupts.map (fun i => [i]) ++ List.replicate interrupts.length [])).run j).1 := by
  have hnested : p.world.panel.requests.Nested (interrupts.map fun i => [i]) := by
    rw [hquiet]
    exact Requests.nested_singles interrupts
  have hback := returns_nested _ p (by rw [hquiet]) hnested (by simpa using hdepth) hhandlers
  rw [List.length_map] at hback
  rw [fst_rounds]
  exact hback

/-- Interrupts, BRK and JSR return transparently.  Whatever is in the registers, and with nothing pending:

    * services that are requested one inside the other, as deep as the stack page allows, are followed by
      as many cycles that return from them, and then the registers and the flags are what they were, only
      the bytes that were pushed can have changed, and each service has been charged 13 cycles;
    * BRK, and the return from its handler, come back behind the byte that follows BRK;
    * JSR, and the return from where it leads, come back behind it. -/
theorem returns_transparently (p : Processor Flat) (j : Journal)
    (hquiet : p.world.panel.requests = {}) :
    (∀ services : List (List Interrupt), (∀ i, p.ram.Holds (p.ram.handler i) 0x40) →
      Requests.Nested {} services → 3 * services.length ≤ 256 →
      Returns p p.registers.pc (3 * services.length) (13 * services.length)
        ((p.rounds (services ++ List.replicate services.length [])).run j).1) ∧
    (p.ram.read p.registers.pc = 0x00 → p.ram.Holds (p.ram.handler .irq) 0x40 →
      Returns p (p.registers.pc + 2) 3 13 ((p.rounds [[], []]).run j).1) ∧
    (p.ram.read p.registers.pc = 0x20 →
      p.ram.Holds (word (p.ram.read (p.registers.pc + 1)) (p.ram.read (p.registers.pc + 2))) 0x60 →
      Returns p (p.registers.pc + 3) 2 12 ((p.rounds [[], []]).run j).1) := by
  simp only [fst_rounds]
  refine ⟨fun services hhandlers hnested hdepth => ?_, fun hopcode hhandler => ?_,
    fun hopcode htarget => ?_⟩
  · exact returns_nested services p (by rw [hquiet]) (by rw [hquiet]; exact hnested) hdepth hhandlers
  · exact returns_brk hquiet hopcode hhandler
  · exact returns_jsr hquiet hopcode htarget

/-- A program that begins with this opcode, with one byte of the stack left before it wraps.  NMI leads to
    0x8000 and IRQ to 0x9000, where there is RTI; a call would lead to 0xA000, where there is RTS. -/
def nestable (opcode : UInt8) : Processor Flat where
  registers := { a := 1, x := 2, y := 3, sp := 0, pc := 0x0400, flags := { brk := true, carry := true } }
  world := {
    memory := ((((({} : Flat).storeAt 0x0400 [opcode, 0x00, 0xA0]).setVector nmiVector 0x8000).setVector
      irqVector 0x9000).write 0x8000 0x40).write 0x9000 0x40 |>.write 0xA000 0x60 }

/-- The stack pointer starts at 0, so the first frame already wraps to the top of the page, and NMI comes
    twice with an IRQ between. -/
theorem returns_transparently_wrapping :
    (nestable 0x00).world.panel.requests = {} ∧
      (∀ i, (nestable 0x00).ram.Holds ((nestable 0x00).ram.handler i) 0x40) ∧
      Requests.Nested {} [[.nmi, .irq], [], [.nmi]] ∧
      Returns (nestable 0x00) 0x0400 9 39
        (((nestable 0x00).rounds [[.nmi, .irq], [], [.nmi], [], [], []]).run {}).1 ∧
      Returns (nestable 0x00) 0x0402 3 13 (((nestable 0x00).rounds [[], []]).run {}).1 ∧
      Returns (nestable 0x20) 0x0403 2 12 (((nestable 0x20).rounds [[], []]).run {}).1 := by
  have hhandlers : ∀ i, (nestable 0x00).ram.Holds ((nestable 0x00).ram.handler i) 0x40 := by
    intro i
    cases i with
    | nmi => exact ⟨by decide +kernel, by decide +kernel⟩
    | irq => exact ⟨by decide +kernel, by decide +kernel⟩
  have hnested : Requests.Nested {} [[.nmi, .irq], [], [.nmi]] :=
    ⟨.nmi, rfl, .irq, rfl, .nmi, rfl, rfl⟩
  obtain ⟨hinterrupts, hbrk, -⟩ := returns_transparently (nestable 0x00) {} rfl
  obtain ⟨-, -, hjsr⟩ := returns_transparently (nestable 0x20) {} rfl
  exact ⟨rfl, hhandlers, hnested, hinterrupts _ hhandlers hnested (by decide),
    hbrk (by decide +kernel) (hhandlers .irq),
    hjsr (by decide +kernel) ⟨by decide +kernel, by decide +kernel⟩⟩

end Processor

end Breadboard
