import Breadboard.Proofs.Assembly
import Breadboard.Proofs.Simulation
/-
  A machine does what a processor does on a plain memory map.

  `Overlay` is that memory map: a RAM at every address, with ROMs laid over it.  A read gets the byte of the
  first ROM that covers the address, or else the byte of the RAM; a write changes the RAM, also below a
  ROM.  There are no wires in it.

  `Shows` says that a circuit looks like such a map from outside: it is wired as the machine's layout says,
  and its RAM holds the same bytes.  It is a simulation, so the processors on the two sides do the same at
  every step, whatever is done to both of them between steps (`Machine.lockstep`).
-/
namespace Breadboard

/-! ## The memory map -/

namespace RomSlot

/-- A ROM covers as many addresses as its chip holds bytes. -/
def covers (slot : RomSlot) (address : UInt16) : Bool :=
  slot.base.toNat ≤ address.toNat && address.toNat < slot.base.toNat + span slot.addressLines

/-- The byte that a ROM answers with: its chip sees the lower lines of the address only, and holds zeros
    where the image has nothing. -/
def byteAt (slot : RomSlot) (address : UInt16) : UInt8 :=
  slot.image.getD (address.toNat % span slot.addressLines) 0

end RomSlot

/-- A RAM under ROMs: one byte for every address, and nothing about wires, buses or chips. -/
structure Overlay (slots : List RomSlot) where
  ram : UInt16 → UInt8 := fun _ => 0

namespace Overlay

variable {slots : List RomSlot}

/-- What a read gets: the byte of the first ROM that covers the address, or else that of the RAM. -/
def read (o : Overlay slots) (address : UInt16) : UInt8 :=
  match slots.find? (·.covers address) with
  | some slot => slot.byteAt address
  | none => o.ram address

/-- A write changes the RAM, also where a ROM covers it. -/
def write (o : Overlay slots) (address : UInt16) (v : UInt8) : Overlay slots where
  ram a := if a = address then v else o.ram a

instance : Memory (Overlay slots) where
  read address w := (w.memory.read address, w)
  write address v w := { w with memory := w.memory.write address v }
  endCycle w := w

/-! ## Circuits that look like it -/

/-- The window that is made for a ROM contains the addresses that the ROM covers. -/
theorem contains_window (slot : RomSlot) (enable : WireId) (address : UInt16) :
    (slot.window enable).contains address = slot.covers address := by
  rw [Bool.eq_iff_iff, Window.contains_iff, RomSlot.covers, Bool.and_eq_true, decide_eq_true_eq,
    decide_eq_true_eq]
  rfl

/-- The chip that is made for a ROM answers with the byte of the ROM. -/
theorem read_chip (slot : RomSlot) (enable : WireId) (address : UInt16) :
    (slot.chip enable).read address = slot.byteAt address :=
  Bank.read_ofBytes slot.addressLines slot.image address.toNat

/-- The layout of a machine answers reads as the overlay does. -/
theorem byteAt_layout {f : Fabric} {o : Overlay slots}
    (hram : ∀ a, (f.store (Machine.layout slots).ram.store).read a = o.ram a) (address : UInt16) :
    (Machine.layout slots).byteAt f address = o.read address := by
  -- both sides look for the first ROM in the list of slots with their wires
  have hfind : slots.find? (·.covers address) =
      ((slots.zip (Machine.enables slots)).find? fun e => e.1.covers address).map (·.1) := by
    have hzip := congrArg (·.find? (·.covers address)) (Machine.map_fst_zip_enables slots)
    simp only [List.find?_map] at hzip
    exact hzip.symm
  have hroms : (Machine.layout slots).roms.find? (·.1.contains address) =
      ((slots.zip (Machine.enables slots)).find? fun e => e.1.covers address).map
        fun e => (e.1.window e.2, e.1.chip e.2) := by
    simp only [Machine.layout, List.find?_map, Function.comp_def, contains_window]
  rw [Layout.byteAt, read, hroms, hfind]
  cases (slots.zip (Machine.enables slots)).find? fun e => e.1.covers address with
  | some e => exact read_chip e.1 e.2 address
  | none => exact hram address

/-- A RAM with all sixteen lines has a cell for every address, so that a write changes that one and no
    other. -/
theorem store_read_write {s : Store} (hlines : s.lines = 16) (a c : UInt16) (v : UInt8) :
    (s.write a v).read c = if c = a then v else s.read c := by
  simp only [Store.read, Store.write, Bank.read_write, hlines, address_mod_span, UInt16.toNat_inj]

/-- A circuit looks like an overlay: it is wired as it should be, its RAM holds the same bytes, and the
    same requests are pending. -/
structure Shows (w : World Fabric) (v : World (Overlay slots)) : Prop where
  wired : (Machine.layout slots).Wired w.memory
  latches : w.memory.Latches Machine.wire
  capacity : (w.memory.store (Machine.layout slots).ram.store).lines = 16
  ram : ∀ a, (w.memory.store (Machine.layout slots).ram.store).read a = v.memory.ram a
  requests : w.panel.requests = v.panel.requests

/-- What a circuit is in the middle of does not show: neither levels nor what is on the buses. -/
theorem Shows.of_sameBuild {w : World Fabric} {v : World (Overlay slots)} {f : Fabric}
    (h : Shows w v) (hbuild : w.memory.SameBuild f) (hstores : f.stores = w.memory.stores) :
    Shows { w with memory := f } v where
  wired := h.wired.of_sameBuild hbuild
  latches := h.latches.of_sameBuild hbuild
  capacity := by
    rw [Fabric.store, hstores]
    exact h.capacity
  ram a := by
    rw [Fabric.store, hstores]
    exact h.ram a
  requests := h.requests

/-- A byte is written on both sides, and the circuit still looks like the overlay. -/
theorem Shows.write {w : World Fabric} {v : World (Overlay slots)} {f : Fabric} (h : Shows w v)
    (address : UInt16) (value : UInt8) (hbuild : w.memory.SameBuild f)
    (hstores : f.stores = (w.memory.setStore (Machine.layout slots).ram.store
      ((w.memory.store (Machine.layout slots).ram.store).write address value)).stores) :
    Shows { w with memory := f } { v with memory := v.memory.write address value } := by
  have hstore : f.store (Machine.layout slots).ram.store =
      (w.memory.store (Machine.layout slots).ram.store).write address value := by
    rw [Fabric.store, hstores]
    exact (Fabric.store_setStore ..).trans (if_pos rfl)
  refine ⟨h.wired.of_sameBuild hbuild, h.latches.of_sameBuild hbuild, ?_, fun a => ?_, h.requests⟩
  · rw [hstore]
    exact h.capacity
  · rw [hstore, store_read_write h.capacity, h.ram]
    rfl

/-- Circuits that look like overlays form a simulation.  Each access is summed up by what is known of
    mounted circuits, and nothing more is said here of how it comes about. -/
theorem simulation : Simulation (@Shows slots) where
  read {w v} h address := by
    obtain ⟨f, hread, hbuild, hstores⟩ := h.wired.mounted.readPins address
    show (Circuit.readPins address w).1 = _ ∧ Shows (Circuit.readPins address w).2 _
    rw [hread]
    exact ⟨byteAt_layout h.ram address, h.of_sameBuild hbuild hstores⟩
  write {w v} h address value := by
    obtain ⟨f, hwrite, hbuild, hstores⟩ := h.wired.mounted.writePins address value
    show Shows (Circuit.writePins address value w) _
    rw [hwrite]
    exact h.write address value hbuild hstores
  endCycle {w v} h := by
    show Shows (Circuit.endPins w) v
    rw [h.wired.mounted.endPins]
    exact h.of_sameBuild (Fabric.sameBuild_setLevel ..) rfl
  requests h := h.requests
  withRequests h _ := ⟨h.wired, h.latches, h.capacity, h.ram, rfl⟩
  charge h _ := ⟨h.wired, h.latches, h.capacity, h.ram, h.requests⟩

end Overlay

/-! ## What may be done from outside -/

/-- Something done to a machine between instructions, or the execution of one. -/
inductive Deed where
  | step
  | request (kind : Request)
  /-- An interrupt wire is driven low and then high again. -/
  | pulse (kind : Request)
  /-- A byte of the RAM is changed. -/
  | poke (address : UInt16) (v : UInt8)
  | setRegisters (change : Registers → Registers)

/-- What comes back from a deed. -/
inductive Answer where
  | done
  | stepped (outcome : Except Fault Nat)
  | unnamed (reason : BoardError)

/-- One deed after the other, and all answers. -/
def Deed.all {σ : Type} (act : σ → Deed → Logged (Answer × σ)) :
    List Deed → σ → Logged (List Answer × σ)
  | [], s => return ([], s)
  | deed :: deeds, s => do
    let (answer, s) ← act s deed
    let (answers, s) ← all act deeds s
    return (answer :: answers, s)

/-- What one deed preserves, a sequence of deeds preserves, and the answers are the same on both sides.  By
    induction over the deeds, under two journals that go their own ways. -/
theorem Deed.all_preserves {σ τ : Type} {act : σ → Deed → Logged (Answer × σ)}
    {act' : τ → Deed → Logged (Answer × τ)} {R : σ → τ → Prop}
    (h : ∀ s t, R s t → ∀ deed j j', ((act s deed).run j).1.1 = ((act' t deed).run j').1.1 ∧
      R ((act s deed).run j).1.2 ((act' t deed).run j').1.2) :
    ∀ (deeds : List Deed) (s : σ) (t : τ), R s t → ∀ j j',
      ((all act deeds s).run j).1.1 = ((all act' deeds t).run j').1.1 ∧
        R ((all act deeds s).run j).1.2 ((all act' deeds t).run j').1.2
  | [], _, _, hst, _, _ => ⟨rfl, hst⟩
  | deed :: deeds, s, t, hst, j, j' => by
    obtain ⟨hanswer, hfirst⟩ := h s t hst deed j j'
    obtain ⟨hanswers, hrest⟩ := all_preserves h deeds _ _ hfirst
      ((act s deed).run j).2 ((act' t deed).run j').2
    exact ⟨congr (congrArg List.cons hanswer) hanswers, hrest⟩

namespace Machine

/-- The name by which the board knows the wire of an interrupt input. -/
def inputName : Request → String
  | .nmi => Board.nmiLine
  | .irq => Board.irqLine
  | .reset => Board.resetLine

/-- A deed for a machine, with what comes back from it. -/
def carryOut (m : Machine) : Deed → Logged (Answer × Machine)
  | .step => do
    let (outcome, m) ← m.step
    return (.stepped outcome, m)
  | .request kind => return (.done, m.onPanel (·.raise kind))
  | .pulse kind =>
    match m.pulse (inputName kind) with
    | .ok m => return (.done, m)
    | .error reason => return (.unnamed reason, m)
  | .poke address v => return (.done, { m with board := m.board.poke address v (.ram m.ram) })
  | .setRegisters change => return (.done, { m with registers := change m.registers })

end Machine

namespace Overlay

variable {slots : List RomSlot}

/-- The same deed for a processor on an overlay, where a pulse is no more than a request. -/
def carryOut (p : Processor (Overlay slots)) : Deed → Logged (Answer × Processor (Overlay slots))
  | .step => do
    let (outcome, p) ← p.step
    return (.stepped outcome, p)
  | .request kind => return (.done, p.onPanel (·.raise kind))
  | .pulse kind => return (.done, p.onPanel (·.raise kind))
  | .poke address v =>
    return (.done,
      { p with world := { p.world with memory := p.world.memory.write address v } })
  | .setRegisters change => return (.done, { p with registers := change p.registers })

/-- A processor on an overlay whose RAM is blank, before its power comes on. -/
def fresh (slots : List RomSlot) : Processor (Overlay slots) where
  world := { memory := {} }

/-! ## In step -/

/-- What can be seen of the two sides is the same: the registers, the pending requests, the byte of the
    RAM at every address, and what a read of every address would answer. -/
structure Agrees (m : Machine) (p : Processor (Overlay slots)) : Prop where
  registers : m.registers = p.registers
  requests : m.panel.requests = p.world.panel.requests
  ram : ∀ address, m.board.peek address (.ram m.ram) = p.world.memory.ram address
  bus : ∀ address, (Memory.read address m.processor.world).1 =
    (Memory.read address p.world).1

/-- What keeps the two sides in step: processors that are alike, and a board whose RAM and wires are where
    the layout has them. -/
structure InStep (m : Machine) (p : Processor (Overlay slots)) : Prop where
  alike : Processor.Alike Shows m.processor p
  ram : m.ram = (Machine.layout slots).ram
  labels : Machine.Labelled m.board.lines

/-- Sides that are in step cannot be told apart by what is visible of them. -/
theorem InStep.agrees {m : Machine} {p : Processor (Overlay slots)} (h : InStep m p) :
    Agrees m p where
  registers := h.alike.registers
  requests := h.alike.world.requests
  ram address := by
    rw [Board.peek, h.ram]
    exact h.alike.world.ram address
  bus address := (simulation.read h.alike.world address).1

/-- The board stays in step when its processor does. -/
theorem InStep.withProcessor {m : Machine} {q q' : Processor (Overlay slots)} (h : InStep m q)
    {p : Processor Fabric} (hp : Processor.Alike Shows p q') : InStep (m.withProcessor p) q' :=
  ⟨hp, h.ram, h.labels⟩

/-- A step on both sides has the same outcome, a fault included, and leaves them in step. -/
theorem inStep_step {m : Machine} {p : Processor (Overlay slots)} (h : InStep m p)
    (j j' : Journal) : ((m.carryOut .step).run j).1.1 = ((carryOut p .step).run j').1.1 ∧
      InStep ((m.carryOut .step).run j).1.2 ((carryOut p .step).run j').1.2 := by
  have hm : ((m.carryOut .step).run j).1 =
      (.stepped (m.processor.step.run j).1.1, m.withProcessor (m.processor.step.run j).1.2) := rfl
  have hp : ((carryOut p .step).run j').1 =
      (.stepped (p.step.run j').1.1, (p.step.run j').1.2) := rfl
  obtain ⟨houtcome, hafter⟩ := Simulation.stepped simulation h.alike
  -- the journals differ, but the steps do not depend on them
  rw [hm, hp, Processor.fst_step, Processor.fst_step, houtcome]
  exact ⟨rfl, h.withProcessor hafter⟩

theorem inStep_raise {m : Machine} {p : Processor (Overlay slots)} (h : InStep m p)
    (kind : Request) : InStep (m.onPanel (·.raise kind)) (p.onPanel (·.raise kind)) := by
  have hshows := h.alike.world
  refine ⟨⟨h.alike.registers, ?_⟩, h.ram, h.labels⟩
  exact ⟨hshows.wired, hshows.latches, hshows.capacity, hshows.ram,
    congrArg (·.raise kind) hshows.requests⟩

/-- The names of the interrupt inputs are in place, and stand for their wires. -/
theorem line_input {m : Machine} (h : Machine.Labelled m.board.lines) (kind : Request) :
    m.board.line (Machine.inputName kind) = .ok (Machine.wire kind) := by
  cases kind with
  | nmi => rw [Machine.inputName, Board.line, h.nmi]; rfl
  | irq => rw [Machine.inputName, Board.line, h.irq]; rfl
  | reset => rw [Machine.inputName, Board.line, h.reset]; rfl

/-- A pulse on the wire comes to the same as a request on the overlay, where there is no wire. -/
theorem inStep_pulse {m : Machine} {p : Processor (Overlay slots)} (h : InStep m p)
    (kind : Request) : ∃ m', m.pulse (Machine.inputName kind) = .ok m' ∧
      InStep m' (p.onPanel (·.raise kind)) := by
  have hshows := h.alike.world
  let low := (m.board.circuit.onFabric (·.setLevel (Machine.wire kind) .low)).onPanel (·.raise kind)
  let high := low.onFabric (·.setLevel (Machine.wire kind) .high)
  -- the request is made when the wire goes low, and going high adds nothing
  have hlow : m.board.drive (Machine.wire kind) .low =
      (((m.board.fabric).wire (Machine.wire kind)).level, { m.board with circuit := low }) := by
    rw [Board.drive, Fabric.Latches.drive_low (c := m.board.circuit) hshows.latches kind]
    rfl
  have hlatches : low.memory.Latches Machine.wire :=
    hshows.latches.of_sameBuild (Fabric.sameBuild_setLevel ..)
  have hhigh : (Board.drive { m.board with circuit := low } (Machine.wire kind) .high).2 =
      { m.board with circuit := high } := by
    rw [Board.drive, hlatches.drive_high kind]
  have hpulse : m.pulse (Machine.inputName kind) =
      .ok { m with board := { m.board with circuit := high } } := by
    rw [Machine.pulse, line_input h.labels]
    show Except.ok { m with board := (Board.drive (m.board.drive _ .low).2 _ .high).2 } = _
    rw [hlow, hhigh]
  refine ⟨_, hpulse, ⟨h.alike.registers, ?_⟩, h.ram, h.labels⟩
  -- the two levels that the wire goes through do not show; what remains is the request
  have hraised : Shows (m.board.circuit.onPanel (·.raise kind))
      (p.world.onPanel (·.raise kind)) :=
    (inStep_raise h kind).alike.world
  exact hraised.of_sameBuild
    ((Fabric.sameBuild_setLevel ..).trans (Fabric.sameBuild_setLevel ..)) rfl

/-- A byte of the RAM that is changed from outside is changed on both sides. -/
theorem inStep_poke {m : Machine} {p : Processor (Overlay slots)} (h : InStep m p)
    (address : UInt16) (v : UInt8) :
    InStep { m with board := m.board.poke address v (.ram m.ram) }
      { p with world := { p.world with memory := p.world.memory.write address v } } := by
  refine ⟨⟨h.alike.registers, ?_⟩, h.ram, h.labels⟩
  rw [h.ram]
  exact h.alike.world.write address v (Fabric.sameBuild_setStore ..) rfl

/-- Whatever is done on both sides, they answer alike and stay in step. -/
theorem inStep_carryOut (m : Machine) (p : Processor (Overlay slots)) (h : InStep m p)
    (deed : Deed) (j j' : Journal) :
    ((m.carryOut deed).run j).1.1 = ((carryOut p deed).run j').1.1 ∧
      InStep ((m.carryOut deed).run j).1.2 ((carryOut p deed).run j').1.2 := by
  cases deed with
  | step => exact inStep_step h j j'
  | request kind => exact ⟨rfl, inStep_raise h kind⟩
  | poke address v => exact ⟨rfl, inStep_poke h address v⟩
  | setRegisters change =>
    exact ⟨rfl, Simulation.changed h.alike change, h.ram, h.labels⟩
  | pulse kind =>
    obtain ⟨m', hpulse, hafter⟩ := inStep_pulse h kind
    have hm : m.carryOut (.pulse kind) = pure (.done, m') := by
      rw [Machine.carryOut, hpulse]
    rw [hm]
    exact ⟨rfl, hafter⟩

/-- Before power comes on, the circuit looks like a blank overlay. -/
theorem inStep_ready {budget : Budget} {m : Machine} (h : Machine.Ready slots budget m) :
    InStep m (fresh slots) where
  alike := by
    refine ⟨h.registers, ?_⟩
    refine ⟨(Machine.wired_wiredFabric slots).of_sameBuild h.build,
      (Machine.latches_wiredFabric slots).of_sameBuild h.build, ?_, fun a => ?_, ?_⟩
    · exact congrArg Store.lines (h.store _)
    · show (m.board.fabric.store _).read a = 0
      rw [h.store]
      exact Bank.read_fill 16 0 a.toNat
    · show m.panel.requests = {}
      rw [h.panel]
  ram := h.ram
  labels := h.labels

end Overlay

/-- A machine that has been built, and a processor that has been powered up on the overlay of the same
    ROMs: whatever is then done to both of them, in any order and for any length of time, they answer
    alike, and what can be seen of them is the same. -/
theorem Machine.lockstep {slots : List RomSlot} {budget : Budget} {m : Machine} {j : Journal}
    (hbuild : ((build slots budget).run.run j).1 = .ok m) (deeds : List Deed)
    (j₁ j₂ j₃ : Journal) :
    let p := ((Overlay.fresh slots).powerUp.run j₁).1
    let onBoard := ((Deed.all carryOut deeds m).run j₂).1
    let onOverlay := ((Deed.all Overlay.carryOut deeds p).run j₃).1
    onBoard.1 = onOverlay.1 ∧ Overlay.Agrees onBoard.2 onOverlay.2 := by
  obtain ⟨m₀, hready, hyields⟩ := yields_build slots budget
  have hbuilt := hyields j
  rw [hbuild, RomSlot.unlessRefused] at hbuilt
  cases hrefused : slots.findSome? RomSlot.refusal? with
  | some e =>
    -- then there would be no machine
    rw [hrefused] at hbuilt
    cases hbuilt
  | none =>
    rw [hrefused] at hbuilt
    obtain rfl : m = m₀.withProcessor m₀.processor.poweredUp.endCycle := Except.ok.inj hbuilt
    -- power comes on, which is the same two reads on both sides, and from there on it is one deed after the
    -- other
    have hbefore := Overlay.inStep_ready hready
    have hpowered := Simulation.poweredUp Overlay.simulation hbefore.alike
    have hstart := hbefore.withProcessor (p := m₀.processor.poweredUp.endCycle)
      ⟨hpowered.registers, Overlay.simulation.endCycle hpowered.world⟩
    rw [Processor.fst_powerUp]
    obtain ⟨hanswers, hafter⟩ :=
      Deed.all_preserves Overlay.inStep_carryOut deeds _ _ hstart j₂ j₃
    exact ⟨hanswers, hafter.agrees⟩

/-- Two ROMs, the second partly hidden by the first, and a bit of everything: steps, a pulse, a poke below a
    ROM, a change of registers, a request for RESET, and opcodes with and without a meaning. -/
theorem Machine.lockstep_overlapping :
    let slots : List RomSlot := [⟨"low", #[0xEA, 0x02], 0xE000, 12⟩, ⟨"high", #[], 0xE800, 12⟩]
    ∃ m,
    let deeds := [.step, .pulse .nmi, .poke 0xE001 7, .step, .setRegisters ({ · with x := 3 }), .step,
      .request .reset, .step]
    let p := ((Overlay.fresh slots).powerUp.run {}).1
    let onBoard := ((Deed.all carryOut deeds m).run {}).1
    let onOverlay := ((Deed.all Overlay.carryOut deeds p).run {}).1
    ((build slots {}).run.run {}).1 = .ok m ∧
      onBoard.1 = onOverlay.1 ∧ Overlay.Agrees onBoard.2 onOverlay.2 := by
  intro slots
  have hfits : slots.findSome? RomSlot.refusal? = none := by
    simp [slots, RomSlot.refusal?, maxAddressLines, span]
  obtain ⟨m, hbuild⟩ := build_ok hfits {} {}
  exact ⟨m, hbuild, lockstep hbuild _ {} {} {}⟩

end Breadboard
