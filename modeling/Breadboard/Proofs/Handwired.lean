import Mathlib.Data.List.Nodup
import Breadboard.Proofs.Assembly
/-
  A board that is wired by hand.

  A kit is a board with a processor's wires, one RAM, any number of ROMs, each on a wire of its own, and a
  decoder with any windows.  A window need not be as long as the chip behind it, windows may overlap or
  end beyond the last address, several may enable the same ROM, and a ROM may be behind none.

  The parts are installed and powered up in any order, some of them perhaps several times.  As long as
  each of them is installed at some time, it does not matter how this is done: the board is a memory map
  that can be told from the windows, the ROMs and what has been written (`Kit.memory_map`).
-/
namespace Breadboard

/-! ## Kits -/

/-- The parts of a board that nothing has been connected to, and all that has to be so for them to make a
    memory: pins on the processor's buses, different wires for different chips, nobody listening, and blank
    cells. -/
structure Kit where
  board : Board
  layout : Layout
  /-- All ROMs, also those that no window is for. -/
  roms : List Rom
  plugged : board.fabric.socket = layout.socket
  apart : layout.socket.data ≠ layout.socket.address
  addressWidth : (board.fabric.bus layout.socket.address).width = 16
  dataWidth : (board.fabric.bus layout.socket.data).width = 8
  ramPins : layout.ram.address = layout.socket.address ∧ layout.ram.data = layout.socket.data ∧
    layout.ram.rw = layout.socket.rw
  romPins : ∀ chip ∈ roms, chip.address = layout.socket.address ∧ chip.data = layout.socket.data
  /-- A window enables one of the ROMs, by its wire. -/
  windows : ∀ e ∈ layout.roms, e.2 ∈ roms ∧ e.1.enable = e.2.enable
  wires : (layout.socket.rw :: layout.socket.clock :: layout.ram.select ::
    roms.map (·.enable)).Nodup
  silent : ∀ w level, (board.fabric.wire w).listeners level = []
  blank : board.fabric.store layout.ram.store = .blank layout.ram.lines

/-- The wire that a chip listens on, and the level that it listens for. -/
def Device.place : Device → WireId × Level
  | .rom chip => (chip.enable, .low)
  | .ram chip => (chip.select, .low)
  | .decoder chip => (chip.clock, .high)

/-- Something done to a chip before the board is used.  Nothing is said of when, how often, or after what. -/
inductive Chore where
  | install (chip : Device)
  | powerUp (chip : Device)

namespace Chore

/-- The chip that it is done to. -/
def chip : Chore → Device
  | .install chip | .powerUp chip => chip

/-- The connections that are made by it; powering up makes none. -/
def connections : Chore → List Connection
  | .install chip => chip.connections
  | .powerUp _ => []

end Chore

namespace Board

/-- The board after a chore, with the messages it writes. -/
def carryOut (b : Board) : Chore → Logged Board
  | .install chip => b.install chip
  | .powerUp chip => return b.powerUp chip

/-- One chore after the other, in the order of the list. -/
def setUp (chores : List Chore) (b : Board) : Logged Board :=
  chores.foldlM carryOut b

end Board

/-- Something done at the processor's pins, as its cycles do it. -/
inductive PinUse where
  | read (address : UInt16)
  | write (address : UInt16) (v : UInt8)
  | endCycle

namespace PinUse

/-- The circuit after it, which for a read may have other levels and another byte on the data bus. -/
def apply (c : Circuit) : PinUse → Circuit
  | .read address => (Circuit.readPins address c).2
  | .write address v => Circuit.writePins address v c
  | .endCycle => Circuit.endPins c

/-- The byte that is written, if a chip with so many lines takes it for one at this address. -/
def written? (lines address : Nat) : PinUse → Option UInt8
  | .write a v => if a.toNat % span lines = address % span lines then some v else none
  | .read _ | .endCycle => none

/-- The byte that such a chip holds at an address: the one that was written last, or zero. -/
def lastWritten (lines : Nat) (past : List PinUse) (address : Nat) : UInt8 :=
  (past.filterMap (written? lines address)).getLast?.getD 0

end PinUse

/-- The board after it has been used, by any number of accesses and ends of cycles. -/
def Board.used (b : Board) (past : List PinUse) : Board :=
  { b with circuit := past.foldl PinUse.apply b.circuit }

namespace Kit

/-- All chips of the kit, with the RAM and the decoder first. -/
def chips (k : Kit) : List Device :=
  .ram k.layout.ram :: .decoder k.layout.decoder :: k.roms.map .rom

/-- Each chip of the kit is installed, and nothing is done to any others. -/
structure Complete (k : Kit) (chores : List Chore) : Prop where
  own : ∀ chore ∈ chores, chore.chip ∈ k.chips
  all : ∀ chip ∈ k.chips, .install chip ∈ chores

/-- The ROM behind the first window, in the order of the windows, that an address is in. -/
def romAt (k : Kit) (address : UInt16) : Option Rom :=
  (k.layout.roms.find? fun e =>
    e.1.base.toNat ≤ address.toNat ∧ address.toNat < e.1.base.toNat + e.1.length).map (·.2)

/-- What a read answers: the ROM's byte at the address modulo the size of the chip, or else the byte of
    the RAM. -/
def byteAt (k : Kit) (past : List PinUse) (address : UInt16) : UInt8 :=
  match k.romAt address with
  | some chip => chip.cells.toList.getD (address.toNat % chip.capacity) 0
  | none => PinUse.lastWritten k.layout.ram.lines past address.toNat

/-- A board is the memory map of its kit, after what has been done at its pins. -/
structure Maps (k : Kit) (past : List PinUse) (b : Board) : Prop where
  reads : ∀ address, (Circuit.readPins address b.circuit).1 = k.byteAt past address
  holds : b.dump (.ram k.layout.ram) =
    (List.range k.layout.ram.capacity).map (PinUse.lastWritten k.layout.ram.lines past)
  /-- A write changes one byte. -/
  writes : ∀ address v, (b.used [.write address v]).dump (.ram k.layout.ram) =
    (b.dump (.ram k.layout.ram)).set (address.toNat % k.layout.ram.capacity) v

end Kit

/-! ## What is connected -/

/-- The connections of a chip are made where it listens. -/
theorem Device.place_of_mem {d : Device} {c : Connection} (hc : c ∈ d.connections) :
    (c.wire, c.level) = d.place := by
  cases d with
  | rom chip | ram chip =>
    obtain rfl := List.mem_singleton.mp hc
    rfl
  | decoder chip =>
    rcases List.mem_cons.mp hc with rfl | hc
    · rfl
    · obtain rfl := List.mem_singleton.mp hc
      rfl

/-- A chip's connections are all in one place. -/
theorem Device.filter_connections (d : Device) (w : WireId) (level : Level) :
    d.connections.filter (fun c => c.wire = w ∧ c.level = level) =
      if d.place = (w, level) then d.connections else [] := by
  by_cases hplace : d.place = (w, level)
  · rw [if_pos hplace, List.filter_eq_self]
    intro c hc
    have hat := (place_of_mem hc).trans hplace
    exact decide_eq_true ⟨(Prod.mk.inj hat).1, (Prod.mk.inj hat).2⟩
  · rw [if_neg hplace, List.filter_eq_nil_iff]
    intro c hc hat
    have hat := of_decide_eq_true hat
    exact hplace ((place_of_mem hc).symm.trans (Prod.ext hat.1 hat.2))

namespace Kit

variable {k : Kit} {chores past : List Chore}

/-- The chips are on wires of their own, and none of them is on read/write. -/
theorem wires_chips (k : Kit) : k.layout.socket.rw ∉ k.chips.map (·.place.1) ∧
    (k.chips.map (·.place.1)).Nodup := by
  have hwires := k.wires
  have hmap : k.chips.map (·.place.1) =
      k.layout.ram.select :: k.layout.socket.clock :: k.roms.map (·.enable) := by
    simp only [chips, List.map_cons, List.map_map]
    rfl
  rw [hmap]
  -- the kit lists the decoder's wire before the RAM's, which is all the difference
  rw [List.nodup_cons] at hwires
  refine ⟨fun hrw => hwires.1 ?_, ?_⟩
  · rcases List.mem_cons.mp hrw with hrw | hrw
    · rw [hrw]
      exact List.mem_cons_of_mem _ List.mem_cons_self
    · rcases List.mem_cons.mp hrw with hrw | hrw
      · rw [hrw]
        exact List.mem_cons_self
      · exact List.mem_cons_of_mem _ (List.mem_cons_of_mem _ hrw)
  · exact (List.Perm.swap ..).nodup_iff.mp hwires.2

/-- Two chips of a kit that listen on the same wire are the same chip. -/
theorem chip_eq {d e : Device} (hd : d ∈ k.chips) (he : e ∈ k.chips)
    (h : d.place.1 = e.place.1) : d = e :=
  List.inj_on_of_nodup_map k.wires_chips.2 hd he h

theorem filter_nowhere (hown : ∀ chore ∈ chores, chore.chip ∈ k.chips) {w : WireId} {level : Level}
    (hnone : ∀ d ∈ k.chips, d.place ≠ (w, level)) :
    (chores.flatMap Chore.connections).filter (fun c => c.wire = w ∧ c.level = level) = [] := by
  rw [List.filter_eq_nil_iff]
  intro c hc hat
  obtain ⟨chore, hchore, hc⟩ := List.mem_flatMap.mp hc
  have hat := of_decide_eq_true hat
  cases chore with
  | install d =>
    exact hnone d (hown _ hchore) ((Device.place_of_mem hc).symm.trans (Prod.ext hat.1 hat.2))
  | powerUp d => exact absurd hc List.not_mem_nil

/-- Where a chip is, its connections are made as often as it is installed.  By induction on the chores: to
    install another chip connects nothing here. -/
theorem filter_chip {d : Device} (hd : d ∈ k.chips) :
    ∀ chores : List Chore, (∀ chore ∈ chores, chore.chip ∈ k.chips) →
      ∃ n, (chores.flatMap Chore.connections).filter
          (fun c => c.wire = d.place.1 ∧ c.level = d.place.2) =
        (List.replicate n d.connections).flatten ∧ (.install d ∈ chores → 0 < n)
  | [], _ => ⟨0, rfl, fun h => absurd h List.not_mem_nil⟩
  | chore :: chores, hown => by
    obtain ⟨n, hfilter, hpos⟩ := filter_chip hd chores fun x hx => hown x (List.mem_cons_of_mem _ hx)
    have hchore : chore.chip ∈ k.chips := hown chore List.mem_cons_self
    rw [List.flatMap_cons, List.filter_append, hfilter]
    cases chore with
    | powerUp e =>
      refine ⟨n, rfl, fun h => hpos ?_⟩
      rcases List.mem_cons.mp h with h | h
      · cases h
      · exact h
    | install e =>
      rw [Chore.connections, Device.filter_connections]
      by_cases hplace : e.place = (d.place.1, d.place.2)
      -- two chips that listen in the same place are one chip
      · obtain rfl : e = d := chip_eq hchore hd (congrArg (·.1) hplace)
        rw [if_pos rfl]
        exact ⟨n + 1, rfl, fun _ => Nat.succ_pos n⟩
      · rw [if_neg hplace]
        refine ⟨n, rfl, fun h => hpos ?_⟩
        rcases List.mem_cons.mp h with h | h
        · cases h
          exact absurd rfl hplace
        · exact h

/-! ## While the board is set up -/

/-- The kit's fabric with the connections that the chores make, and nothing else. -/
def connected (k : Kit) (chores : List Chore) : Fabric :=
  k.board.fabric.connect (chores.flatMap Chore.connections)

/-- Those who listen there are the ones that the chores have connected. -/
theorem listeners_connected (k : Kit) (chores : List Chore) (w : WireId) (level : Level) :
    ((k.connected chores).wire w).listeners level =
      ((chores.flatMap Chore.connections).filter
        fun c => c.wire = w ∧ c.level = level).map (·.listener) := by
  rw [connected, Fabric.listeners_connect, k.silent]
  rfl

theorem listeners_nowhere (hown : ∀ chore ∈ chores, chore.chip ∈ k.chips) {w : WireId}
    {level : Level} (hnone : ∀ d ∈ k.chips, d.place ≠ (w, level)) :
    ((k.connected chores).wire w).listeners level = [] := by
  rw [listeners_connected, filter_nowhere hown hnone]
  rfl

/-- A chip listens for one of the levels of its wire only. -/
theorem nowhere_of_level {d : Device} (hd : d ∈ k.chips) {level : Level} (hlevel : level ≠ d.place.2) :
    ∀ e ∈ k.chips, e.place ≠ (d.place.1, level) := by
  intro e he hplace
  obtain rfl : e = d := chip_eq he hd (congrArg (·.1) hplace)
  exact hlevel (congrArg (·.2) hplace).symm

/-- Where a chip listens there is nobody but this chip, as often as it has been installed, which is at least
    once. -/
theorem listeners_chip {d : Device} (hd : d ∈ k.chips) (h : k.Complete chores) :
    Layout.Repeats (d.connections.map (·.listener))
      (((k.connected chores).wire d.place.1).listeners d.place.2) := by
  obtain ⟨n, hfilter, hpos⟩ := filter_chip hd chores h.own
  obtain ⟨m, rfl⟩ := Nat.exists_eq_succ_of_ne_zero (Nat.ne_of_gt (hpos (h.all d hd)))
  refine ⟨m, ?_⟩
  rw [listeners_connected, hfilter, List.map_flatten, List.map_replicate]

/-- The wires that the decoder drives are those of the RAM and of ROMs. -/
theorem output_chip {w : WireId} (hw : w ∈ k.layout.decoder.outputs) :
    ∃ d ∈ k.chips, d.place = (w, .low) := by
  rcases Layout.mem_outputs.mp hw with rfl | ⟨e, he, rfl⟩
  · exact ⟨.ram k.layout.ram, List.mem_cons_self, rfl⟩
  · obtain ⟨hrom, henable⟩ := k.windows e he
    refine ⟨.rom e.2, ?_, ?_⟩
    · exact List.mem_cons_of_mem _ (List.mem_cons_of_mem _ (List.mem_map_of_mem hrom))
    · rw [henable]
      rfl

/-- Connecting does the same to fabrics that are built alike. -/
theorem sameBuild_connect {f g : Fabric} (h : f.SameBuild g) (cs : List Connection) :
    (f.connect cs).SameBuild (g.connect cs) := by
  have hlisteners : ∀ w level, ((g.connect cs).wire w).listeners level =
      ((f.connect cs).wire w).listeners level := by
    intro w level
    rw [Fabric.listeners_connect, Fabric.listeners_connect, h.listeners]
  obtain ⟨hbuses, -, hsocket⟩ := Fabric.connect_others cs f
  obtain ⟨hbuses', -, hsocket'⟩ := Fabric.connect_others cs g
  refine ⟨fun w => hlisteners w .low, fun w => hlisteners w .high, fun b => ?_, ?_⟩
  · rw [Fabric.bus, Fabric.bus, hbuses, hbuses']
    exact h.width b
  · rw [hsocket, hsocket', h.socket]

/-- A board on which these chores have been done: it is built as they build it, and its cells are still
    blank. -/
structure Standing (k : Kit) (chores : List Chore) (b : Board) : Prop where
  build : (k.connected chores).SameBuild b.fabric
  store : ∀ s, b.fabric.store s = k.board.fabric.store s

/-- Before the first chore, that is the board of the kit. -/
theorem standing_nil (k : Kit) : k.Standing [] k.board :=
  ⟨.refl _, fun _ => rfl⟩

/-- Before the board is used, every chip is as it is when power comes on. -/
theorem Standing.rests {b : Board} (h : k.Standing chores b)
    (hown : ∀ chore ∈ chores, chore.chip ∈ k.chips) : ∀ d ∈ k.chips, b.Rests d := by
  intro d hd
  rcases List.mem_cons.mp hd with rfl | hd
  · exact (h.store _).trans k.blank
  · rcases List.mem_cons.mp hd with rfl | hd
    -- nobody listens to a select wire going high, so the decoder can let them all go
    · intro w hw
      obtain ⟨e, he, hplace⟩ := output_chip hw
      have hlevel : Level.high ≠ e.place.2 := by
        rw [hplace]
        exact fun h => nomatch h
      have hnone := nowhere_of_level he hlevel
      rw [hplace] at hnone
      exact (h.build.onHigh w).trans (listeners_nowhere hown hnone)
    · obtain ⟨chip, -, rfl⟩ := List.mem_map.mp hd
      trivial

theorem Standing.carryOut {b : Board} (h : k.Standing past b) (chore : Chore)
    (hown : ∀ x ∈ past, x.chip ∈ k.chips) (hchore : chore.chip ∈ k.chips) (j : Journal) :
    k.Standing (past ++ [chore]) ((b.carryOut chore).run j).1 := by
  cases chore with
  | install d =>
    -- installing adds connections, and powering up changes at most levels, since the chip is at rest
    have hinstall : ((b.carryOut (.install d)).run j).1 = b.onFabric (·.connect d.connections) :=
      b.fst_install d j
    have hconnected : k.connected (past ++ [.install d]) =
        (k.connected past).connect d.connections := by
      simp only [connected, List.flatMap_append, Fabric.connect_append, List.flatMap_cons,
        List.flatMap_nil, List.append_nil, Chore.connections]
    rw [hinstall]
    refine ⟨?_, fun s => ?_⟩
    · rw [hconnected]
      exact sameBuild_connect h.build d.connections
    · have hstores : (b.fabric.connect d.connections).stores = b.fabric.stores :=
        (Fabric.connect_others d.connections b.fabric).2.1
      rw [← h.store s]
      exact congrArg (·.get s.index) hstores
  | powerUp d =>
    have hconnected : k.connected (past ++ [.powerUp d]) = k.connected past := by
      simp only [connected, List.flatMap_append, List.flatMap_cons, List.flatMap_nil, Chore.connections,
        List.append_nil]
    have hkept := b.kept_powerUp d (h.rests hown d hchore)
    refine ⟨?_, fun s => (hkept.store s).trans (h.store s)⟩
    rw [hconnected]
    exact h.build.trans hkept.build

/-- All chores have been done, by induction on those that are left. -/
theorem Standing.setUp : ∀ (chores past : List Chore) (b : Board), k.Standing past b →
    (∀ x ∈ past, x.chip ∈ k.chips) → (∀ x ∈ chores, x.chip ∈ k.chips) → ∀ j : Journal,
      k.Standing (past ++ chores) ((b.setUp chores).run j).1
  | [], past, b, h, _, _, _ => by
    rw [List.append_nil]
    exact h
  | chore :: chores, past, b, h, hpast, hchores, j => by
    have hchore := hchores chore List.mem_cons_self
    have hnext := h.carryOut chore hpast hchore j
    -- the chore that has been done joins those of the past
    have hown : ∀ x ∈ past ++ [chore], x.chip ∈ k.chips := by
      intro x hx
      rcases List.mem_append.mp hx with hx | hx
      · exact hpast x hx
      · obtain rfl := List.mem_singleton.mp hx
        exact hchore
    have hrest := Standing.setUp chores (past ++ [chore]) _ hnext hown
      (fun x hx => hchores x (List.mem_cons_of_mem _ hx)) ((b.carryOut chore).run j).2
    rw [List.append_assoc] at hrest
    exact hrest

/-- When every chip has been installed, the board is built as its layout says. -/
theorem mounted_connected (h : k.Complete chores) : k.layout.Mounted (k.connected chores) := by
  obtain ⟨hbuses, -, hsocket⟩ := Fabric.connect_others (chores.flatMap Chore.connections) k.board.fabric
  have hram : Device.ram k.layout.ram ∈ k.chips := List.mem_cons_self
  have hdecoder : Device.decoder k.layout.decoder ∈ k.chips :=
    List.mem_cons_of_mem _ List.mem_cons_self
  have hrom : ∀ e ∈ k.layout.roms, Device.rom e.2 ∈ k.chips := fun e he =>
    List.mem_cons_of_mem _ (List.mem_cons_of_mem _ (List.mem_map_of_mem (k.windows e he).1))
  -- a chip's wire has nobody on it for the other level
  have hsilent : ∀ level {d}, d ∈ k.chips → level ≠ d.place.2 →
      ((k.connected chores).wire d.place.1).listeners level = [] := fun level d hd hlevel =>
    listeners_nowhere h.own (nowhere_of_level hd hlevel)
  exact {
    socket := hsocket.trans k.plugged
    apart := k.apart
    addressWidth := by
      rw [connected, Fabric.bus, hbuses]
      exact k.addressWidth
    dataWidth := by
      rw [connected, Fabric.bus, hbuses]
      exact k.dataWidth
    rwSilent := fun level => by
      refine listeners_nowhere h.own fun d hd hplace => k.wires_chips.1 ?_
      exact List.mem_map.mpr ⟨d, hd, congrArg (·.1) hplace⟩
    clockLow := hsilent .low hdecoder (Level.noConfusion ·)
    clockHigh := listeners_chip hdecoder h
    ramLow := listeners_chip hram h
    ramHigh := hsilent .high hram (Level.noConfusion ·)
    ramPins := k.ramPins
    romLow := fun e he => by
      rw [(k.windows e he).2]
      exact listeners_chip (hrom e he) h
    romHigh := fun e he => by
      rw [(k.windows e he).2]
      exact hsilent .high (hrom e he) (Level.noConfusion ·)
    romPins := fun e he => k.romPins e.2 (k.windows e he).1 }

end Kit

/-! ## While the board is used -/

namespace PinUse

variable {lines : Nat} {past : List PinUse}

/-- After a write, the cell that it goes to has the byte, and every other one has what it had. -/
theorem lastWritten_write (a : UInt16) (v : UInt8) (address : Nat) :
    lastWritten lines (past ++ [.write a v]) address =
      if address % span lines = a.toNat % span lines then v else lastWritten lines past address := by
  unfold lastWritten
  rw [List.filterMap_append, List.filterMap_cons, written?]
  by_cases haddress : address % span lines = a.toNat % span lines
  · rw [if_pos haddress, if_pos haddress.symm]
    simp
  · rw [if_neg haddress, if_neg fun h => haddress h.symm]
    simp

theorem lastWritten_append {use : PinUse} (h : ∀ address, use.written? lines address = none) :
    lastWritten lines (past ++ [use]) = lastWritten lines past := by
  funext address
  unfold lastWritten
  rw [List.filterMap_append, List.filterMap_cons, h]
  simp

end PinUse

theorem Rom.read_eq (chip : Rom) (address : UInt16) :
    chip.read address = chip.cells.toList.getD (address.toNat % chip.capacity) 0 := by
  have hlt : address.toNat % span chip.lines < span chip.lines := Nat.mod_lt _ (span_pos _)
  rw [read, Bank.toList, capacity, ← Bank.read_mod]
  simp [List.getD_eq_getElem?_getD, hlt]

namespace Kit

variable {k : Kit} {chores : List Chore} {past : List PinUse} {c : Circuit}

/-- A circuit that has been used, and holds what has been written: it is mounted as its layout says, and
    each cell of the RAM has its last byte. -/
structure Holds (k : Kit) (past : List PinUse) (c : Circuit) : Prop where
  mounted : k.layout.Mounted c.memory
  lines : (c.memory.store k.layout.ram.store).lines = k.layout.ram.lines
  cells : ∀ a, (c.memory.store k.layout.ram.store).cells.read a =
    PinUse.lastWritten k.layout.ram.lines past a

/-- A board on which all chips have been installed holds nothing but zeros. -/
theorem Standing.holds {b : Board} (h : k.Standing chores b) (hall : k.Complete chores) :
    k.Holds [] b.circuit := by
  have hblank : b.fabric.store k.layout.ram.store = .blank k.layout.ram.lines :=
    (h.store _).trans k.blank
  refine ⟨(mounted_connected hall).of_sameBuild h.build, ?_, fun a => ?_⟩
  · exact congrArg Store.lines hblank
  · show (b.fabric.store k.layout.ram.store).cells.read a = 0
    rw [hblank]
    exact Bank.read_fill ..

/-- Whatever is done at the pins, the circuit still holds what has been written, this use included. -/
theorem Holds.apply (h : k.Holds past c) (use : PinUse) : k.Holds (past ++ [use]) (use.apply c) := by
  cases use with
  -- a read leaves the cells alone, a write changes one, and the end of a cycle is a level
  | read address =>
    obtain ⟨f, hread, hbuild, hstores⟩ := h.mounted.readPins address
    have hstore : f.store k.layout.ram.store = c.memory.store k.layout.ram.store :=
      congrArg (·.get k.layout.ram.store.index) hstores
    rw [PinUse.apply, hread]
    refine ⟨h.mounted.of_sameBuild hbuild, ?_, fun a => ?_⟩
    · rw [hstore]
      exact h.lines
    · rw [PinUse.lastWritten_append fun _ => rfl, hstore]
      exact h.cells a
  | write address v =>
    obtain ⟨f, hwrite, hbuild, hstores⟩ := h.mounted.writePins address v
    have hstore : f.store k.layout.ram.store =
        (c.memory.store k.layout.ram.store).write address v :=
      (congrArg (·.get k.layout.ram.store.index) hstores).trans
        ((Fabric.store_setStore ..).trans (if_pos rfl))
    rw [PinUse.apply, hwrite]
    refine ⟨h.mounted.of_sameBuild hbuild, ?_, fun a => ?_⟩
    · rw [hstore]
      exact h.lines
    · rw [PinUse.lastWritten_write, hstore, Store.write, Bank.read_write, h.cells]
      show (if a % span (c.memory.store _).lines = _ % span (c.memory.store _).lines then v else _) = _
      rw [h.lines]
  | endCycle =>
    rw [PinUse.apply, h.mounted.endPins]
    refine ⟨h.mounted.of_sameBuild (Fabric.sameBuild_setLevel ..), h.lines, fun a => ?_⟩
    rw [PinUse.lastWritten_append fun _ => rfl]
    exact h.cells a

/-- The same for any uses, by induction on what is still to be done. -/
theorem Holds.used : ∀ (later past : List PinUse) (c : Circuit), k.Holds past c →
    k.Holds (past ++ later) (later.foldl PinUse.apply c)
  | [], past, c, h => by
    rw [List.append_nil]
    exact h
  | use :: later, past, c, h => by
    have hrest := Holds.used later (past ++ [use]) (use.apply c) (h.apply use)
    rw [List.append_assoc] at hrest
    exact hrest

/-- What the layout answers is what the kit is said to answer. -/
theorem byteAt_layout (h : k.Holds past c) (address : UInt16) :
    k.layout.byteAt c.memory address = k.byteAt past address := by
  have hfind : (k.layout.roms.find? (·.1.contains address)).map (·.2) = k.romAt address := by
    unfold romAt
    congr 2
    funext e
    rw [Bool.eq_iff_iff, Window.contains_iff, decide_eq_true_eq]
  rw [byteAt, ← hfind, Layout.byteAt]
  cases k.layout.roms.find? (·.1.contains address) with
  | some e => exact e.2.read_eq address
  | none => exact h.cells address.toNat

/-- The RAM shows what has been written to it, cell by cell. -/
theorem Holds.dump {b : Board} (h : k.Holds past b.circuit) : b.dump (.ram k.layout.ram) =
    (List.range k.layout.ram.capacity).map (PinUse.lastWritten k.layout.ram.lines past) := by
  have hcells : (b.fabric.store k.layout.ram.store).cells.read =
      PinUse.lastWritten k.layout.ram.lines past := funext h.cells
  rw [Board.dump, Bank.toList, hcells, Ram.capacity]
  exact congrArg (fun n => (List.range (span n)).map _) h.lines

/-- A board that holds what has been written is the memory map of its kit. -/
theorem Holds.maps {b : Board} (h : k.Holds past b.circuit) : k.Maps past b where
  reads address := by
    obtain ⟨f, hread, -, -⟩ := h.mounted.readPins address
    rw [hread]
    exact byteAt_layout h address
  holds := h.dump
  writes address v := by
    have hwritten : k.Holds (past ++ [.write address v]) (b.used [.write address v]).circuit :=
      h.apply (.write address v)
    rw [hwritten.dump, h.dump]
    refine List.ext_getElem (by simp) fun i hi hi' => ?_
    have hlt : i < span k.layout.ram.lines := by simpa [Ram.capacity] using hi
    -- the cells have the numbers that are their own remainders
    have hsame : i % span k.layout.ram.lines = i := Nat.mod_eq_of_lt hlt
    simp only [List.getElem_map, List.getElem_range, List.getElem_set, PinUse.lastWritten_write, hsame,
      Ram.capacity]
    by_cases hi : i = address.toNat % span k.layout.ram.lines
    · rw [if_pos hi, if_pos hi.symm]
    · rw [if_neg hi, if_neg fun h => hi h.symm]

end Kit

/-! ## Kits from the shelf -/

/-- A range of addresses at which one of `n` ROMs is to answer. -/
structure Opening (n : Nat) where
  base : UInt16
  length : Nat
  rom : Fin n

/-- What a board is to be made of, with the sizes that its chips can have.  The bases of the ROMs do not
    count, the openings say where the ROMs answer. -/
structure Blueprint where
  ramLines : Nat
  roms : List RomSlot
  openings : List (Opening roms.length)
  ramFits : checkLines ramLines = .ok ()
  romsFit : ∀ slot ∈ roms, checkLines slot.addressLines = .ok ()

namespace Blueprint

open Building Machine

variable (p : Blueprint)

/-- Makes the chip of a ROM, on this wire. -/
def makeChip (address data : BusId) (slot : RomSlot) (enable : WireId) : Building Rom := do
  match ← Rom.make slot.name slot.image slot.addressLines address data enable with
  | .error reason => throw (.chip reason)
  | .ok chip => return chip

/-- Lays the wires and makes the chips, with the functions by which a machine is built as well. -/
def assemble : Building (Board × Ram × List Rom) := do
  let bare ← Board.forProcessor
  let (ramSelect, b) := bare.addLine Board.ramSelectLine
  let (enables, b) := layEnables p.roms b
  let address ← orElse .board (b.bus Board.addressBus)
  let data ← orElse .board (b.bus Board.dataBus)
  let rw ← orElse .board (b.line Board.rwLine)
  let (ram, b) ← orElse .chip (b.makeRam p.ramLines address data rw ramSelect)
  let chips ← (p.roms.zip enables).mapM fun (slot, enable) => makeChip address data slot enable
  return (← orElse .board b.plugIn, ram, chips)

/-- The RAM of the blueprint, on the sixth wire. -/
def ram : Ram where
  lines := p.ramLines
  store := ⟨0⟩
  address := ({} : Socket).address
  data := ({} : Socket).data
  rw := ({} : Socket).rw
  select := ⟨5⟩

/-- The chips of its ROMs, each on a wire of its own. -/
def chips : List Rom :=
  (p.roms.zip (enables p.roms)).map fun (slot, enable) => slot.chip enable

theorem length_chips : p.chips.length = p.roms.length := by
  simp [chips, enables]

/-- The chip of a ROM, by its number. -/
def chip (i : Fin p.roms.length) : Rom :=
  p.chips.get (i.cast p.length_chips.symm)

theorem chip_mem (i : Fin p.roms.length) : p.chip i ∈ p.chips :=
  List.get_mem ..

/-- Where the parts are: the windows are the openings, each enabling the ROM of its number. -/
def layout : Layout where
  socket := {}
  ram := p.ram
  roms := p.openings.map fun o =>
    ({ base := o.base, length := o.length, enable := (p.chip o.rom).enable }, p.chip o.rom)

/-- The board with all wires laid, and the cells of the RAM. -/
def board : Board :=
  (layEnables p.roms bareBoard).2.onFabric fun f => (f.addStore (.blank p.ramLines)).2

theorem fabric_board :
    p.board.fabric = { bareFabric p.roms with stores := ⟨[.blank p.ramLines]⟩ } := by
  obtain ⟨lines, hlaid, -⟩ := layEnables_eq p.roms bareBoard
  rw [board, hlaid]
  rfl

/-- The chips are on the wires that have been laid for them. -/
theorem map_enable_chips : p.chips.map (·.enable) = enables p.roms := by
  simp only [chips, List.map_map]
  exact List.map_snd_zip (by simp [enables])

/-- The kit that the blueprint is for.  What a kit asks for is true of any blueprint, so there are as many
    kits as anybody may want. -/
def kit : Kit where
  board := p.board
  layout := p.layout
  roms := p.chips
  plugged := by
    rw [fabric_board]
    rfl
  apart := fun h => absurd h (show (⟨1⟩ : BusId) ≠ ⟨0⟩ by decide)
  addressWidth := by
    rw [fabric_board]
    rfl
  dataWidth := by
    rw [fabric_board]
    rfl
  ramPins := ⟨rfl, rfl, rfl⟩
  romPins chip hchip := by
    obtain ⟨entry, -, rfl⟩ := List.mem_map.mp hchip
    exact ⟨rfl, rfl⟩
  windows e he := by
    obtain ⟨o, -, rfl⟩ := List.mem_map.mp he
    exact ⟨p.chip_mem o.rom, rfl⟩
  wires := by
    rw [map_enable_chips]
    show ([⟨0⟩, ⟨4⟩, ⟨5⟩] ++ enables p.roms : List WireId).Nodup
    -- the wires of ROMs come after all others
    refine List.nodup_append.mpr ⟨by decide, nodup_enables p.roms, ?_⟩
    rintro w hw _ hrom rfl
    have hle : 6 ≤ w.index := le_of_mem_enables hrom
    have hindex : w.index ∈ [0, 4, 5] := List.mem_map_of_mem hw
    simp only [List.mem_cons, List.not_mem_nil, or_false] at hindex
    omega
  silent w level := by
    rw [fabric_board]
    show ((bareFabric p.roms).wire w).listeners level = []
    rw [wire_bareFabric]
    cases level <;> rfl
  blank := by
    rw [fabric_board]
    rfl

/-- A chip is made, or else its number of address lines is refused. -/
theorem yields_makeChip (slot : RomSlot) (enable : WireId) :
    Yields (makeChip ({} : Socket).address ({} : Socket).data slot enable)
      ((if slot.addressLines = 0 ∨ maxAddressLines < slot.addressLines then
        some (MachineError.chip (.addressLines slot.addressLines)) else none).elim
          (.ok (slot.chip enable)) .error) := by
  unfold makeChip
  refine (yields_make slot enable).bind_ok ?_
  by_cases hlines : slot.addressLines = 0 ∨ maxAddressLines < slot.addressLines
  · rw [if_pos hlines, if_pos hlines]
    exact yields_throw _
  · rw [if_neg hlines, if_neg hlines]
    exact yields_pure _

/-- No chip of the blueprint is refused, since it has been drawn with possible sizes only. -/
theorem yields_chips : Yields ((p.roms.zip (enables p.roms)).mapM fun (slot, enable) =>
    makeChip ({} : Socket).address ({} : Socket).data slot enable) (.ok p.chips) := by
  have hmapped := yields_mapM
    (f := fun entry : RomSlot × WireId =>
      makeChip ({} : Socket).address ({} : Socket).data entry.1 entry.2)
    (fun entry => yields_makeChip entry.1 entry.2) (p.roms.zip (enables p.roms))
  -- each ROM of the plan has a possible number of address lines, so there is no first error
  have hnone : (p.roms.zip (enables p.roms)).findSome? (fun entry =>
      if entry.1.addressLines = 0 ∨ maxAddressLines < entry.1.addressLines then
        some (MachineError.chip (.addressLines entry.1.addressLines)) else none) = none := by
    rw [List.findSome?_eq_none_iff]
    intro entry hentry
    have hfits := p.romsFit entry.1 (List.of_mem_zip hentry).1
    unfold checkLines at hfits
    by_cases hlines : entry.1.addressLines = 0 ∨ maxAddressLines < entry.1.addressLines
    · rw [if_pos hlines] at hfits
      cases hfits
    · exact if_neg hlines
  rw [hnone] at hmapped
  exact hmapped

/-- The functions of the board make the kit. -/
theorem yields_assemble : Yields p.assemble (.ok (p.kit.board, p.kit.layout.ram, p.kit.roms)) := by
  obtain ⟨lines, hlaid, hnames⟩ := layEnables_eq p.roms bareBoard
  have hline := line_of_reserved hnames
  have hrw := hline Board.rwLine (reserved_of_getLast (by decide)) ⟨0⟩ (by decide)
  have hclock := hline Board.clockLine (reserved_of_getLast (by decide)) ⟨4⟩ (by decide)
  unfold assemble
  refine (yields_lift fst_forProcessor).bind_ok ?_
  have hselect : (Board.forProcessor.run {}).1.addLine Board.ramSelectLine = (⟨5⟩, bareBoard) := rfl
  simp only [hselect, hlaid]
  refine (yields_orElse (a := (⟨0⟩ : BusId)) rfl).bind_ok ?_
  refine (yields_orElse (a := (⟨1⟩ : BusId)) rfl).bind_ok ?_
  refine (yields_orElse (hrw _ rfl)).bind_ok ?_
  refine (yields_orElse (a := (p.ram, p.board)) ?_).bind_ok ?_
  · simp only [Board.makeRam, p.ramFits]
    rw [board, hlaid]
    rfl
  · refine p.yields_chips.bind_ok ?_
    refine (yields_orElse (a := p.board) (plugIn_eq ?_ ?_ ?_ ?_ ?_)).bind_ok (yields_pure _)
    all_goals rw [board, hlaid]
    · rfl
    · rfl
    · exact hrw _ rfl
    · exact hclock _ rfl
    · rfl

end Blueprint

/-! ## The memory map -/

namespace Kit

/-- A board that has been wired by hand is the memory map that its parts make, whatever the order in which
    they have been installed and powered up, and however often. -/
theorem memory_map (k : Kit) {chores : List Chore} (h : k.Complete chores) (past : List PinUse)
    (j : Journal) : k.Maps past (((k.board.setUp chores).run j).1.used past) := by
  have hstanding := Standing.setUp chores [] k.board k.standing_nil
    (fun x hx => absurd hx List.not_mem_nil) h.own j
  -- nothing has been written before the first use
  have hused := Holds.used past [] _ (hstanding.holds h)
  exact hused.maps

/-- A RAM of 16 bytes and two ROMs.  The first window is longer than its chip and does not end within the
    address space, the second one overlaps with it, and the third one is for the first ROM again. -/
def shelf : Blueprint where
  ramLines := 4
  roms := [
    { name := "two", image := #[0xA0, 0xA1], base := 0, addressLines := 1 },
    { name := "four", image := #[0xB0, 0xB1, 0xB2], base := 0, addressLines := 2 }]
  openings := [⟨0xFFF0, 0x100, 0⟩, ⟨0xFFE0, 0x20, 1⟩, ⟨0x0100, 3, 0⟩]
  ramFits := by rfl
  romsFit := by simp [checkLines, maxAddressLines]

/-- Every chip is powered up and installed, beginning with the last one, and then installed again. -/
def twice (k : Kit) : List Chore :=
  k.chips.reverse.flatMap (fun d => [.powerUp d, .install d]) ++ k.chips.map .install

/-- With all this done every chip has been installed, in fact twice. -/
theorem complete_twice (k : Kit) : k.Complete k.twice where
  own chore hchore := by
    rcases List.mem_append.mp hchore with hchore | hchore
    · obtain ⟨d, hd, hchore⟩ := List.mem_flatMap.mp hchore
      have hd := List.mem_reverse.mp hd
      rcases List.mem_cons.mp hchore with rfl | hchore
      · exact hd
      · obtain rfl := List.mem_singleton.mp hchore
        exact hd
    · obtain ⟨d, hd, rfl⟩ := List.mem_map.mp hchore
      exact hd
  all d hd := List.mem_append_right _ (List.mem_map_of_mem hd)

/-- On this board a byte that is written at 0xFFF5 is seen at 0x0005, and not at 0xFFF5, where there is the
    first ROM; below it there is the second one, and the first window does not reach address 0. -/
theorem memory_map_shelf :
    let past := [.write 0xFFF5 0x77, .endCycle, .read 0x0100]
    let b := (((shelf.kit.board.setUp shelf.kit.twice).run {}).1.used past)
    shelf.kit.Complete shelf.kit.twice ∧ shelf.kit.Maps past b ∧
      (Circuit.readPins 0x0005 b.circuit).1 = 0x77 ∧ (Circuit.readPins 0xFFF5 b.circuit).1 = 0xA1 ∧
      (Circuit.readPins 0xFFE3 b.circuit).1 = 0 ∧ (Circuit.readPins 0xFFE6 b.circuit).1 = 0xB2 ∧
      (Circuit.readPins 0x0000 b.circuit).1 = 0 := by
  intro past b
  have hcomplete := complete_twice shelf.kit
  have hmaps : shelf.kit.Maps past b := memory_map shelf.kit hcomplete past {}
  refine ⟨hcomplete, hmaps, ?_, ?_, ?_, ?_, ?_⟩
  all_goals
    rw [hmaps.reads]
    rfl

end Kit

end Breadboard
