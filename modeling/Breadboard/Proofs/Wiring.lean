import Breadboard.Proofs.Dispatch
/-
  A decoder between the processor's socket and the chips.

  `Layout` says where the parts of such a circuit are: the socket, one RAM, and ROMs with the windows at
  which they answer.  `Wired` says that a fabric is built that way: the decoder listens on the clock, each
  chip on the wire that selects it, and nobody anywhere else that an access gets to.  `Mounted` says the
  same but for one thing, that each part may have been installed more than once and then listens as often.

  An access goes through five calls.  Read/write is driven, and nobody listens; the clock is driven high,
  and within that call the decoder drives the wire of one chip low, which makes the chip answer, and then
  all select wires high.  When parts have been installed more than once all this is done again, in some
  order, and nothing comes of it (`Access`).  `Mounted.readPins` and `Mounted.writePins` sum this up: a read
  answers what the layout answers at the address, a write changes one byte of the RAM, and otherwise the
  circuit is built as before (`SameBuild`), so that the next access finds everything in place.  The panel
  is not touched.
-/
namespace Breadboard

/-! ## Wires with nobody on them, and wires of chips -/

namespace Fabric

/-- What a RAM does when it is selected: it puts its byte on the data bus or takes one from there, as its
    read/write wire says. -/
def operate (f : Fabric) (chip : Ram) : Fabric :=
  let address := f.readAddress chip.address
  if (f.wire chip.rw).level.isHigh then
    f.writeBus chip.data ((f.store chip.store).read address).toNat
  else
    f.setStore chip.store ((f.store chip.store).write address (UInt8.ofNat (f.readBus chip.data)))

/-- What a ROM does when it is enabled: it puts the byte at the address on the data bus. -/
def answer (f : Fabric) (chip : Rom) : Fabric :=
  f.writeBus chip.data (chip.read (f.readAddress chip.address)).toNat

/-- All wires of a list are set to a level, which is what letting go of them comes to when nobody listens. -/
def setLevels (f : Fabric) (wires : List WireId) (level : Level) : Fabric :=
  wires.foldl (·.setLevel · level) f

/-- A RAM that is selected changes cells or a bus, and leaves the build as it was. -/
theorem sameBuild_operate (f : Fabric) (chip : Ram) : SameBuild f (f.operate chip) := by
  unfold operate
  split
  · exact sameBuild_writeBus ..
  · exact sameBuild_setStore ..

/-- Setting levels leaves the build as it was, wire after wire. -/
theorem sameBuild_setLevels : ∀ (wires : List WireId) (f : Fabric) (level : Level),
    SameBuild f (f.setLevels wires level)
  | [], f, _ => SameBuild.refl f
  | w :: wires, f, level =>
    (sameBuild_setLevel f w level).trans (sameBuild_setLevels wires (f.setLevel w level) level)

/-- Setting levels leaves what is on the buses, wire after wire. -/
theorem buses_setLevels : ∀ (wires : List WireId) (f : Fabric) (level : Level),
    (f.setLevels wires level).buses = f.buses
  | [], _, _ => rfl
  | w :: wires, f, level => buses_setLevels wires (f.setLevel w level) level

/-- A bus of sixteen lines carries an address whole, and so it is read back as it was put there. -/
theorem readAddress_writeBus {f : Fabric} {b : BusId} (h : (f.bus b).width = 16)
    (address : UInt16) : (f.writeBus b address.toNat).readAddress b = address := by
  rw [readAddress, readBus_writeBus, h, address_mod_span, UInt16.ofNat_toNat]

end Fabric

namespace Circuit

open Fabric

variable {wire : WireId} {level : Level} {c : Circuit}

/-- Driving a wire on which nobody listens at that level only sets the level, at whatever depth this
    happens. -/
theorem drive?_silent (n : Nat) (h : (c.memory.wire wire).listeners level = []) :
    drive? (n + 1) wire level c =
      some ((c.memory.wire wire).level, c.onFabric (·.setLevel wire level)) := by
  simp only [drive?, h, List.foldlM_nil]
  rfl

/-- The same for a wire that is driven from outside, with all the depth there is. -/
theorem driven_silent (h : (c.memory.wire wire).listeners level = []) :
    driven wire level c = c.onFabric (·.setLevel wire level) := by
  rw [driven, drive_eq (by decide) (drive?_silent 0 h)]

/-! ## What becomes of a circuit -/

/-- A computation ends, with a circuit whose fabric is like this and whose panel is the one of `c`. -/
def Leaves (c : Circuit) (P : Fabric → Prop) (x : Option Circuit) : Prop :=
  ∃ c', x = some c' ∧ c'.panel = c.panel ∧ P c'.memory

variable {P Q : Fabric → Prop}

/-- Computations that leave a circuit with the panel as it was can be chained, and the chain does so too. -/
theorem Leaves.bind {x : Option Circuit} {next : Circuit → Option Circuit} (h : c.Leaves P x)
    (hnext : ∀ c', P c'.memory → Leaves c' Q (next c')) : c.Leaves Q (x.bind next) := by
  obtain ⟨c', rfl, hpanel, hP⟩ := h
  obtain ⟨c'', hnext, hpanel', hQ⟩ := hnext c' hP
  exact ⟨c'', hnext, hpanel'.trans hpanel, hQ⟩

/-- What every step of a fold preserves, given any circuit that has it, is so at the end of the fold.  The
    panel is left alone if no step touches it. -/
theorem leaves_foldlM {α : Type} {step : Circuit → α → Option Circuit} :
    ∀ (l : List α), (∀ a ∈ l, ∀ c : Circuit, P c.memory → c.Leaves P (step c a)) →
      ∀ c : Circuit, P c.memory → c.Leaves P (l.foldlM step c)
  | [], _, c, hc => ⟨c, rfl, rfl, hc⟩
  | a :: l, h, c, hc => by
    rw [List.foldlM_cons]
    exact (h a List.mem_cons_self c hc).bind fun c' hc' =>
      leaves_foldlM l (fun a' ha' => h a' (List.mem_cons_of_mem a ha')) c' hc'

/-- To drive a wire is to set its level and to call those who listen, so that it leaves what these calls
    leave. -/
theorem leaves_drive? (n : Nat)
    (h : Leaves (c.onFabric (·.setLevel wire level)) P
      (((c.memory.wire wire).listeners level).foldlM (fun c l => l.respond (drive? n) c)
        (c.onFabric (·.setLevel wire level)))) :
    c.Leaves P ((drive? (n + 1) wire level c).map (·.2)) := by
  obtain ⟨c', hcalls, hpanel, hP⟩ := h
  refine ⟨c', ?_, hpanel, hP⟩
  simp only [drive?]
  rw [hcalls]
  rfl

/-- What is known of a drive at some depth within the limit is known of the total function, which has no
    depth. -/
theorem driven_of_leaves {n : Nat} (hn : n ≤ maxDepth)
    (h : c.Leaves P ((drive? n wire level c).map (·.2))) :
    (driven wire level c).panel = c.panel ∧ P (driven wire level c).memory := by
  obtain ⟨c', hmap, hpanel, hP⟩ := h
  obtain ⟨⟨level', after⟩, hdrive, rfl⟩ := Option.map_eq_some_iff.mp hmap
  rw [driven, drive_eq hn hdrive]
  exact ⟨hpanel, hP⟩

end Circuit

/-! ## Wires that latch requests -/

/-- On every interrupt wire there is the latch of its request, and nothing else. -/
structure Fabric.Latches (wire : Request → WireId) (f : Fabric) : Prop where
  onLow : ∀ kind, (f.wire (wire kind)).onLow = [.request kind]
  onHigh : ∀ kind, (f.wire (wire kind)).onHigh = []

namespace Fabric.Latches

variable {wire : Request → WireId} {f g : Fabric}

/-- The latches are part of the build, and stay in place as long as it does. -/
theorem of_sameBuild (h : f.Latches wire) (hfg : f.SameBuild g) : g.Latches wire where
  onLow kind := (hfg.onLow _).trans (h.onLow kind)
  onHigh kind := (hfg.onHigh _).trans (h.onHigh kind)

/-- A wire that is driven low makes its request, at whatever level it was before; the level that it was at
    is answered. -/
theorem drive_low {c : Circuit} (h : c.memory.Latches wire) (kind : Request) :
    Circuit.drive (wire kind) .low c =
      ((c.memory.wire (wire kind)).level,
        (c.onFabric (·.setLevel (wire kind) .low)).onPanel (·.raise kind)) := by
  refine Circuit.drive_eq (n := 1) (by decide) ?_
  simp only [Circuit.drive?, Wire.listeners, h.onLow, List.foldlM_cons, List.foldlM_nil]
  rfl

/-- A wire that is driven high makes no request, and answers the level that it was at. -/
theorem drive_high {c : Circuit} (h : c.memory.Latches wire) (kind : Request) :
    Circuit.drive (wire kind) .high c =
      ((c.memory.wire (wire kind)).level, c.onFabric (·.setLevel (wire kind) .high)) :=
  Circuit.drive_eq (by decide) (Circuit.drive?_silent 0 (h.onHigh kind))

end Fabric.Latches

/-! ## The circuit of a decoder, a RAM and ROMs -/

/-- A window is a range of plain numbers: the wrap-around of the subtraction by which an address is compared
    does not show. -/
theorem Window.contains_iff (w : Window) (address : UInt16) : w.contains address = true ↔
    w.base.toNat ≤ address.toNat ∧ address.toNat < w.base.toNat + w.length := by
  simp only [contains, Bool.and_eq_true, decide_eq_true_eq]
  constructor
  · rintro ⟨hbase, hlt⟩
    -- above the base nothing wraps, so the difference is one of numbers
    rw [UInt16.toNat_sub_of_le _ _ hbase] at hlt
    rw [UInt16.le_iff_toNat_le] at hbase
    exact ⟨hbase, by omega⟩
  · rintro ⟨hbase, hlt⟩
    have hle := UInt16.le_iff_toNat_le.mpr hbase
    rw [UInt16.toNat_sub_of_le _ _ hle]
    exact ⟨hle, by omega⟩

/-- Where the parts of a circuit are: the processor's socket, one RAM, and any number of ROMs. -/
structure Layout where
  socket : Socket
  ram : Ram
  /-- The ROMs and the windows at which they answer; earlier windows win. -/
  roms : List (Window × Rom)

namespace Layout

/-- The decoder of a layout, which listens on the clock of the socket and has a window for each ROM. -/
def decoder (l : Layout) : Decoder where
  address := l.socket.address
  rw := l.socket.rw
  clock := l.socket.clock
  ramSelect := l.ram.select
  windows := l.roms.map (·.1)

/-- What a read answers: the byte of the first ROM whose window contains the address, or else the byte
    of the RAM. -/
def byteAt (l : Layout) (f : Fabric) (address : UInt16) : UInt8 :=
  match l.roms.find? (·.1.contains address) with
  | some (_, rom) => rom.read address
  | none => (f.store l.ram.store).read address

/-- The wires that the decoder drives are the RAM's select wire and the enable wires of the windows. -/
theorem mem_outputs {l : Layout} {w : WireId} : w ∈ l.decoder.outputs ↔
    w = l.ram.select ∨ ∃ e ∈ l.roms, w = e.1.enable := by
  simp only [Decoder.outputs, decoder, List.mem_cons, List.map_map, List.mem_map, Function.comp]
  exact or_congr_right (exists_congr fun e => and_congr_right fun _ => eq_comm)

/-- A fabric is built as the layout says, with every part installed once: what listens on each wire that an
    access gets to, the widths of the two buses, and the pins of the chips. -/
structure Wired (l : Layout) (f : Fabric) : Prop where
  socket : f.socket = l.socket
  apart : l.socket.data ≠ l.socket.address
  addressWidth : (f.bus l.socket.address).width = 16
  dataWidth : (f.bus l.socket.data).width = 8
  rwSilent : ∀ level, (f.wire l.socket.rw).listeners level = []
  clockLow : (f.wire l.socket.clock).onLow = []
  clockHigh : (f.wire l.socket.clock).onHigh = [.select l.decoder, .release l.decoder]
  ramLow : (f.wire l.ram.select).onLow = [.ram l.ram]
  ramHigh : (f.wire l.ram.select).onHigh = []
  ramPins : l.ram.address = l.socket.address ∧ l.ram.data = l.socket.data ∧ l.ram.rw = l.socket.rw
  romLow : ∀ e ∈ l.roms, (f.wire e.1.enable).onLow = [.rom e.2]
  romHigh : ∀ e ∈ l.roms, (f.wire e.1.enable).onHigh = []
  romPins : ∀ e ∈ l.roms, e.2.address = l.socket.address ∧ e.2.data = l.socket.data

variable {l : Layout} {f g : Fabric} {c : Circuit}

/-- Being wired is a matter of the build alone, and so it outlasts whatever leaves the build as it was. -/
theorem Wired.of_sameBuild (h : l.Wired f) (hfg : f.SameBuild g) : l.Wired g where
  socket := hfg.socket.trans h.socket
  apart := h.apart
  addressWidth := (hfg.width _).trans h.addressWidth
  dataWidth := (hfg.width _).trans h.dataWidth
  rwSilent level := (hfg.listeners _ level).trans (h.rwSilent level)
  clockLow := (hfg.onLow _).trans h.clockLow
  clockHigh := (hfg.onHigh _).trans h.clockHigh
  ramLow := (hfg.onLow _).trans h.ramLow
  ramHigh := (hfg.onHigh _).trans h.ramHigh
  ramPins := h.ramPins
  romLow e he := (hfg.onLow _).trans (h.romLow e he)
  romHigh e he := (hfg.onHigh _).trans (h.romHigh e he)
  romPins := h.romPins

/-! ## Parts that are installed, once or more often -/

/-- The listeners that a part has put on a wire, by being installed once or more often.  They are copies of
    the same list, one after the other. -/
def Repeats (part ls : List Listener) : Prop :=
  ∃ n, ls = (List.replicate (n + 1) part).flatten

/-- A part that is installed once is on its wire once. -/
theorem repeats_once (part : List Listener) : Repeats part part := ⟨0, by simp⟩

/-- The first of them is called first, and after it none but those of the part. -/
theorem Repeats.head {x : Listener} {part ls : List Listener} (h : Repeats (x :: part) ls) :
    ∃ rest, ls = x :: rest ∧ ∀ y ∈ rest, y ∈ x :: part := by
  obtain ⟨n, rfl⟩ := h
  refine ⟨part ++ (List.replicate n (x :: part)).flatten, ?_, ?_⟩
  · rw [List.replicate_succ, List.flatten_cons, List.cons_append]
  · intro y hy
    rcases List.mem_append.mp hy with hy | hy
    · exact List.mem_cons_of_mem x hy
    · obtain ⟨l, hl, hyl⟩ := List.mem_flatten.mp hy
      rwa [(List.mem_replicate.mp hl).2] at hyl

/-- A fabric is built as the layout says, but its parts may have been installed more than once. -/
structure Mounted (l : Layout) (f : Fabric) : Prop where
  socket : f.socket = l.socket
  apart : l.socket.data ≠ l.socket.address
  addressWidth : (f.bus l.socket.address).width = 16
  dataWidth : (f.bus l.socket.data).width = 8
  rwSilent : ∀ level, (f.wire l.socket.rw).listeners level = []
  clockLow : (f.wire l.socket.clock).onLow = []
  clockHigh : Repeats [.select l.decoder, .release l.decoder] (f.wire l.socket.clock).onHigh
  ramLow : Repeats [.ram l.ram] (f.wire l.ram.select).onLow
  ramHigh : (f.wire l.ram.select).onHigh = []
  ramPins : l.ram.address = l.socket.address ∧ l.ram.data = l.socket.data ∧ l.ram.rw = l.socket.rw
  romLow : ∀ e ∈ l.roms, Repeats [.rom e.2] (f.wire e.1.enable).onLow
  romHigh : ∀ e ∈ l.roms, (f.wire e.1.enable).onHigh = []
  romPins : ∀ e ∈ l.roms, e.2.address = l.socket.address ∧ e.2.data = l.socket.data

/-- A fabric that is wired is mounted, each part having been installed once. -/
theorem Wired.mounted (h : l.Wired f) : l.Mounted f where
  socket := h.socket
  apart := h.apart
  addressWidth := h.addressWidth
  dataWidth := h.dataWidth
  rwSilent := h.rwSilent
  clockLow := h.clockLow
  clockHigh := by
    rw [h.clockHigh]
    exact repeats_once _
  ramLow := by
    rw [h.ramLow]
    exact repeats_once _
  ramHigh := h.ramHigh
  ramPins := h.ramPins
  romLow e he := by
    rw [h.romLow e he]
    exact repeats_once _
  romHigh := h.romHigh
  romPins := h.romPins

/-- Being mounted is a matter of the build alone too. -/
theorem Mounted.of_sameBuild (h : l.Mounted f) (hfg : f.SameBuild g) : l.Mounted g where
  socket := hfg.socket.trans h.socket
  apart := h.apart
  addressWidth := (hfg.width _).trans h.addressWidth
  dataWidth := (hfg.width _).trans h.dataWidth
  rwSilent level := (hfg.listeners _ level).trans (h.rwSilent level)
  clockLow := (hfg.onLow _).trans h.clockLow
  clockHigh := by
    rw [hfg.onHigh]
    exact h.clockHigh
  ramLow := by
    rw [hfg.onLow]
    exact h.ramLow
  ramHigh := (hfg.onHigh _).trans h.ramHigh
  ramPins := h.ramPins
  romLow e he := by
    rw [hfg.onLow]
    exact h.romLow e he
  romHigh e he := (hfg.onHigh _).trans (h.romHigh e he)
  romPins := h.romPins

namespace Mounted

/-- Nobody listens when a wire of the decoder goes high, so that letting go of the chips disturbs nobody. -/
theorem outputs_silent (h : l.Mounted f) : ∀ w ∈ l.decoder.outputs, (f.wire w).onHigh = [] := by
  intro w hw
  rcases mem_outputs.mp hw with rfl | ⟨e, he, rfl⟩
  · exact h.ramHigh
  · exact h.romHigh e he

/-- Nobody listens on read/write, but on the decoder's wires there are the chips. -/
theorem output_ne_rw (h : l.Mounted f) : ∀ w ∈ l.decoder.outputs, w ≠ l.socket.rw := by
  intro w hw hrw
  have hsilent := h.rwSilent .low
  rw [← hrw, Wire.listeners] at hsilent
  rcases mem_outputs.mp hw with rfl | ⟨e, he, rfl⟩
  · obtain ⟨rest, hlow, -⟩ := Repeats.head h.ramLow
    rw [hlow] at hsilent
    cases hsilent
  · obtain ⟨rest, hlow, -⟩ := Repeats.head (h.romLow e he)
    rw [hlow] at hsilent
    cases hsilent

/-- The clock and read/write are different wires: on the one there is the decoder, and on the other there is
    nobody. -/
theorem clock_ne_rw (h : l.Mounted f) : l.socket.clock ≠ l.socket.rw := by
  intro hclock
  have hsilent := h.rwSilent .high
  obtain ⟨rest, hhigh, -⟩ := Repeats.head h.clockHigh
  rw [← hclock, Wire.listeners, hhigh] at hsilent
  cases hsilent

end Mounted

/-- The same for a fabric that is wired, the way round in which it is used. -/
theorem Wired.rw_ne_clock (h : l.Wired f) : l.socket.rw ≠ l.socket.clock :=
  h.mounted.clock_ne_rw.symm

theorem Wired.outputs_silent (h : l.Wired f) : ∀ w ∈ l.decoder.outputs, (f.wire w).onHigh = [] :=
  h.mounted.outputs_silent

/-! ## Accesses -/

open Fabric Circuit

/-- For a read the decoder selects the wire of the first window that contains the address, or else the
    RAM's. -/
theorem selected_eq (l : Layout) (address : UInt16) :
    l.decoder.selected address true =
      ((l.roms.find? (·.1.contains address)).map (·.1.enable)).getD l.ram.select := by
  simp only [Decoder.selected, decoder, List.find?_map, Function.comp_def]
  cases l.roms.find? (·.1.contains address) <;> rfl

/-- The listener of the chip that an access is for: for a read the first ROM whose window contains the
    address, and otherwise the RAM. -/
def chipFor (l : Layout) (reading : Bool) (address : UInt16) : Listener :=
  match reading, l.roms.find? (·.1.contains address) with
  | true, some e => .rom e.2
  | _, _ => .ram l.ram

/-- What this chip does to the fabric when its wire goes low. -/
def work (l : Layout) (reading : Bool) (address : UInt16) (f : Fabric) : Fabric :=
  match reading, l.roms.find? (·.1.contains address) with
  | true, some e => f.answer e.2
  | _, _ => f.operate l.ram

/-- The call of this listener does the chip's work and drives nothing further. -/
theorem respond_chipFor (l : Layout) (reading : Bool) (address : UInt16) (drive : Driver)
    (c : Circuit) :
    (l.chipFor reading address).respond drive c = some (c.onFabric (l.work reading address)) := by
  unfold chipFor work
  cases reading with
  | false => rfl
  | true => cases l.roms.find? (·.1.contains address) <;> rfl

/-- The decoder selects the wire that this chip is on. -/
theorem Mounted.selected (h : l.Mounted f) (reading : Bool) (address : UInt16) :
    l.decoder.selected address reading ∈ l.decoder.outputs ∧
      Repeats [l.chipFor reading address]
        (f.wire (l.decoder.selected address reading)).onLow := by
  unfold chipFor
  cases reading with
  | false => exact ⟨List.mem_cons_self, h.ramLow⟩
  | true =>
    rw [selected_eq]
    cases hfind : l.roms.find? (·.1.contains address) with
    | none => exact ⟨List.mem_cons_self, h.ramLow⟩
    | some e =>
      have he := List.mem_of_find?_eq_some hfind
      exact ⟨mem_outputs.mpr (.inr ⟨e, he, rfl⟩), h.romLow e he⟩

/-- An access, told by two properties of a fabric.  `Asked` says that the access is before the chips, and
    `Served` that its chip has done what it is to do.  Neither depends on the levels of wires other than
    read/write.  An access that has been served is still before the chips, and if it is served again
    nothing comes of it: this is why it does not matter how often the parts have been installed. -/
structure Access (l : Layout) (reading : Bool) (address : UInt16) (Asked Served : Fabric → Prop) :
    Prop where
  again : ∀ {f}, Served f → Asked f
  mounted : ∀ {f}, Asked f → l.Mounted f
  presents : ∀ {f}, Asked f → f.readAddress l.socket.address = address
  direction : ∀ {f}, Asked f → (f.wire l.socket.rw).level.isHigh = reading
  setAsked : ∀ {f w} level, w ≠ l.socket.rw → Asked f → Asked (f.setLevel w level)
  setServed : ∀ {f w} level, w ≠ l.socket.rw → Served f → Served (f.setLevel w level)
  works : ∀ {f}, Asked f → Served (l.work reading address f)

namespace Access

variable {reading : Bool} {address : UInt16} {Asked Served : Fabric → Prop}

/-- When the wire of the chip goes low, the chip does its work, as often as it has been installed.  The
    first call serves the access, and the others serve it again. -/
theorem call (h : l.Access reading address Asked Served) (n : Nat) (hc : Asked c.memory) :
    c.Leaves Served ((drive? (n + 1) (l.decoder.selected address reading) .low c).map (·.2)) := by
  obtain ⟨houtput, hlow⟩ := (h.mounted hc).selected reading address
  obtain ⟨rest, hlisteners, hrest⟩ := Repeats.head hlow
  have hchip : ∀ c' : Circuit, Asked c'.memory →
      c'.Leaves Served ((l.chipFor reading address).respond (drive? n) c') := fun c' hc' =>
    ⟨_, respond_chipFor l reading address (drive? n) c', rfl, h.works hc'⟩
  refine leaves_drive? n ?_
  rw [Wire.listeners, hlisteners, List.foldlM_cons]
  -- the first listener turns what is asked into what is served, and the rest keep it so
  have hfirst := hchip (c.onFabric (·.setLevel (l.decoder.selected address reading) .low))
    (h.setAsked .low ((h.mounted hc).output_ne_rw _ houtput) hc)
  refine hfirst.bind fun c' hc' => leaves_foldlM rest (fun x hx c'' hc'' => ?_) c' hc'
  rw [List.mem_singleton.mp (hrest x hx)]
  exact hchip c'' (h.again hc'')

/-- The decoder's listener for the clock drives the wire of the chip that the access is for, and so the
    access is served. -/
theorem select (h : l.Access reading address Asked Served) (n : Nat) (hc : Asked c.memory) :
    c.Leaves Served ((Listener.select l.decoder).respond (drive? (n + 1)) c) := by
  have hcall := h.call n hc
  rw [← h.presents hc, ← h.direction hc, Option.map_eq_bind] at hcall
  exact hcall

/-- The wires that the decoder lets go are none that the access depends on. -/
theorem release (h : l.Access reading address Asked Served) (n : Nat) (hc : Served c.memory) :
    c.Leaves Served ((Listener.release l.decoder).respond (drive? (n + 1)) c) := by
  have hwire : ∀ w ∈ l.decoder.outputs, ∀ c' : Circuit, Served c'.memory →
      c'.Leaves Served ((drive? (n + 1) w .high c').map (·.2)) := by
    -- one wire after the other goes high, and each of them is heard by nobody
    intro w hw c' hc'
    have hmounted := h.mounted (h.again hc')
    have hdrive : drive? (n + 1) w .high c' = _ := drive?_silent n (hmounted.outputs_silent w hw)
    rw [hdrive]
    exact ⟨_, rfl, rfl, h.setServed .high (hmounted.output_ne_rw w hw) hc'⟩
  exact leaves_foldlM l.decoder.outputs hwire c hc

/-- The clock goes high, and the access is served: the decoder is called first, and what the other listeners
    on the clock do is to serve it again or to let go of the chips. -/
theorem clock (h : l.Access reading address Asked Served) (hc : Asked c.memory) :
    (driven l.socket.clock .high c).panel = c.panel ∧
      Served (driven l.socket.clock .high c).memory := by
  have hmounted := h.mounted hc
  obtain ⟨rest, hlisteners, hrest⟩ := Repeats.head hmounted.clockHigh
  refine driven_of_leaves (n := 2) (by decide) (leaves_drive? 1 ?_)
  rw [Wire.listeners, hlisteners, List.foldlM_cons]
  have hfirst := h.select 0 (c := c.onFabric (·.setLevel l.socket.clock .high))
    (h.setAsked .high hmounted.clock_ne_rw hc)
  refine hfirst.bind fun c' hc' => leaves_foldlM rest (fun x hx c'' hc'' => ?_) c' hc'
  -- a further listener is the decoder selecting once more, or letting go once more
  rcases List.mem_cons.mp (hrest x hx) with rfl | hx
  · exact h.select 0 (h.again hc'')
  · obtain rfl := List.mem_singleton.mp hx
    exact h.release 0 hc''

end Access

/-! ## Reading and writing -/

/-- An access has been prepared: the address is on its bus and read/write has its level, in a circuit that
    is built as `f` is. -/
structure Prepared (l : Layout) (f : Fabric) (address : UInt16) (level : Level) (g : Fabric) :
    Prop where
  build : SameBuild f g
  address : g.readAddress l.socket.address = address
  level : (g.wire l.socket.rw).level = level

namespace Prepared

variable {address : UInt16} {level : Level}

/-- Setting the level of any other wire leaves an access prepared. -/
theorem setLevel (h : l.Prepared f address level g) {w : WireId} (hw : w ≠ l.socket.rw)
    (level' : Level) : l.Prepared f address level (g.setLevel w level') where
  build := h.build.trans (sameBuild_setLevel ..)
  address := h.address
  level := by
    rw [wire_setLevel, if_neg hw.symm]
    exact h.level

/-- What is put on the data bus is not in the way of an access that has been prepared, since the address is
    on another bus. -/
theorem writeBus (h : l.Prepared f address level g) (hf : l.Mounted f) (v : Nat) :
    l.Prepared f address level (g.writeBus l.socket.data v) where
  build := h.build.trans (sameBuild_writeBus ..)
  address := by
    rw [readAddress, readBus_writeBus_of_ne hf.apart.symm]
    exact h.address
  level := h.level

theorem setStore (h : l.Prepared f address level g) (s : StoreId) (store : Store) :
    l.Prepared f address level (g.setStore s store) where
  build := h.build.trans (sameBuild_setStore ..)
  address := h.address
  level := h.level

end Prepared

/-- The processor puts an address on its bus and drives read/write, on which nobody listens. -/
theorem Mounted.prepared (h : l.Mounted f) (address : UInt16) (level : Level) :
    l.Prepared f address level
      ((f.writeBus l.socket.address address.toNat).setLevel l.socket.rw level) where
  build := (sameBuild_writeBus ..).trans (sameBuild_setLevel ..)
  address := readAddress_writeBus h.addressWidth address
  level := by rw [wire_setLevel, if_pos rfl]

/-- What the layout answers depends on the cells only. -/
theorem byteAt_of_stores (h : g.stores = f.stores) (address : UInt16) :
    l.byteAt g address = l.byteAt f address := by
  rw [byteAt, byteAt, Fabric.store, Fabric.store, h]

/-- For a read the chip puts its byte on the data bus. -/
theorem Prepared.work_read {address : UInt16} (h : l.Prepared f address .high g)
    (hf : l.Mounted f) :
    l.work true address g = g.writeBus l.socket.data (l.byteAt g address).toNat := by
  unfold work byteAt
  cases hfind : l.roms.find? (·.1.contains address) with
  | some e =>
    have hpins := hf.romPins e (List.mem_of_find?_eq_some hfind)
    simp only [answer, hpins, h.address]
  | none => simp only [operate, hf.ramPins, h.level, h.address, Level.isHigh, if_true]

/-- For a write the RAM takes the byte from the data bus. -/
theorem Prepared.work_write {address : UInt16} (h : l.Prepared f address .low g)
    (hf : l.Mounted f) :
    l.work false address g = g.setStore l.ram.store
      ((g.store l.ram.store).write address (UInt8.ofNat (g.readBus l.socket.data))) := by
  simp only [work, operate, hf.ramPins, h.level, h.address, Level.isHigh, Bool.false_eq_true,
    if_false]

/-- A byte on the data bus is what is taken from it. -/
theorem Mounted.readBus_write (h : l.Mounted f) (v : UInt8) :
    UInt8.ofNat ((f.writeBus l.socket.data v.toNat).readBus l.socket.data) = v := by
  rw [readBus_writeBus, h.dataWidth, byte_mod_span, UInt8.ofNat_toNat]

/-- A read is an access in the sense above: it is asked when it has been prepared with the cells untouched,
    and served when the byte is on the data bus besides. -/
theorem Mounted.access_read (h : l.Mounted f) (address : UInt16) :
    l.Access true address (fun g => l.Prepared f address .high g ∧ g.stores = f.stores)
      (fun g => (l.Prepared f address .high g ∧ g.stores = f.stores) ∧
        UInt8.ofNat (g.readBus l.socket.data) = l.byteAt f address) where
  again hg := hg.1
  mounted hg := h.of_sameBuild hg.1.build
  presents hg := hg.1.address
  direction hg := by
    rw [hg.1.level]
    rfl
  setAsked level hw hg := ⟨hg.1.setLevel hw level, hg.2⟩
  setServed level hw hg := ⟨⟨hg.1.1.setLevel hw level, hg.1.2⟩, hg.2⟩
  works {g} hg := by
    -- the byte that the chip puts on the bus is the one of the start, since no cell has changed
    obtain ⟨hprepared, hstores⟩ := hg
    rw [hprepared.work_read h]
    refine ⟨⟨hprepared.writeBus h _, hstores⟩, ?_⟩
    rw [(h.of_sameBuild hprepared.build).readBus_write, byteAt_of_stores hstores]

/-- A write is an access in the same sense.  It is asked when writing the byte would give the cells wanted,
    whether or not they hold it already, which is how a second write of it does no harm. -/
theorem Mounted.access_write (h : l.Mounted f) (address : UInt16) (v : UInt8) :
    let written := f.setStore l.ram.store ((f.store l.ram.store).write address v)
    l.Access false address
      (fun g => l.Prepared f address .low g ∧ UInt8.ofNat (g.readBus l.socket.data) = v ∧
        (g.setStore l.ram.store ((g.store l.ram.store).write address v)).stores = written.stores)
      (fun g => (l.Prepared f address .low g ∧ UInt8.ofNat (g.readBus l.socket.data) = v) ∧
        g.stores = written.stores) where
  again {g} hg := by
    obtain ⟨⟨hprepared, hdata⟩, hstores⟩ := hg
    refine ⟨hprepared, hdata, ?_⟩
    have hstore : g.store l.ram.store = (f.store l.ram.store).write address v := by
      rw [Fabric.store, hstores]
      exact (store_setStore ..).trans (if_pos rfl)
    -- the byte is written a second time at the same address, to the same cells
    rw [hstore, Store.write, Store.write, Bank.write_write]
    show (g.stores.set _ _) = _
    rw [hstores]
    exact Rack.set_set ..
  mounted hg := h.of_sameBuild hg.1.build
  presents hg := hg.1.address
  direction hg := by
    rw [hg.1.level]
    rfl
  setAsked level hw hg := ⟨hg.1.setLevel hw level, hg.2⟩
  setServed level hw hg := ⟨⟨hg.1.1.setLevel hw level, hg.1.2⟩, hg.2⟩
  works {g} hg := by
    obtain ⟨hprepared, hdata, hstores⟩ := hg
    rw [hprepared.work_write h, hdata]
    exact ⟨⟨hprepared.setStore _ _, hdata⟩, hstores⟩

/-- A circuit with a certain panel is known by its fabric. -/
theorem eq_of_panel {c c' : Circuit} (h : c'.panel = c.panel) :
    c' = { c with memory := c'.memory } := by
  rw [← h]

/-- A read of a mounted circuit answers what the layout answers there; the chips keep what they hold, and
    the build and the panel stay as they were. -/
theorem Mounted.readPins (h : l.Mounted c.memory) (address : UInt16) :
    ∃ f, Circuit.readPins address c = (l.byteAt c.memory address, { c with memory := f }) ∧
      SameBuild c.memory f ∧ f.stores = c.memory.stores := by
  let start := c.onFabric (·.writeBus l.socket.address address.toNat)
  have hstart : l.Mounted start.memory := h.of_sameBuild (sameBuild_writeBus ..)
  have hrw : driven l.socket.rw .high start = start.onFabric (·.setLevel l.socket.rw .high) :=
    driven_silent (hstart.rwSilent .high)
  obtain ⟨hpanel, ⟨hprepared, hstores⟩, hdata⟩ := (h.access_read address).clock
    (c := start.onFabric (·.setLevel l.socket.rw .high)) ⟨h.prepared address .high, rfl⟩
  refine ⟨_, Prod.ext ?_ ?_, hprepared.build, hstores⟩
  · simp only [Circuit.readPins, h.socket]
    show UInt8.ofNat ((driven _ _ (driven _ _ start)).memory.readBus _) = _
    rw [hrw, hdata]
  · simp only [Circuit.readPins, h.socket]
    show driven _ _ (driven _ _ start) = _
    rw [hrw]
    exact eq_of_panel hpanel

/-- A write changes one byte of the RAM, under a ROM's window too, and no other chip.  The build and the
    panel stay as they were. -/
theorem Mounted.writePins (h : l.Mounted c.memory) (address : UInt16) (v : UInt8) :
    ∃ f, Circuit.writePins address v c = { c with memory := f } ∧ SameBuild c.memory f ∧
      f.stores = (c.memory.setStore l.ram.store
        ((c.memory.store l.ram.store).write address v)).stores := by
  let addressed := c.memory.writeBus l.socket.address address.toNat
  let start := c.onFabric fun _ => addressed.writeBus l.socket.data v.toNat
  have haddressed : l.Mounted addressed := h.of_sameBuild (sameBuild_writeBus ..)
  have hstart : l.Mounted start.memory := haddressed.of_sameBuild (sameBuild_writeBus ..)
  have hrw : driven l.socket.rw .low start = start.onFabric (·.setLevel l.socket.rw .low) :=
    driven_silent (hstart.rwSilent .low)
  have hprepared := (h.prepared address .low).writeBus h v.toNat
  obtain ⟨hpanel, ⟨hserved, -⟩, hstores⟩ := (h.access_write address v).clock
    (c := start.onFabric (·.setLevel l.socket.rw .low))
    ⟨hprepared, haddressed.readBus_write v, rfl⟩
  refine ⟨_, ?_, hserved.build, hstores⟩
  simp only [Circuit.writePins, h.socket]
  show driven _ _ (driven _ _ start) = _
  rw [hrw]
  exact eq_of_panel hpanel

/-- The end of a cycle drives the clock low, and nobody listens. -/
theorem Mounted.endPins (h : l.Mounted c.memory) :
    Circuit.endPins c = c.onFabric (·.setLevel l.socket.clock .low) := by
  rw [Circuit.endPins, h.socket]
  exact driven_silent h.clockLow

end Layout

end Breadboard
