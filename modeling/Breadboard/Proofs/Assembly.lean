import Breadboard.Machine.Run
import Breadboard.Proofs.Unreported
import Breadboard.Proofs.Wiring
/-
  What `build` builds.

  Building looks up names, makes chips and drives wires; what comes of that can be said beforehand, from
  the list of ROMs alone.  `refusal?` is what is wrong with a ROM.  If something is wrong with one of
  them, the first such ROM is the error; otherwise there is a machine, and its circuit is wired as
  `Machine.layout` says: the wires of the processor and of the RAM have the numbers 0 to 5, and the ROMs
  are on the wires from 6 on.  Names do not matter to this.  Two ROMs may even have the same name; each
  has its own wire.
-/
namespace Breadboard

/-! ## Building, step by step -/

/-- What comes of a computation that builds, whatever the journal holds: a result or an error, the same
    under every journal. -/
def Building.Yields {α : Type} (x : Building α) (r : Except MachineError α) : Prop :=
  ∀ j, (x.run.run j).1 = r

namespace Building

variable {α β : Type}

theorem yields_pure (a : α) : Yields (pure a) (.ok a) := fun _ => rfl

theorem yields_throw (e : MachineError) : Yields (throw e : Building α) (.error e) := fun _ => rfl

/-- A computation that cannot fail, but may write messages, yields what it comes to under any journal. -/
theorem yields_lift {x : Logged α} {a : α} (h : ∀ j, (x.run j).1 = a) :
    Yields (liftM x : Building α) (.ok a) := by
  intro j
  show (Except.ok (x.run j).1 : Except MachineError α) = .ok a
  rw [h j]

/-- After a computation that yields a result, what follows is what counts. -/
theorem Yields.bind_ok {x : Building α} {f : α → Building β} {a : α} {r : Except MachineError β}
    (h : Yields x (.ok a)) (hnext : Yields (f a) r) : Yields (x >>= f) r := by
  intro j
  rw [ExceptT.run_bind, fst_bind (h j)]
  exact hnext _

/-- After one that yields an error nothing follows, and the error is all there is. -/
theorem Yields.bind_error {x : Building α} {f : α → Building β} {e : MachineError}
    (h : Yields x (.error e)) : Yields (x >>= f) (.error e) := by
  intro j
  rw [ExceptT.run_bind, fst_bind (h j)]
  rfl

/-- If each element of a list either is refused or brings a result, the first refusal ends it all, and
    without a refusal all results are there in their order. -/
theorem yields_mapM {f : α → Building β} {refused? : α → Option MachineError} {g : α → β}
    (h : ∀ a, Yields (f a) ((refused? a).elim (.ok (g a)) .error)) :
    ∀ l : List α, Yields (l.mapM f) ((l.findSome? refused?).elim (.ok (l.map g)) .error)
  | [] => yields_pure []
  | a :: l => by
    have ha := h a
    have hrest := yields_mapM h l
    rw [List.mapM_cons, List.findSome?_cons]
    -- the first element is refused, or some later one is, or none
    cases hrefused : refused? a with
    | some e =>
      rw [hrefused] at ha
      exact ha.bind_error
    | none =>
      rw [hrefused] at ha
      refine ha.bind_ok ?_
      cases hlater : l.findSome? refused? with
      | some e =>
        rw [hlater] at hrest
        exact hrest.bind_error
      | none =>
        rw [hlater] at hrest
        exact hrest.bind_ok (yields_pure _)

end Building

/-! ## ROMs -/

namespace RomSlot

/-- The chip that a ROM comes on: as many cells as its address lines reach, filled from the image, and pins
    on the two buses of the processor. -/
def chip (slot : RomSlot) (enable : WireId) : Rom where
  name := slot.name
  lines := slot.addressLines
  cells := .ofBytes slot.addressLines slot.image
  address := ({} : Socket).address
  data := ({} : Socket).data
  enable := enable

/-- Where the chip answers: from the base of the ROM on, as far as its cells go. -/
def window (slot : RomSlot) (enable : WireId) : Window where
  base := slot.base
  length := span slot.addressLines
  enable := enable

/-- What is wrong with a ROM, if something is.  The size of the chip is looked at first, and then whether it
    reaches beyond the address space. -/
def refusal? (slot : RomSlot) : Option MachineError :=
  if slot.addressLines = 0 ∨ maxAddressLines < slot.addressLines then
    some (.chip (.addressLines slot.addressLines))
  else if 0x10000 < slot.base.toNat + span slot.addressLines then
    some (.romOutOfRange slot.name slot.base (span slot.addressLines))
  else none

end RomSlot

namespace Image

/-- Bytes that have the right number are kept as they are. -/
theorem resize_exact (bytes : Array UInt8) : resize bytes bytes.size = bytes := by
  rw [resize, if_pos (Nat.le_refl _)]
  exact Array.extract_size

/-- The image that comes of fitting bytes to a capacity, along with the word on whether they fitted. -/
def fitting (bytes : Array UInt8) (capacity : Nat) : Image where
  bytes := resize bytes capacity
  fit := if bytes.size = capacity then .exact else .mismatch capacity bytes.size

/-- The fitted image is the same under every journal; only the warning about a mismatch may be held back. -/
theorem fst_ofBytes (bytes : Array UInt8) (capacity : Nat) (j : Journal) :
    ((ofBytes bytes capacity).run j).1 = fitting bytes capacity := by
  unfold ofBytes fitting
  by_cases hsize : bytes.size = capacity
  · subst hsize
    rw [if_pos rfl, if_pos rfl, resize_exact]
    rfl
  · rw [if_neg hsize, if_neg hsize]
    rfl

end Image

/-- A chip is made of its image, fitted to it, unless the number of its address lines is out of the
    question. -/
theorem Rom.fst_make (name : String) (image : Array UInt8) (lines : Nat) (address data : BusId)
    (enable : WireId) (j : Journal) :
    ((Rom.make name image lines address data enable).run j).1 = (checkLines lines).map fun _ =>
      { name, lines, cells := .ofBytes lines (Image.resize image (span lines)), address, data,
        enable } := by
  unfold Rom.make
  cases checkLines lines with
  | error e => rfl
  | ok _ =>
    exact fst_bind (Image.fst_ofBytes image (span lines) j)

/-- A bank takes of an image what fits, and zeros for what is missing, so that fitting the image to the
    bank beforehand makes no difference. -/
theorem Bank.ofBytes_resize (lines : Nat) (image : Array UInt8) :
    Bank.ofBytes lines (Image.resize image (span lines)) = Bank.ofBytes lines image := by
  refine Bank.ext fun a => ?_
  have hlt : a % span lines < span lines := Nat.mod_lt _ (span_pos lines)
  rw [read_ofBytes, read_ofBytes]
  -- from here on only the cell counts, not the address that led to it
  generalize a % span lines = i at hlt
  unfold Image.resize
  by_cases hfits : span lines ≤ image.size
  · rw [if_pos hfits]
    have hi : i < image.size := Nat.lt_of_lt_of_le hlt hfits
    simp [Array.getD_eq_getD_getElem?, Nat.min_eq_left hfits, hlt, hi]
  · rw [if_neg hfits]
    by_cases hi : i < image.size
    · simp [Array.getD_eq_getD_getElem?, Array.getElem?_append, hi]
    · have hshort : i - image.size < span lines - image.size := by omega
      simp [Array.getD_eq_getD_getElem?, Array.getElem?_append, hi, hshort]

/-- The chip of a ROM is made, or else its number of address lines is refused. -/
theorem Building.yields_make (slot : RomSlot) (enable : WireId) :
    Yields (liftM (Rom.make slot.name slot.image slot.addressLines ({} : Socket).address
        ({} : Socket).data enable))
      (.ok (if slot.addressLines = 0 ∨ maxAddressLines < slot.addressLines then
        .error (.addressLines slot.addressLines) else .ok (slot.chip enable))) := by
  refine yields_lift fun j => ?_
  rw [Rom.fst_make, Bank.ofBytes_resize]
  unfold checkLines
  by_cases hlines : slot.addressLines = 0 ∨ maxAddressLines < slot.addressLines
  · rw [if_pos hlines, if_pos hlines]
    rfl
  · rw [if_neg hlines, if_neg hlines]
    rfl

/-- A ROM yields its chip and its window, or else exactly what is wrong with it. -/
theorem Building.yields_mapRom (slot : RomSlot) (enable : WireId) :
    Yields (Machine.mapRom ({} : Socket).address ({} : Socket).data slot enable)
      (slot.refusal?.elim (.ok (slot.chip enable, slot.window enable)) .error) := by
  unfold Machine.mapRom RomSlot.refusal?
  refine (yields_make slot enable).bind_ok ?_
  -- the two checks come in the order in which `refusal?` makes them
  by_cases hlines : slot.addressLines = 0 ∨ maxAddressLines < slot.addressLines
  · rw [if_pos hlines, if_pos hlines]
    exact yields_throw _
  · rw [if_neg hlines, if_neg hlines]
    show Yields (if 0x10000 < slot.base.toNat + span slot.addressLines then _ else _) _
    by_cases hend : 0x10000 < slot.base.toNat + span slot.addressLines
    · rw [if_pos hend, if_pos hend]
      exact yields_throw _
    · rw [if_neg hend, if_neg hend]
      exact fun _ => rfl

/-! ## Names and wires -/

namespace Directory

variable {α : Type}

/-- A look-up finds the first entry if it has the key, and goes on behind it otherwise. -/
theorem lookup_entry (d : Directory α) (name key : String) (v : α) :
    List.lookup key ((name, v) :: d) = if key = name then some v else d.lookup key := by
  rw [List.lookup_cons]
  by_cases hkey : key = name
  · rw [if_pos hkey, beq_iff_eq.mpr hkey]
  · rw [if_neg hkey, beq_eq_false_iff_ne.mpr hkey]

/-- Taking all entries of one name out leaves the entries of the others. -/
theorem lookup_others {name key : String} (hkey : key ≠ name) (d : Directory α) :
    (d.filter (·.1 ≠ name)).lookup key = d.lookup key := by
  induction d with
  | nil => rfl
  | cons entry d ih =>
    obtain ⟨other, v⟩ := entry
    rw [lookup_entry]
    by_cases hother : other = name
    · rw [List.filter_cons_of_neg (by simp [hother]), ih, if_neg (by rw [hother]; exact hkey)]
    · rw [List.filter_cons_of_pos (by simp [hother]), lookup_entry, ih]

/-- After a name has been put, it stands for the new thing, and the other names stand for what they did. -/
theorem lookup_put (d : Directory α) (name key : String) (v : α) :
    (d.put name v).lookup key = if key = name then some v else d.lookup key := by
  rw [put, lookup_entry]
  by_cases hkey : key = name
  · rw [if_pos hkey, if_pos hkey]
  · rw [if_neg hkey, if_neg hkey, lookup_others hkey]

end Directory

/-- No ROM has an enable wire of this name, so that enable wires never come in the way of it. -/
def Reserved (name : String) : Prop :=
  ∀ slot : RomSlot, slot.enableLine ≠ name

/-- Names of enable wires end with an E, and hence any name that does not is reserved. -/
theorem reserved_of_getLast {name : String} (h : name.toList.getLast? ≠ some 'E') :
    Reserved name := by
  intro slot heq
  refine h ?_
  rw [← heq, RomSlot.enableLine, String.toList_append]
  simp

/-- The enable wires are the next ones in number, one for each ROM, and the names that are reserved stand
    for what they stood for. -/
theorem Machine.layEnables_eq : ∀ (slots : List RomSlot) (b : Board), ∃ lines : Directory WireId,
    layEnables slots b =
      ((List.range' b.fabric.wires.cells.length slots.length).map WireId.mk,
        { b with
          lines
          circuit := b.circuit.onFabric fun f =>
            { f with wires := ⟨f.wires.cells ++ List.replicate slots.length {}⟩ } }) ∧
    ∀ name, Reserved name → lines.lookup name = b.lines.lookup name
  | [], b => by
    refine ⟨b.lines, ?_, fun _ _ => rfl⟩
    simp [layEnables, Circuit.onFabric]
  | slot :: slots, b => by
    obtain ⟨lines, hrest, hnames⟩ := layEnables_eq slots (b.addLine slot.enableLine).2
    refine ⟨lines, ?_, ?_⟩
    · have hlength : (b.addLine slot.enableLine).2.fabric.wires.cells.length =
          b.fabric.wires.cells.length + 1 := List.length_append
      rw [layEnables]
      -- the first wire gets the next number, and the others count on from there
      simp only [hrest, hlength, List.length_cons, List.range'_succ, List.map_cons]
      refine Prod.ext rfl ?_
      simp [Board.addLine, Board.onFabric, Board.nameLine, Circuit.onFabric, Fabric.addWire, Rack.add,
        Board.fabric, List.replicate_succ]
    · intro name hname
      rw [hnames name hname]
      show (b.lines.put slot.enableLine _).lookup name = _
      rw [Directory.lookup_put, if_neg (hname slot).symm]

/-- The name of an enable wire stands for one of the wires that have been laid: of two ROMs whose wires have
    one name, for the later one's. -/
theorem Machine.lookup_layEnables (name : String) : ∀ (slots : List RomSlot) (b : Board),
    (∃ w ∈ (layEnables slots b).1, (layEnables slots b).2.lines.lookup name = some w) ∨
      ((∀ slot ∈ slots, slot.enableLine ≠ name) ∧
        (layEnables slots b).2.lines.lookup name = b.lines.lookup name)
  | [], b => .inr ⟨fun _ hslot => absurd hslot List.not_mem_nil, rfl⟩
  | slot :: slots, b => by
    rw [layEnables]
    rcases lookup_layEnables name slots (b.addLine slot.enableLine).2 with
      ⟨w, hw, hlookup⟩ | ⟨hothers, hlookup⟩
    · exact .inl ⟨w, List.mem_cons_of_mem _ hw, hlookup⟩
    · have hput : (b.addLine slot.enableLine).2.lines.lookup name =
          if name = slot.enableLine then some (b.addLine slot.enableLine).1
          else b.lines.lookup name := Directory.lookup_put ..
      rw [hput] at hlookup
      by_cases hname : name = slot.enableLine
      · rw [if_pos hname] at hlookup
        exact .inl ⟨_, List.mem_cons_self, hlookup⟩
      · rw [if_neg hname] at hlookup
        exact .inr ⟨List.forall_mem_cons.mpr ⟨fun h => hname h.symm, hothers⟩, hlookup⟩

/-! ## Connections -/

/-- A place where a listener is to be put: on which wire, and for which level. -/
structure Connection where
  wire : WireId
  level : Level
  listener : Listener

/-- Where a chip listens, once it is installed.  A memory chip is on its own wire, and the decoder twice on
    the clock. -/
def Device.connections : Device → List Connection
  | .rom chip => [⟨chip.enable, .low, .rom chip⟩]
  | .ram chip => [⟨chip.select, .low, .ram chip⟩]
  | .decoder chip => [⟨chip.clock, .high, .select chip⟩, ⟨chip.clock, .high, .release chip⟩]

namespace Fabric

/-- Makes connections, one after the other, in the order of the list. -/
def connect (f : Fabric) (connections : List Connection) : Fabric :=
  connections.foldl (fun f c => f.listen c.wire c.level c.listener) f

/-- A new listener comes last on its own wire and level, and is nowhere else. -/
theorem listeners_listen (f : Fabric) (w v : WireId) (level other : Level) (l : Listener) :
    ((f.listen w level l).wire v).listeners other =
      (f.wire v).listeners other ++ if w = v ∧ level = other then [l] else [] := by
  rw [wire_listen]
  by_cases hv : v = w
  · subst hv
    rw [if_pos rfl]
    cases level <;> cases other <;> simp [Wire.listen, Wire.listeners]
  · rw [if_neg hv, if_neg fun h => hv h.1.symm, List.append_nil]

/-- On every wire the new listeners come after those that were there, in the order in which they were
    connected. -/
theorem listeners_connect (f : Fabric) (connections : List Connection) (w : WireId)
    (level : Level) :
    ((f.connect connections).wire w).listeners level = (f.wire w).listeners level ++
      (connections.filter fun c => c.wire = w ∧ c.level = level).map (·.listener) := by
  induction connections generalizing f with
  | nil => exact (List.append_nil _).symm
  | cons c connections ih =>
    rw [connect, List.foldl_cons]
    refine (ih _).trans ?_
    rw [listeners_listen, List.append_assoc]
    by_cases hc : c.wire = w ∧ c.level = level
    · rw [if_pos hc, List.filter_cons_of_pos (by simpa using hc)]
      rfl
    · rw [if_neg hc, List.filter_cons_of_neg (by simpa using hc)]
      rfl

theorem connect_append (f : Fabric) (cs ds : List Connection) :
    f.connect (cs ++ ds) = (f.connect cs).connect ds :=
  List.foldl_append

/-- Connecting is all that it does: the buses, the cells and the socket stay as they are. -/
theorem connect_others : ∀ (connections : List Connection) (f : Fabric),
    (f.connect connections).buses = f.buses ∧ (f.connect connections).stores = f.stores ∧
      (f.connect connections).socket = f.socket
  | [], _ => ⟨rfl, rfl, rfl⟩
  | c :: connections, f => connect_others connections (f.listen c.wire c.level c.listener)

end Fabric

/-- Installing a chip makes its connections and does nothing else to the board, whatever it reports. -/
theorem Board.fst_install (b : Board) (d : Device) (j : Journal) :
    ((b.install d).run j).1 = b.onFabric (·.connect d.connections) := by
  cases d <;> rfl

/-- Installing one chip after the other makes all their connections, in the order of the chips. -/
theorem Board.fst_installAll (devices : List Device) (b : Board) (j : Journal) :
    ((devices.foldlM install b).run j).1 =
      b.onFabric (·.connect (devices.flatMap Device.connections)) := by
  induction devices generalizing b j with
  | nil => rfl
  | cons d devices ih =>
    rw [List.foldlM_cons, fst_bind (b.fst_install d j), ih, List.flatMap_cons]
    simp only [onFabric, Circuit.onFabric, Fabric.connect_append]

/-! ## Power -/

namespace Board

/-- What happens to a board on which nothing but levels changes, and no wire goes low.  Most of starting a
    machine is of this kind, and what is needed at the end is what survives it. -/
structure Kept (b b' : Board) : Prop where
  lines : b'.lines = b.lines
  devices : b'.devices = b.devices
  panel : b'.circuit.panel = b.circuit.panel
  build : b.fabric.SameBuild b'.fabric
  store : ∀ s, b'.fabric.store s = b.fabric.store s
  high : ∀ w, (b.fabric.wire w).level = .high → (b'.fabric.wire w).level = .high

theorem Kept.refl (b : Board) : Kept b b :=
  ⟨rfl, rfl, rfl, .refl _, fun _ => rfl, fun _ hw => hw⟩

theorem Kept.trans {b b' b'' : Board} (h : Kept b b') (h' : Kept b' b'') : Kept b b'' :=
  ⟨h'.lines.trans h.lines, h'.devices.trans h.devices, h'.panel.trans h.panel,
    h.build.trans h'.build, fun s => (h'.store s).trans (h.store s), fun w hw => h'.high w (h.high w hw)⟩

/-- A fold keeps the board if each of its steps does, provided that what a step asks for is itself kept. -/
theorem kept_foldl {α : Type} {f : Board → α → Board} {P : Board → α → Prop}
    (hf : ∀ b a, P b a → Kept b (f b a)) (hP : ∀ b b' a, Kept b b' → P b a → P b' a) :
    ∀ (l : List α) (b : Board), (∀ a ∈ l, P b a) → Kept b (l.foldl f b)
  | [], b, _ => .refl b
  | a :: l, b, h => by
    have hfirst := hf b a (h a List.mem_cons_self)
    exact hfirst.trans (kept_foldl hf hP l (f b a) fun a' ha' =>
      hP b (f b a) a' hfirst (h a' (List.mem_cons_of_mem a ha')))

/-- Nobody listens on a wire when it goes high, as is the case with every wire that is driven high before
    the processor starts. -/
def SilentHigh (b : Board) (wire : WireId) : Prop :=
  (b.fabric.wire wire).onHigh = []

/-- Such a wire is still silent when a board has been kept. -/
theorem silentHigh_kept (b b' : Board) (wire : WireId) (h : Kept b b') (hw : b.SilentHigh wire) :
    b'.SilentHigh wire :=
  (h.build.onHigh wire).trans hw

/-- Such a wire goes high, and that is all that happens. -/
theorem drive_high (b : Board) (wire : WireId) (h : b.SilentHigh wire) :
    (b.drive wire .high).2 = b.onFabric (·.setLevel wire .high) := by
  have hdrive : (b.drive wire .high).2.circuit = b.circuit.onFabric (·.setLevel wire .high) :=
    Circuit.driven_silent h
  rw [onFabric, ← hdrive]
  rfl

/-- So the board is kept by it: no other level changes, and this one does not go low. -/
theorem kept_drive (b : Board) (wire : WireId) (h : b.SilentHigh wire) :
    Kept b (b.drive wire .high).2 := by
  rw [drive_high b wire h]
  refine ⟨rfl, rfl, rfl, Fabric.sameBuild_setLevel .., fun _ => rfl, fun w hw => ?_⟩
  show ((b.fabric.setLevel wire .high).wire w).level = .high
  rw [Fabric.wire_setLevel]
  by_cases hsame : w = wire
  · rw [if_pos hsame]
  · rw [if_neg hsame, hw]

/-- The same for several of these wires, one after the other. -/
theorem kept_driveAll (wires : List WireId) (b : Board) (h : ∀ w ∈ wires, b.SilentHigh w) :
    Kept b (wires.foldl (fun b wire => (b.drive wire .high).2) b) :=
  kept_foldl kept_drive silentHigh_kept wires b h

/-- A wire that has been driven high is high, and stays so while the others are driven. -/
theorem high_driveAll : ∀ (wires : List WireId) (b : Board), (∀ w ∈ wires, b.SilentHigh w) →
    ∀ w ∈ wires, ((wires.foldl (fun b wire => (b.drive wire .high).2) b).fabric.wire w).level = .high
  | wire :: wires, b, h, w, hw => by
    have hfirst := kept_drive b wire (h wire List.mem_cons_self)
    have hrest : ∀ v ∈ wires, (b.drive wire .high).2.SilentHigh v := fun v hv =>
      silentHigh_kept b _ v hfirst (h v (List.mem_cons_of_mem wire hv))
    rcases List.mem_cons.mp hw with rfl | hw
    · refine (kept_driveAll wires _ hrest).high w ?_
      rw [drive_high b w (h w List.mem_cons_self)]
      show ((b.fabric.setLevel w .high).wire w).level = .high
      rw [Fabric.wire_setLevel, if_pos rfl]
    · exact high_driveAll wires _ hrest w hw

/-- A chip that is as it is when power comes on.  A RAM has blank cells, and a decoder is on wires where
    nobody listens for high. -/
def Rests (b : Board) : Device → Prop
  | .rom _ => True
  | .ram chip => b.fabric.store chip.store = .blank chip.lines
  | .decoder chip => ∀ w ∈ chip.outputs, b.SilentHigh w

/-- A chip still is at rest when a board has been kept. -/
theorem rests_kept (b b' : Board) (d : Device) (h : Kept b b') (hd : b.Rests d) : b'.Rests d := by
  cases d with
  | rom chip => trivial
  | ram chip => exact (h.store chip.store).trans hd
  | decoder chip => exact fun w hw => silentHigh_kept b b' w h (hd w hw)

/-- Powering up a chip that is at rest keeps the board: a RAM is blanked that is blank already, and a
    decoder drives silent wires high. -/
theorem kept_powerUp (b : Board) (d : Device) (h : b.Rests d) : Kept b (b.powerUp d) := by
  cases d with
  | rom chip => exact .refl b
  | decoder chip => exact kept_driveAll chip.outputs b h
  | ram chip =>
    refine ⟨rfl, rfl, rfl, Fabric.sameBuild_setStore .., fun s => ?_, fun _ hw => hw⟩
    show (b.fabric.setStore chip.store _).store s = _
    rw [Fabric.store_setStore]
    by_cases hs : s = chip.store
    · rw [if_pos hs, hs, h]
    · rw [if_neg hs]

end Board

/-! ## The machine -/

/-- All chips, in the order in which they are put on the board: the RAM, the ROMs, and the decoder last. -/
def Layout.devices (l : Layout) : List Device :=
  .ram l.ram :: l.roms.map (fun e => .rom e.2) ++ [.decoder l.decoder]

namespace Machine

/-- The wires that ROMs are on, one for each ROM in the order given, from number 6 on. -/
def enables (slots : List RomSlot) : List WireId :=
  (List.range' 6 slots.length).map WireId.mk

/-- The circuit of a machine with these ROMs: the processor's own buses and wires, a RAM for the whole
    address space, and each ROM on its wire. -/
def layout (slots : List RomSlot) : Layout where
  socket := {}
  ram := {
    lines := maxAddressLines, store := ⟨0⟩
    address := ({} : Socket).address, data := ({} : Socket).data, rw := ({} : Socket).rw
    select := ⟨5⟩ }
  roms := (slots.zip (enables slots)).map fun (slot, enable) =>
    (slot.window enable, slot.chip enable)

/-- The wires and buses before anything is connected, and the blank cells of the RAM. -/
def bareFabric (slots : List RomSlot) : Fabric where
  wires := ⟨List.replicate 6 {} ++ List.replicate slots.length {}⟩
  buses := ⟨[{ width := 16 }, { width := 8 }]⟩
  stores := ⟨[.blank maxAddressLines]⟩

/-- Where the wires are that every machine has, by the names under which the board looks them up. -/
structure Labelled (lines : Directory WireId) : Prop where
  rw : lines.lookup Board.rwLine = some ⟨0⟩
  nmi : lines.lookup Board.nmiLine = some ⟨1⟩
  irq : lines.lookup Board.irqLine = some ⟨2⟩
  reset : lines.lookup Board.resetLine = some ⟨3⟩
  clock : lines.lookup Board.clockLine = some ⟨4⟩
  ramSelect : lines.lookup Board.ramSelectLine = some ⟨5⟩

/-- A machine's parts on their board, with nothing connected yet. -/
structure Assembled (slots : List RomSlot) (b : Board) : Prop where
  labels : Labelled b.lines
  enabled : ∀ slot ∈ slots, ∃ w ∈ enables slots, b.lines.lookup slot.enableLine = some w
  devices : b.devices = (layout slots).devices
  circuit : b.circuit = { memory := bareFabric slots }

end Machine

/-- The outcome of building if something may be wrong with a ROM: the error for the first such ROM, or else
    the result. -/
abbrev RomSlot.unlessRefused {α : Type} (slots : List RomSlot) (a : α) : Except MachineError α :=
  (slots.findSome? RomSlot.refusal?).elim (.ok a) .error

namespace Machine

open Building

/-- A look-up that succeeds yields what it finds, so that its error never comes up. -/
theorem yields_orElse {α ε : Type} {wrap : ε → MachineError} {x : Except ε α} {a : α}
    (h : x = .ok a) : Yields (orElse wrap x) (.ok a) := by
  rw [h]
  exact yields_pure a

/-- Adding chips to a board one after the other appends them to its list. -/
theorem addDevices (mapped : List (Rom × Window)) (b : Board) :
    mapped.foldl (fun b entry => b.addDevice (.rom entry.1)) b =
      { b with devices := b.devices ++ mapped.map fun entry => .rom entry.1 } := by
  induction mapped generalizing b with
  | nil => simp
  | cons entry mapped ih =>
    rw [List.foldl_cons, ih]
    simp [Board.addDevice]

/-- There is a wire for every ROM, so that none is lost when they are paired. -/
theorem map_fst_zip_enables (slots : List RomSlot) :
    (slots.zip (enables slots)).map (·.1) = slots :=
  List.map_fst_zip (by simp [enables])

/-- The board for a processor is the same one under every journal. -/
theorem fst_forProcessor (j : Journal) :
    (Board.forProcessor.run j).1 = (Board.forProcessor.run {}).1 := rfl

/-- Plugging in where the processor is plugged in already changes nothing. -/
theorem plugIn_eq {b : Board} (haddress : b.bus Board.addressBus = .ok ⟨0⟩)
    (hdata : b.bus Board.dataBus = .ok ⟨1⟩) (hrw : b.line Board.rwLine = .ok ⟨0⟩)
    (hclock : b.line Board.clockLine = .ok ⟨4⟩) (hsocket : b.fabric.socket = {}) :
    b.plugIn = .ok b := by
  have hsame : ({ b.fabric with socket := {} } : Fabric) = b.fabric := by rw [← hsocket]
  simp only [Board.plugIn, Board.socket, haddress, hdata, hrw, hclock]
  exact congrArg (fun f => Except.ok (b.onFabric fun _ => f)) hsame

/-- The board before the enable wires are laid: the processor's own wires and buses, and the wire that
    selects the RAM. -/
def bareBoard : Board :=
  ((Board.forProcessor.run {}).1.addLine Board.ramSelectLine).2

/-- The names of the processor's wires are reserved, and so they mean the same wires on any board that got
    its names from this one. -/
theorem line_of_reserved {lines : Directory WireId}
    (hnames : ∀ name, Reserved name → lines.lookup name = bareBoard.lines.lookup name) (name : String)
    (hname : Reserved name) (wire : WireId) (hwire : bareBoard.lines.lookup name = some wire)
    (b : Board) (hb : b.lines = lines) : b.line name = .ok wire := by
  rw [Board.line, hb, hnames name hname, hwire]

/-- All ROMs are mapped, each to its wire, unless something is wrong with one of them. -/
theorem yields_mapRoms (slots : List RomSlot) :
    Yields ((slots.zip (enables slots)).mapM fun (slot, enable) => mapRom ⟨0⟩ ⟨1⟩ slot enable)
      (RomSlot.unlessRefused slots ((slots.zip (enables slots)).map fun entry =>
        (entry.1.chip entry.2, entry.1.window entry.2))) := by
  -- what is wrong with a ROM does not depend on its wire
  have hrefused : (slots.zip (enables slots)).findSome? (fun entry => entry.1.refusal?) =
      slots.findSome? RomSlot.refusal? := by
    have hmap := congrArg (·.findSome? RomSlot.refusal?) (map_fst_zip_enables slots)
    simp only [List.findSome?_map] at hmap
    exact hmap
  rw [RomSlot.unlessRefused, ← hrefused]
  exact yields_mapM (fun entry : RomSlot × WireId => yields_mapRom entry.1 entry.2) _

/-- Assembling yields a board with all parts on it and the RAM, unless something is wrong with a ROM. -/
theorem yields_assemble (slots : List RomSlot) : ∃ b, Assembled slots b ∧
    Yields (assemble slots) (RomSlot.unlessRefused slots (b, (layout slots).ram)) := by
  obtain ⟨lines, hlaid, hnames⟩ := layEnables_eq slots bareBoard
  let laid : Board := { bareBoard with
    lines
    devices := (layout slots).devices
    circuit := { memory := bareFabric slots } }
  -- the names of the processor's wires do not end like those of enable wires
  have hlabels : Labelled lines := by
    constructor <;> exact hnames _ (reserved_of_getLast (by decide))
  -- each enable name has been put at least once, and so it stands for one of the new wires
  have henabled : ∀ slot ∈ slots, ∃ w ∈ enables slots, lines.lookup slot.enableLine = some w := by
    intro slot hslot
    have hlookup := lookup_layEnables slot.enableLine slots bareBoard
    rw [hlaid] at hlookup
    exact hlookup.resolve_right fun hnone => hnone.1 slot hslot rfl
  refine ⟨laid, ⟨hlabels, henabled, rfl, rfl⟩, ?_⟩
  unfold assemble
  -- the names are looked up one after the other, and each of them is found
  refine (yields_lift fst_forProcessor).bind_ok ?_
  have hselect : (Board.forProcessor.run {}).1.addLine Board.ramSelectLine = (⟨5⟩, bareBoard) := rfl
  simp only [hselect, hlaid]
  have hline := line_of_reserved hnames
  refine (yields_orElse (a := (⟨0⟩ : BusId)) rfl).bind_ok ?_
  refine (yields_orElse (a := (⟨1⟩ : BusId)) rfl).bind_ok ?_
  refine (yields_orElse
    (hline Board.rwLine (reserved_of_getLast (by decide)) ⟨0⟩ (by decide) _ rfl)).bind_ok ?_
  refine (yields_orElse
    (hline Board.clockLine (reserved_of_getLast (by decide)) ⟨4⟩ (by decide) _ rfl)).bind_ok ?_
  refine (yields_orElse (a := ((layout slots).ram, { laid with devices := [] })) rfl).bind_ok ?_
  show Yields ((slots.zip (enables slots)).mapM _ >>= _) _
  have hmapped := yields_mapRoms slots
  unfold RomSlot.unlessRefused at hmapped ⊢
  cases hfirst : slots.findSome? RomSlot.refusal? with
  | some e =>
    rw [hfirst] at hmapped
    exact hmapped.bind_error
  | none =>
    rw [hfirst] at hmapped
    refine hmapped.bind_ok ?_
    refine (yields_orElse (a := laid) ?_).bind_ok (yields_pure _)
    rw [addDevices]
    refine (plugIn_eq rfl rfl
      (hline Board.rwLine (reserved_of_getLast (by decide)) ⟨0⟩ (by decide) _ rfl)
      (hline Board.clockLine (reserved_of_getLast (by decide)) ⟨4⟩ (by decide) _ rfl) rfl).trans ?_
    simp only [Board.addDevice, List.map_map]
    simp only [laid, layout, Layout.devices, Layout.decoder, List.map_map]
    rfl

end Machine

/-! ## Its wires -/

/-- Of a list without repeated keys, a filter for one element's key leaves that element. -/
theorem filter_of_nodup {α β : Type} [DecidableEq β] {key : α → β} {a : α} :
    ∀ {l : List α}, (l.map key).Nodup → a ∈ l → l.filter (fun b => key b = key a) = [a]
  | b :: l, hnodup, ha => by
    rw [List.map_cons, List.nodup_cons] at hnodup
    rcases List.mem_cons.mp ha with rfl | ha
    · -- the element itself is found, and nothing after it has its key
      rw [List.filter_cons_of_pos (by simp), List.filter_eq_nil_iff.mpr]
      intro c hc hkey
      exact hnodup.1 (List.mem_map.mpr ⟨c, hc, by simpa using hkey⟩)
    · rw [List.filter_cons_of_neg, filter_of_nodup hnodup.2 ha]
      intro hkey
      have hkey : key b = key a := by simpa using hkey
      exact hnodup.1 (hkey ▸ List.mem_map_of_mem ha)

namespace Machine

/-- What latches the requests: one listener on each of the three interrupt wires, for its going low. -/
def latches : List Connection :=
  [⟨⟨1⟩, .low, .request .nmi⟩, ⟨⟨2⟩, .low, .request .irq⟩, ⟨⟨3⟩, .low, .request .reset⟩]

/-- The fabric of a machine whose chips are installed and whose interrupt wires are attached. -/
def wiredFabric (slots : List RomSlot) : Fabric :=
  (bareFabric slots).connect ((layout slots).devices.flatMap Device.connections ++ latches)

/-- Nobody listens on the bare fabric, and every wire is low there, those that have not been laid included. -/
theorem wire_bareFabric (slots : List RomSlot) (w : WireId) : (bareFabric slots).wire w = {} := by
  simp only [Fabric.wire, bareFabric, Rack.get, List.replicate_append_replicate,
    List.getD_eq_getElem?_getD, List.getElem?_replicate]
  split <;> rfl

/-- Nobody listens on the finished fabric but those who have been connected. -/
theorem listeners_wiredFabric (slots : List RomSlot) (w : WireId) (level : Level) :
    ((wiredFabric slots).wire w).listeners level =
      (((layout slots).devices.flatMap Device.connections ++ latches).filter
        fun c => c.wire = w ∧ c.level = level).map (·.listener) := by
  rw [wiredFabric, Fabric.listeners_connect, wire_bareFabric]
  cases level <;> rfl

/-- The connections of the chips, sorted: the RAM's, the ROMs' and the decoder's. -/
theorem romConnections (slots : List RomSlot) :
    (layout slots).devices.flatMap Device.connections =
      (Device.ram (layout slots).ram).connections ++
        ((layout slots).roms.map fun e => ⟨e.2.enable, .low, .rom e.2⟩) ++
        (Device.decoder (layout slots).decoder).connections := by
  simp only [Layout.devices, List.flatMap_append, List.flatMap_cons, List.flatMap_map,
    List.flatMap_nil, List.append_nil]
  rw [List.map_eq_flatMap]
  rfl

/-- The ROMs of the layout are those that were asked for, each on a wire of its own. -/
theorem mem_roms {slots : List RomSlot} {e : Window × Rom} (he : e ∈ (layout slots).roms) :
    ∃ slot ∈ slots, ∃ enable ∈ enables slots, e = (slot.window enable, slot.chip enable) := by
  obtain ⟨⟨slot, enable⟩, hmem, rfl⟩ := List.mem_map.mp he
  obtain ⟨hslot, henable⟩ := List.of_mem_zip hmem
  exact ⟨slot, hslot, enable, henable, rfl⟩

theorem le_of_mem_enables {slots : List RomSlot} {w : WireId} (hw : w ∈ enables slots) :
    6 ≤ w.index := by
  obtain ⟨i, hi, rfl⟩ := List.mem_map.mp hw
  exact (List.mem_range'_1.mp hi).1

/-- No two ROMs are on the same wire, whatever their names. -/
theorem nodup_enables (slots : List RomSlot) : (enables slots).Nodup := by
  refine List.Pairwise.map _ ?_ List.nodup_range'
  intro i j hij heq
  exact hij (congrArg (·.index) heq)

/-- The ROMs of the layout are on these wires, in order. -/
theorem romWires_eq (slots : List RomSlot) :
    (layout slots).roms.map (fun e => e.2.enable) = enables slots := by
  simp only [layout, List.map_map]
  exact List.map_snd_zip (by simp [enables])

theorem nodup_romWires (slots : List RomSlot) :
    ((layout slots).roms.map fun e => e.2.enable).Nodup := by
  rw [romWires_eq]
  exact nodup_enables slots

/-- The connections of everything but the ROMs, which are the same for every machine but for the decoder's
    windows. -/
def fixedConnections (slots : List RomSlot) : List Connection :=
  (Device.ram (layout slots).ram).connections ++
    (Device.decoder (layout slots).decoder).connections ++ latches

theorem lt_of_mem_fixed {slots : List RomSlot} {c : Connection} (hc : c ∈ fixedConnections slots) :
    c.wire.index < 6 := by
  -- the chips differ from list to list, but the numbers of these wires do not
  have hindex : c.wire.index ∈ [5, 4, 4, 1, 2, 3] :=
    List.mem_map_of_mem (f := fun c : Connection => c.wire.index) hc
  generalize c.wire.index = i at hindex
  revert i
  decide

/-- The wire of a ROM has a number from 6 on, which keeps it apart from all others. -/
theorem le_of_mem_roms {slots : List RomSlot} {e : Window × Rom} (he : e ∈ (layout slots).roms) :
    6 ≤ e.2.enable.index := by
  obtain ⟨slot, _, enable, henable, rfl⟩ := mem_roms he
  exact le_of_mem_enables henable

/-- On a wire that none of the connections is for, none is found. -/
theorem filter_elsewhere {connections : List Connection} {w : WireId}
    (h : ∀ c ∈ connections, c.wire ≠ w) (level : Level) :
    connections.filter (fun c => c.wire = w ∧ c.level = level) = [] := by
  rw [List.filter_eq_nil_iff]
  intro c hc hmatch
  exact h c hc (of_decide_eq_true hmatch).1

/-- On the first six wires there are no ROMs, so that the listeners there do not depend on the list. -/
theorem listeners_fixed (slots : List RomSlot) {w : WireId} (hw : w.index < 6) (level : Level) :
    ((wiredFabric slots).wire w).listeners level =
      ((fixedConnections slots).filter fun c => c.wire = w ∧ c.level = level).map (·.listener) := by
  have hroms : ∀ c ∈ (layout slots).roms.map fun e => Connection.mk e.2.enable .low (.rom e.2),
      c.wire ≠ w := by
    intro c hc hsame
    obtain ⟨e, he, rfl⟩ := List.mem_map.mp hc
    have hle := le_of_mem_roms he
    rw [← hsame] at hw
    exact Nat.not_lt.mpr hle hw
  rw [listeners_wiredFabric, romConnections]
  simp only [fixedConnections, List.filter_append, filter_elsewhere hroms, List.append_nil]

/-- On a ROM's wire there is the ROM alone, and it listens for low. -/
theorem listeners_rom {slots : List RomSlot} {e : Window × Rom} (he : e ∈ (layout slots).roms)
    (level : Level) :
    ((wiredFabric slots).wire e.2.enable).listeners level =
      if level = .low then [.rom e.2] else [] := by
  have hfixed : ∀ c ∈ fixedConnections slots, c.wire ≠ e.2.enable := by
    intro c hc hsame
    have hlt := lt_of_mem_fixed hc
    rw [hsame] at hlt
    exact Nat.not_lt.mpr (le_of_mem_roms he) hlt
  have hram := filter_elsewhere
    (fun c hc => hfixed c (List.mem_append_left _ (List.mem_append_left _ hc))) level
  have hdecoder := filter_elsewhere
    (fun c hc => hfixed c (List.mem_append_left _ (List.mem_append_right _ hc))) level
  have hlatches := filter_elsewhere (fun c hc => hfixed c (List.mem_append_right _ hc)) level
  rw [listeners_wiredFabric, romConnections]
  simp only [List.filter_append, hram, hdecoder, hlatches, List.nil_append, List.append_nil,
    List.filter_map, List.map_map]
  cases level with
  | high => simp [Function.comp_def]
  | low =>
    -- two ROMs may be equal in everything else, so it is the wire that tells them apart
    have hfilter := filter_of_nodup (nodup_romWires slots) he
    simp only [Function.comp_def, and_true, hfilter, if_true, List.map_cons, List.map_nil]

/-- The wire of an interrupt input, by its number. -/
def wire : Request → WireId
  | .nmi => ⟨1⟩
  | .irq => ⟨2⟩
  | .reset => ⟨3⟩

/-- On each interrupt wire of the finished fabric there is the latch of its request and nothing else. -/
theorem latches_wiredFabric (slots : List RomSlot) : (wiredFabric slots).Latches wire where
  onLow kind := by
    have hlisteners := listeners_fixed slots (w := wire kind) (by cases kind <;> decide) .low
    cases kind <;> exact hlisteners
  onHigh kind := by
    have hlisteners := listeners_fixed slots (w := wire kind) (by cases kind <;> decide) .high
    cases kind <;> exact hlisteners

/-- The circuit is wired as its layout says, and so all that is known of such circuits goes for every
    machine that is built. -/
theorem wired_wiredFabric (slots : List RomSlot) : (layout slots).Wired (wiredFabric slots) := by
  obtain ⟨hbuses, -, hsocket⟩ := Fabric.connect_others
    ((layout slots).devices.flatMap Device.connections ++ latches) (bareFabric slots)
  exact {
    socket := hsocket
    apart := fun h => absurd h (show (⟨1⟩ : BusId) ≠ ⟨0⟩ by decide)
    addressWidth := by
      simp only [Fabric.bus, wiredFabric, hbuses]
      rfl
    dataWidth := by
      simp only [Fabric.bus, wiredFabric, hbuses]
      rfl
    rwSilent := fun level => by
      have hlisteners := listeners_fixed slots (w := ⟨0⟩) (by decide) level
      cases level <;> exact hlisteners
    clockLow := listeners_fixed slots (w := ⟨4⟩) (by decide) .low
    clockHigh := listeners_fixed slots (w := ⟨4⟩) (by decide) .high
    ramLow := listeners_fixed slots (w := ⟨5⟩) (by decide) .low
    ramHigh := listeners_fixed slots (w := ⟨5⟩) (by decide) .high
    ramPins := ⟨rfl, rfl, rfl⟩
    romLow := fun e he => by
      have hlisteners := listeners_rom he .low
      obtain ⟨slot, _, enable, _, rfl⟩ := mem_roms he
      exact hlisteners
    romHigh := fun e he => by
      have hlisteners := listeners_rom he .high
      obtain ⟨slot, _, enable, _, rfl⟩ := mem_roms he
      exact hlisteners
    romPins := fun e he => by
      obtain ⟨slot, _, enable, _, rfl⟩ := mem_roms he
      exact ⟨rfl, rfl⟩ }

/-- The wires that are high while nothing goes on: the interrupt inputs, and those by which the decoder
    selects chips. -/
def idleWires (slots : List RomSlot) : List WireId :=
  [wire .nmi, wire .irq, wire .reset] ++ (layout slots).decoder.outputs

/-- A machine at the moment its power comes on, before the processor has done anything. -/
structure Ready (slots : List RomSlot) (budget : Budget) (m : Machine) : Prop where
  registers : m.registers = {}
  ram : m.ram = (layout slots).ram
  labels : Labelled m.board.lines
  enabled : ∀ slot ∈ slots, ∃ w ∈ enables slots, m.board.lines.lookup slot.enableLine = some w
  devices : m.board.devices = (layout slots).devices
  idle : ∀ w ∈ idleWires slots, (m.board.fabric.wire w).level = .high
  build : (wiredFabric slots).SameBuild m.board.fabric
  store : ∀ s, m.board.fabric.store s = (bareFabric slots).store s
  panel : m.panel = { budget }

/-- The board with all listeners in place. -/
def installed (slots : List RomSlot) (b : Board) : Board :=
  { b with circuit := { memory := wiredFabric slots } }

/-- Installing all chips and attaching the interrupt wires brings the board to this. -/
theorem yields_installAll {slots : List RomSlot} {b : Board} (h : Assembled slots b) :
    ∃ b', Building.Yields (liftM b.installAll) (.ok b') ∧
      b'.attachInterrupts (wire .nmi) (wire .irq) (wire .reset) = installed slots b := by
  obtain ⟨lines, buses, devices, circuit⟩ := b
  obtain rfl : devices = (layout slots).devices := h.devices
  obtain rfl : circuit = { memory := bareFabric slots } := h.circuit
  refine ⟨_, Building.yields_lift (Board.fst_installAll _ _), ?_⟩
  simp only [installed, wiredFabric, Fabric.connect_append]
  rfl

/-- All its chips are as they are when power comes on. -/
theorem rests_installed (slots : List RomSlot) (b : Board) :
    ∀ d ∈ (layout slots).devices, (installed slots b).Rests d := by
  intro d hd
  rw [Layout.devices, List.mem_append, List.mem_cons, List.mem_singleton] at hd
  -- the RAM, a ROM, and the decoder
  rcases hd with (rfl | hd) | rfl
  · have hstores : (wiredFabric slots).stores = (bareFabric slots).stores :=
      (Fabric.connect_others _ _).2.1
    show (wiredFabric slots).store _ = _
    rw [Fabric.store, hstores]
    rfl
  · obtain ⟨e, _, rfl⟩ := List.mem_map.mp hd
    trivial
  · exact (wired_wiredFabric slots).outputs_silent

/-- The board with its interrupt wires at rest, that is, driven high one after the other. -/
def rested (slots : List RomSlot) (b : Board) : Board :=
  [wire .nmi, wire .irq, wire .reset].foldl (fun b w => (b.drive w .high).2) (installed slots b)

theorem silentHigh_inputs (slots : List RomSlot) (b : Board) :
    ∀ w ∈ [wire .nmi, wire .irq, wire .reset], (installed slots b).SilentHigh w := by
  intro w hw
  simp only [List.mem_cons, List.not_mem_nil, or_false] at hw
  rcases hw with rfl | rfl | rfl
  · exact (latches_wiredFabric slots).onHigh .nmi
  · exact (latches_wiredFabric slots).onHigh .irq
  · exact (latches_wiredFabric slots).onHigh .reset

theorem kept_rested (slots : List RomSlot) (b : Board) :
    (installed slots b).Kept (rested slots b) :=
  Board.kept_driveAll _ (installed slots b) (silentHigh_inputs slots b)

/-- Powering up one chip leaves the others at rest, so that their turn comes under the same conditions. -/
theorem kept_powerUps {slots : List RomSlot} {b : Board} {devices : List Device}
    (hdevices : ∀ d ∈ devices, d ∈ (layout slots).devices) :
    (rested slots b).Kept (devices.foldl Board.powerUp (rested slots b)) :=
  Board.kept_foldl Board.kept_powerUp Board.rests_kept _ _ fun d hd =>
    Board.rests_kept _ _ d (kept_rested slots b) (rests_installed slots b d (hdevices d hd))

/-- Powering up the board is powering up the chips of the layout, in their order. -/
theorem powerUpAll_rested {slots : List RomSlot} {b : Board} (h : Assembled slots b) :
    (rested slots b).powerUpAll = (layout slots).devices.foldl Board.powerUp (rested slots b) := by
  rw [Board.powerUpAll, (kept_rested slots b).devices, ← h.devices]
  rfl

/-- All of this together keeps the board with the listeners in place. -/
theorem kept_powerUpAll {slots : List RomSlot} {b : Board} (h : Assembled slots b) :
    (installed slots b).Kept (rested slots b).powerUpAll := by
  rw [powerUpAll_rested h]
  exact (kept_rested slots b).trans (kept_powerUps fun _ hd => hd)

/-- After it all idle wires are high.  The interrupt wires have been driven high before the chips are
    powered up, and the last of the chips is the decoder, which lets its wires go. -/
theorem idle_powerUpAll {slots : List RomSlot} {b : Board} (h : Assembled slots b) :
    ∀ w ∈ idleWires slots, ((rested slots b).powerUpAll.fabric.wire w).level = .high := by
  intro w hw
  have hothers : ∀ d ∈ Device.ram (layout slots).ram :: (layout slots).roms.map (fun e => .rom e.2),
      d ∈ (layout slots).devices := fun d hd => List.mem_append_left _ hd
  have hkept := kept_powerUps (b := b) hothers
  have hsilent := fun v hv => Board.silentHigh_kept _ _ v ((kept_rested slots b).trans hkept)
    ((wired_wiredFabric slots).outputs_silent v hv)
  rw [powerUpAll_rested h, Layout.devices, List.foldl_append, List.foldl_cons, List.foldl_nil]
  -- an interrupt wire has been high since before, and a wire of the decoder is driven high last
  rcases List.mem_append.mp hw with hw | hw
  · have hrested := Board.high_driveAll _ _ (silentHigh_inputs slots b) w hw
    exact (Board.kept_driveAll _ _ hsilent).high w (hkept.high w hrested)
  · exact Board.high_driveAll _ _ hsilent w hw

/-- The machine before its processor is powered up, with the budget it is given. -/
def unstarted (slots : List RomSlot) (budget : Budget) (b : Board) : Machine where
  board := { b with circuit := b.circuit.onPanel fun panel => { panel with budget } }
  registers := {}
  ram := (layout slots).ram

/-- This machine is ready, if the board it stands on has been kept and its idle wires are high. -/
theorem ready_unstarted {slots : List RomSlot} {b b' : Board} (h : Assembled slots b)
    (hkept : (installed slots b).Kept b')
    (hidle : ∀ w ∈ idleWires slots, (b'.fabric.wire w).level = .high) (budget : Budget) :
    Ready slots budget (unstarted slots budget b') where
  registers := rfl
  ram := rfl
  labels := by
    show Labelled b'.lines
    rw [hkept.lines]
    exact h.labels
  enabled := by
    show ∀ slot ∈ slots, ∃ w ∈ enables slots, b'.lines.lookup slot.enableLine = some w
    rw [hkept.lines]
    exact h.enabled
  devices := hkept.devices.trans h.devices
  idle := hidle
  build := hkept.build
  store s := by
    have hstores : (wiredFabric slots).stores = (bareFabric slots).stores :=
      (Fabric.connect_others _ _).2.1
    show b'.fabric.store s = _
    rw [hkept.store, Fabric.store, Fabric.store, ← hstores]
    rfl
  panel := by
    show { b'.circuit.panel with budget } = _
    rw [hkept.panel]
    rfl

/-- A board with all parts on it boots: the look-ups succeed, and there is a machine that was ready and has
    then been powered up. -/
theorem yields_boot {slots : List RomSlot} {b : Board} (h : Assembled slots b) (budget : Budget) :
    ∃ m : Machine, Ready slots budget m ∧ Building.Yields (boot b (layout slots).ram budget)
      (.ok (m.withProcessor m.processor.poweredUp.endCycle)) := by
  obtain ⟨b', hinstall, hattach⟩ := yields_installAll h
  refine ⟨_, ready_unstarted h (kept_powerUpAll h) (idle_powerUpAll h) budget, ?_⟩
  unfold boot
  refine (yields_orElse (a := wire .nmi) (by rw [Board.line, h.labels.nmi]; rfl)).bind_ok ?_
  refine (yields_orElse (a := wire .irq) (by rw [Board.line, h.labels.irq]; rfl)).bind_ok ?_
  refine (yields_orElse (a := wire .reset) (by rw [Board.line, h.labels.reset]; rfl)).bind_ok ?_
  refine hinstall.bind_ok ?_
  simp only [hattach]
  exact (Building.yields_lift (Processor.fst_powerUp _)).bind_ok (Building.yields_pure _)

/-- Building either ends with the first refusal, or brings a machine that has been powered up. -/
theorem yields_build (slots : List RomSlot) (budget : Budget) :
    ∃ m : Machine, Ready slots budget m ∧ Building.Yields (build slots budget)
      (RomSlot.unlessRefused slots (m.withProcessor m.processor.poweredUp.endCycle)) := by
  obtain ⟨b, hassembled, hassemble⟩ := yields_assemble slots
  obtain ⟨m, hready, hboot⟩ := yields_boot hassembled budget
  refine ⟨m, hready, ?_⟩
  unfold build
  unfold RomSlot.unlessRefused at hassemble ⊢
  cases hrefused : slots.findSome? RomSlot.refusal? with
  | some e =>
    rw [hrefused] at hassemble
    exact hassemble.bind_error
  | none =>
    rw [hrefused] at hassemble
    exact hassemble.bind_ok hboot

/-- If nothing is wrong with any ROM, there is a machine. -/
theorem build_ok {slots : List RomSlot} (h : slots.findSome? RomSlot.refusal? = none)
    (budget : Budget) (j : Journal) : ∃ m, ((build slots budget).run.run j).1 = .ok m := by
  obtain ⟨m, _, hyields⟩ := yields_build slots budget
  have hbuild := hyields j
  rw [RomSlot.unlessRefused, h] at hbuild
  exact ⟨_, hbuild⟩

end Machine

end Breadboard
