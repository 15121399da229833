import Mathlib.Algebra.Group.Nat.Defs
import Breadboard.Proofs.Edges
/-
  When a machine can be built, and how it stands then.

  A ROM fits if its number of address lines is possible and it ends within the address space.  A machine is
  built just when all its ROMs fit; otherwise the first one that does not is the error, whatever comes after
  it.  Names, images and overlaps have no part in this (`Machine.build_outcome`).

  Starting up drives the interrupt wires high after their latches have been attached, lets the select wires
  go, and reads the reset vector.  A read drives read/write and the clock and leaves every select wire high,
  so what has been high before the processor starts is high afterwards, except for these two
  (`Layout.high_readPins`), and the end of the cycle lets the clock go low.
-/
namespace Breadboard

/-! ## ROMs that fit -/

/-- Either something is true of all elements of a list, or there is a first one of which it is not. -/
theorem all_or_first {α : Type} (p : α → Prop) : ∀ l : List α, (∀ a ∈ l, p a) ∨
    ∃ before a after, l = before ++ a :: after ∧ (∀ b ∈ before, p b) ∧ ¬p a
  | [] => .inl fun _ ha => absurd ha List.not_mem_nil
  | a :: l => by
    by_cases ha : p a
    · rcases all_or_first p l with hall | ⟨before, b, after, rfl, hbefore, hb⟩
      · exact .inl (List.forall_mem_cons.mpr ⟨ha, hall⟩)
      · exact .inr ⟨a :: before, b, after, rfl, List.forall_mem_cons.mpr ⟨ha, hbefore⟩, hb⟩
    · exact .inr ⟨[], a, l, rfl, fun _ hb => absurd hb List.not_mem_nil, ha⟩

/-- The number of cells that so many address lines reach, as a power. -/
theorem span_eq (lines : Nat) : span lines = 2 ^ lines :=
  Nat.one_shiftLeft lines

namespace RomSlot

/-- The ROM is possible as a chip, and within the address space when it is placed at its base. -/
structure Fits (slot : RomSlot) : Prop where
  least : 1 ≤ slot.addressLines
  most : slot.addressLines ≤ 16
  within : slot.base.toNat + 2 ^ slot.addressLines ≤ 65536

/-- What is said of a ROM that does not fit.  If its lines are possible, then it is too long for where it is
    placed. -/
def misfit (slot : RomSlot) : MachineError :=
  if 1 ≤ slot.addressLines ∧ slot.addressLines ≤ 16 then
    .romOutOfRange slot.name slot.base (2 ^ slot.addressLines)
  else .chip (.addressLines slot.addressLines)

instance (slot : RomSlot) : Decidable slot.Fits :=
  decidable_of_iff
    (1 ≤ slot.addressLines ∧ slot.addressLines ≤ 16 ∧ slot.base.toNat + 2 ^ slot.addressLines ≤ 65536)
    ⟨fun h => ⟨h.1, h.2.1, h.2.2⟩, fun h => ⟨h.least, h.most, h.within⟩⟩

/-- A ROM that fits is not refused, by either of the two checks that building makes. -/
theorem refusal?_of_fits {slot : RomSlot} (h : slot.Fits) : slot.refusal? = none := by
  have hleast := h.least
  have hmost := h.most
  have hwithin := h.within
  unfold refusal? maxAddressLines
  rw [span_eq, if_neg (by omega), if_neg (by omega)]

/-- A ROM that does not fit is refused, and for the reason that is given for it. -/
theorem refusal?_of_not_fits {slot : RomSlot} (h : ¬slot.Fits) : slot.refusal? = some slot.misfit := by
  unfold refusal? misfit maxAddressLines
  rw [span_eq]
  by_cases hlines : 1 ≤ slot.addressLines ∧ slot.addressLines ≤ 16
  · have hbeyond : 65536 < slot.base.toNat + 2 ^ slot.addressLines :=
      Nat.lt_of_not_le fun hwithin => h ⟨hlines.1, hlines.2, hwithin⟩
    rw [if_neg (by omega), if_pos hbeyond, if_pos hlines]
  · rw [if_pos (by omega), if_neg hlines]

/-- No ROM of a list is refused just when all of them fit. -/
theorem findSome?_refusal?_eq_none {slots : List RomSlot} :
    slots.findSome? refusal? = none ↔ ∀ slot ∈ slots, slot.Fits := by
  rw [List.findSome?_eq_none_iff]
  refine forall₂_congr fun slot _ => ⟨fun hnone => ?_, refusal?_of_fits⟩
  by_cases hfits : slot.Fits
  · exact hfits
  · rw [refusal?_of_not_fits hfits] at hnone
    cases hnone

/-- The first ROM that does not fit is refused, and those after it are not looked at. -/
theorem findSome?_refusal?_of_misfit {before after : List RomSlot} {slot : RomSlot}
    (hbefore : ∀ s ∈ before, s.Fits) (hslot : ¬slot.Fits) :
    (before ++ slot :: after).findSome? refusal? = some slot.misfit := by
  rw [List.findSome?_append, findSome?_refusal?_eq_none.mpr hbefore, Option.none_or,
    List.findSome?_cons, refusal?_of_not_fits hslot]

/-- Either all ROMs fit, or there is a first one that does not. -/
theorem fits_or_misfit (slots : List RomSlot) : (∀ slot ∈ slots, slot.Fits) ∨
    ∃ before slot after, slots = before ++ slot :: after ∧ (∀ s ∈ before, s.Fits) ∧ ¬slot.Fits :=
  all_or_first Fits slots

end RomSlot

/-! ## Levels -/

namespace Layout

open Fabric

variable {l : Layout} {c : Circuit}

/-- Of the wires that are high, a read leaves none low: read/write and the clock are driven high, and the
    select wires are let go in the end. -/
theorem high_readPins (h : l.Wired c.memory) (address : UInt16) {w : WireId}
    (hw : (c.memory.wire w).level = .high) :
    ((Circuit.readPins address c).2.memory.wire w).level = .high := by
  let addressed := c.onFabric (·.writeBus l.socket.address address.toNat)
  have hwired : l.Wired addressed.memory := h.of_sameBuild (sameBuild_writeBus ..)
  have hlevel : (addressed.memory.wire w).level = .high := hw
  obtain ⟨hquiet, -⟩ := orderly_access hwired (.refl _) (.read address 0)
    (readAddress_writeBus h.addressWidth address)
  have hread : (Circuit.readPins address c).2 = Circuit.driven l.socket.clock .high
      (Circuit.driven l.socket.rw (.ofBool (BusAccess.read address 0).reading) addressed) := by
    rw [Circuit.readPins, h.socket]
    rfl
  rw [hread, wire_of_quiet hquiet, level_settled, wire_setLevel]
  -- a wire of the decoder, the clock, read/write, or a wire that a read never drives
  by_cases houtput : w ∈ l.decoder.outputs
  · rw [if_pos houtput]
  · by_cases hclock : w = l.socket.clock
    · rw [if_neg houtput, if_pos hclock]
    · rw [if_neg houtput, if_neg hclock]
      by_cases hrw : w = l.socket.rw
      · rw [if_pos hrw]
        rfl
      · rw [if_neg hrw, hlevel]

end Layout

namespace Machine

/-! ## Starting the processor -/

/-- What a machine is made of, and what is on its wires, when it has been built. -/
structure Built (slots : List RomSlot) (budget : Budget) (m : Machine) : Prop where
  labels : Labelled m.board.lines
  enabled : ∀ slot ∈ slots, ∃ w ∈ enables slots, m.board.lines.lookup slot.enableLine = some w
  devices : m.board.devices = (layout slots).devices
  ram : m.ram = (layout slots).ram
  idle : ∀ w ∈ idleWires slots, (m.board.fabric.wire w).level = .high
  clock : (m.board.fabric.wire ⟨4⟩).level = .low
  panel : m.panel = { budget }

/-- The clock is not among the wires that are high while nothing goes on. -/
theorem clock_not_idle (slots : List RomSlot) : ∀ w ∈ idleWires slots, w ≠ ⟨4⟩ := by
  intro w hw heq
  rcases List.mem_append.mp hw with hw | hw
  · rw [heq] at hw
    exact absurd hw (by decide)
  · rw [heq] at hw
    exact (wired_wiredFabric slots).clock_not_output hw

variable {slots : List RomSlot} {budget : Budget} {m : Machine}

/-- Starting a processor reads the two bytes of its reset vector, which is all that it does to its world. -/
theorem world_poweredUp (p : Processor Fabric) : p.poweredUp.world =
    (Circuit.readPins (resetVector + 1) (Circuit.readPins resetVector p.cleared.world).2).2 := rfl

/-- The end of a cycle is the end of a cycle on the pins. -/
theorem world_endCycle (p : Processor Fabric) : p.endCycle.world = Circuit.endPins p.world := rfl

/-- A read of a wired circuit leaves it wired, its panel alone, and no wire low that was high. -/
theorem read_rested {c : Circuit} (hwired : (layout slots).Wired c.memory)
    (hidle : ∀ w ∈ idleWires slots, (c.memory.wire w).level = .high) (address : UInt16) :
    (layout slots).Wired (Circuit.readPins address c).2.memory ∧
      (Circuit.readPins address c).2.panel = c.panel ∧
      ∀ w ∈ idleWires slots, ((Circuit.readPins address c).2.memory.wire w).level = .high := by
  obtain ⟨f, hread, hbuild, -⟩ := hwired.mounted.readPins address
  refine ⟨?_, ?_, fun w hw => Layout.high_readPins hwired address (hidle w hw)⟩
  · rw [hread]
    exact hwired.of_sameBuild hbuild
  · rw [hread]

/-- The end of a cycle lets the clock go low, and no other wire. -/
theorem end_rested {c : Circuit} (hwired : (layout slots).Wired c.memory)
    (hidle : ∀ w ∈ idleWires slots, (c.memory.wire w).level = .high) :
    (Circuit.endPins c).panel = c.panel ∧
      (∀ w ∈ idleWires slots, ((Circuit.endPins c).memory.wire w).level = .high) ∧
      ((Circuit.endPins c).memory.wire ⟨4⟩).level = .low := by
  rw [hwired.mounted.endPins]
  refine ⟨rfl, fun w hw => ?_, ?_⟩
  · show ((c.memory.setLevel ⟨4⟩ .low).wire w).level = .high
    rw [Fabric.wire_setLevel, if_neg (clock_not_idle slots w hw)]
    exact hidle w hw
  · show ((c.memory.setLevel ⟨4⟩ .low).wire ⟨4⟩).level = .low
    rw [Fabric.wire_setLevel, if_pos rfl]

/-- Two reads and the end of a cycle later, the wires are at rest and the clock is low. -/
theorem started_rested {p : Processor Fabric} (hwired : (layout slots).Wired p.cleared.world.memory)
    (hidle : ∀ w ∈ idleWires slots, (p.cleared.world.memory.wire w).level = .high) :
    p.poweredUp.endCycle.world.panel = p.cleared.world.panel ∧
      (∀ w ∈ idleWires slots, (p.poweredUp.endCycle.world.memory.wire w).level = .high) ∧
      (p.poweredUp.endCycle.world.memory.wire ⟨4⟩).level = .low := by
  obtain ⟨hwired₁, hpanel₁, hidle₁⟩ := read_rested hwired hidle resetVector
  obtain ⟨hwired₂, hpanel₂, hidle₂⟩ := read_rested hwired₁ hidle₁ (resetVector + 1)
  rw [world_endCycle, world_poweredUp]
  obtain ⟨hpanel, hidle', hclock⟩ := end_rested hwired₂ hidle₂
  exact ⟨hpanel.trans (hpanel₂.trans hpanel₁), hidle', hclock⟩

/-- A machine that is ready has been built when its processor has been powered up: the reset vector has been
    read, and the clock is low again. -/
theorem built_of_ready (h : Ready slots budget m) :
    Built slots budget (m.withProcessor m.processor.poweredUp.endCycle) := by
  have hwired : (layout slots).Wired m.processor.cleared.world.memory :=
    (wired_wiredFabric slots).of_sameBuild h.build
  have hcleared : m.processor.cleared.world.panel = { budget } := by
    show { m.panel with requests := {} } = _
    rw [h.panel]
  have hstarted := started_rested hwired h.idle
  rw [hcleared] at hstarted
  generalize m.processor.poweredUp.endCycle = p at hstarted
  obtain ⟨hpanel, hidle, hclock⟩ := hstarted
  exact ⟨h.labels, h.enabled, h.devices, h.ram, hidle, hclock, hpanel⟩

end Machine

/-- What comes of a computation that builds, when the journal is this one. -/
def Building.outcome {α : Type} (x : Building α) (j : Journal) : Except MachineError α :=
  (x.run.run j).1

/-! ## How a machine stands -/

/-- The chip that a slot asks for, whatever wire it is on. -/
structure RomSlot.Becomes (slot : RomSlot) (rom : Rom) : Prop where
  name : rom.name = slot.name
  capacity : rom.capacity = 2 ^ slot.addressLines
  /-- The leading bytes of the image, then zeros. -/
  bytes : rom.cells.toList = slot.image.toList.takeD (2 ^ slot.addressLines) 0

/-- Where a chip answers that has been made for a slot, on the wire of the chip. -/
def RomSlot.place (slot : RomSlot) (rom : Rom) : Window where
  base := slot.base
  length := 2 ^ slot.addressLines
  enable := rom.enable

/-- The leading elements of a list, one by one, with a value for those that are missing. -/
theorem takeD_eq_map_range {α : Type} (v : α) : ∀ (n : Nat) (l : List α),
    l.takeD n v = (List.range n).map (l.getD · v)
  | 0, _ => rfl
  | n + 1, l => by
    rw [List.takeD_succ, takeD_eq_map_range v n, List.range_succ_eq_map]
    cases l <;> simp [Function.comp_def]

/-- The chip that is made for a slot is the one it asks for: cell after cell, its contents are the image and
    then zeros. -/
theorem RomSlot.becomes_chip (slot : RomSlot) (enable : WireId) :
    slot.Becomes (slot.chip enable) where
  name := rfl
  capacity := span_eq slot.addressLines
  bytes := by
    rw [← span_eq, takeD_eq_map_range]
    refine List.map_congr_left fun a ha => ?_
    have hread : (slot.chip enable).cells.read a = slot.image.getD (a % span slot.addressLines) 0 :=
      Bank.read_ofBytes ..
    have hmod : a % span slot.addressLines = a := Nat.mod_eq_of_lt (List.mem_range.mp ha)
    rw [hread, hmod, Array.getD_eq_getD_getElem?, List.getD_eq_getElem?_getD, Array.getElem?_toList]

namespace Machine

/-- The wire that the board knows by this name has this level. -/
def Reads (m : Machine) (name : String) (level : Level) : Prop :=
  ∃ wire, m.board.line name = .ok wire ∧ (m.board.fabric.wire wire).level = level

/-- One RAM, a ROM for every slot and one decoder, in this order; the decoder has a window for every ROM, and
    the wires by which it selects a chip are high. -/
def Populated (slots : List RomSlot) (m : Machine) : Prop :=
  ∃ (roms : List Rom) (decoder : Decoder),
    m.board.devices = .ram m.ram :: roms.map .rom ++ [.decoder decoder] ∧
      List.Forall₂ RomSlot.Becomes slots roms ∧
      decoder.windows = List.zipWith RomSlot.place slots roms ∧
      decoder.ramSelect = m.ram.select ∧
      ∀ wire ∈ decoder.outputs, (m.board.fabric.wire wire).level = .high

/-- A machine that has been built, and has not run: its chips, the levels of its named wires, and a panel
    with nothing but the budget on it. -/
structure Stands (slots : List RomSlot) (budget : Budget) (m : Machine) : Prop where
  populated : Populated slots m
  clock : m.Reads Board.clockLine .low
  nmi : m.Reads Board.nmiLine .high
  irq : m.Reads Board.irqLine .high
  reset : m.Reads Board.resetLine .high
  ramSelect : m.Reads Board.ramSelectLine .high
  enables : ∀ slot ∈ slots, m.Reads slot.enableLine .high
  budget : m.panel.budget = budget
  requests : m.panel.requests = {}

variable {slots : List RomSlot} {budget : Budget} {m : Machine}

theorem reads_of_lookup {name : String} {wire : WireId} {level : Level}
    (hname : m.board.lines.lookup name = some wire) (hlevel : (m.board.fabric.wire wire).level = level) :
    m.Reads name level :=
  ⟨wire, by rw [Board.line, hname], hlevel⟩

/-- The chips of the ROMs, each on the wire that was laid for it. -/
def chips (slots : List RomSlot) : List Rom :=
  (slots.zip (enables slots)).map fun (slot, enable) => slot.chip enable

/-- Each slot has become its chip, in the order of the slots. -/
theorem becomes_chips (slots : List RomSlot) : List.Forall₂ RomSlot.Becomes slots (chips slots) := by
  have hentries : ∀ entries : List (RomSlot × WireId), List.Forall₂ RomSlot.Becomes
      (entries.map (·.1)) (entries.map fun (slot, enable) => slot.chip enable) := fun entries => by
    rw [List.forall₂_map_left_iff, List.forall₂_map_right_iff, List.forall₂_same]
    exact fun entry _ => entry.1.becomes_chip entry.2
  have hslots := hentries (slots.zip (enables slots))
  rwa [map_fst_zip_enables] at hslots

/-- Each window of the decoder has the base of its slot and the length of its chip. -/
theorem places_chips (slots : List RomSlot) :
    (layout slots).decoder.windows = List.zipWith RomSlot.place slots (chips slots) := by
  have hentries : ∀ entries : List (RomSlot × WireId),
      List.zipWith RomSlot.place (entries.map (·.1)) (entries.map fun (slot, enable) => slot.chip enable) =
        entries.map fun (slot, enable) => slot.window enable := fun entries => by
    rw [List.zipWith_map, List.zipWith_self]
    exact List.map_congr_left fun entry _ => by rw [RomSlot.place, ← span_eq]; rfl
  have hslots := hentries (slots.zip (enables slots))
  rw [map_fst_zip_enables] at hslots
  rw [chips, hslots, Layout.decoder, layout, List.map_map]
  rfl

/-- A machine that has been built is populated as it should be. -/
theorem populated_of_built (h : Built slots budget m) : Populated slots m := by
  refine ⟨chips slots, (layout slots).decoder, ?_, becomes_chips slots, places_chips slots, ?_, ?_⟩
  · rw [h.devices, h.ram, Layout.devices, chips]
    simp only [layout, List.map_map]
    rfl
  · rw [h.ram]
    rfl
  · exact fun wire hwire => h.idle wire (List.mem_append_right _ hwire)

/-- The decoder drives the wire of every ROM. -/
theorem mem_outputs_of_mem_enables {w : WireId} (hw : w ∈ enables slots) :
    w ∈ (layout slots).decoder.outputs := by
  rw [← romWires_eq] at hw
  obtain ⟨e, he, rfl⟩ := List.mem_map.mp hw
  refine Layout.mem_outputs.mpr (.inr ⟨e, he, ?_⟩)
  obtain ⟨slot, _, enable, _, rfl⟩ := mem_roms he
  rfl

theorem stands_of_built (h : Built slots budget m) : Stands slots budget m := by
  -- all idle wires are high: the interrupt inputs, and what the decoder selects with
  have hinput : ∀ kind, (m.board.fabric.wire (wire kind)).level = .high := fun kind =>
    h.idle _ (List.mem_append_left _ (by cases kind <;> decide))
  have houtput : ∀ w ∈ (layout slots).decoder.outputs, (m.board.fabric.wire w).level = .high :=
    fun w hw => h.idle w (List.mem_append_right _ hw)
  exact {
    populated := populated_of_built h
    clock := reads_of_lookup h.labels.clock h.clock
    nmi := reads_of_lookup h.labels.nmi (hinput .nmi)
    irq := reads_of_lookup h.labels.irq (hinput .irq)
    reset := reads_of_lookup h.labels.reset (hinput .reset)
    ramSelect := reads_of_lookup h.labels.ramSelect (houtput _ List.mem_cons_self)
    enables := fun slot hslot => by
      obtain ⟨w, hw, hlookup⟩ := h.enabled slot hslot
      exact reads_of_lookup hlookup (houtput w (mem_outputs_of_mem_enables hw))
    budget := by rw [h.panel]
    requests := by rw [h.panel] }

/-- If all ROMs fit, there is a machine, and it stands. -/
theorem outcome_of_fits (hfits : ∀ slot ∈ slots, slot.Fits) (budget : Budget) (j : Journal) :
    ∃ m, (build slots budget).outcome j = .ok m ∧ Stands slots budget m := by
  obtain ⟨m, hready, hyields⟩ := yields_build slots budget
  have hstands := stands_of_built (built_of_ready hready)
  have houtcome := hyields j
  rw [RomSlot.unlessRefused, RomSlot.findSome?_refusal?_eq_none.mpr hfits] at houtcome
  exact ⟨_, houtcome, hstands⟩

/-- The first ROM that does not fit is the error, whatever comes after it. -/
theorem outcome_of_misfit {before after : List RomSlot} {slot : RomSlot}
    (hbefore : ∀ s ∈ before, s.Fits) (hslot : ¬slot.Fits) (budget : Budget) (j : Journal) :
    (build (before ++ slot :: after) budget).outcome j = .error slot.misfit := by
  obtain ⟨m, _, hyields⟩ := yields_build (before ++ slot :: after) budget
  have houtcome := hyields j
  rw [RomSlot.unlessRefused, RomSlot.findSome?_refusal?_of_misfit hbefore hslot] at houtcome
  exact houtcome

/-- A machine comes only of ROMs that all fit, and then it stands. -/
theorem outcome_ok {j : Journal} (hm : (build slots budget).outcome j = .ok m) :
    (∀ slot ∈ slots, slot.Fits) ∧ Stands slots budget m := by
  rcases RomSlot.fits_or_misfit slots with hfits | ⟨before, slot, after, rfl, hbefore, hslot⟩
  · obtain ⟨built, hbuilt, hstands⟩ := outcome_of_fits hfits budget j
    rw [hm] at hbuilt
    cases hbuilt
    exact ⟨hfits, hstands⟩
  · rw [outcome_of_misfit hbefore hslot] at hm
    cases hm

/-- When a machine is built, which error it is if none is, and how it stands if one is. -/
theorem build_outcome (slots : List RomSlot) (budget : Budget) (j : Journal) :
    ((∃ m, (build slots budget).outcome j = .ok m) ↔ ∀ slot ∈ slots, slot.Fits) ∧
    (∀ before slot after, slots = before ++ slot :: after →
      (∀ s ∈ before, s.Fits) → ¬slot.Fits → (build slots budget).outcome j = .error slot.misfit) ∧
    (∀ reason, (build slots budget).outcome j ≠ .error (.board reason)) ∧
    ∀ m, (build slots budget).outcome j = .ok m → Stands slots budget m := by
  refine ⟨⟨?_, ?_⟩, ?_, ?_, ?_⟩
  · rintro ⟨m, hm⟩
    exact (outcome_ok hm).1
  · intro hfits
    obtain ⟨m, hm, -⟩ := outcome_of_fits hfits budget j
    exact ⟨m, hm⟩
  · rintro before slot after rfl hbefore hslot
    exact outcome_of_misfit hbefore hslot budget j
  · intro reason hboard
    -- there is a machine, or the error is that of a ROM; it is never one of the board
    rcases RomSlot.fits_or_misfit slots with hfits | ⟨before, slot, after, rfl, hbefore, hslot⟩
    · obtain ⟨m, hm, -⟩ := outcome_of_fits hfits budget j
      rw [hm] at hboard
      cases hboard
    · rw [outcome_of_misfit hbefore hslot, RomSlot.misfit] at hboard
      split at hboard <;> cases hboard
  · intro m hm
    exact (outcome_ok hm).2

/-- Two ROMs of one name, then one that sticks out of the address space, then one with no address lines. -/
theorem build_outcome_sticking_out :
    let low : RomSlot := { name := "a", image := #[1, 2, 3], base := 0x8000, addressLines := 1 }
    let high : RomSlot := { name := "a", image := #[], base := 0x8001, addressLines := 14 }
    let beyond : RomSlot := { name := "b", image := #[], base := 0xFFFF, addressLines := 1 }
    let unconnected : RomSlot := { name := "c", image := #[], base := 0, addressLines := 0 }
    (∃ m, (build [low, high] {}).outcome {} = .ok m ∧ Stands [low, high] {} m) ∧
    (build [low, high, beyond, unconnected] {}).outcome {} = .error (.romOutOfRange "b" 0xFFFF 2) := by
  intro low high beyond unconnected
  obtain ⟨m, hm⟩ := (build_outcome [low, high] {} {}).1.mpr (by decide)
  refine ⟨⟨m, hm, (build_outcome [low, high] {} {}).2.2.2 m hm⟩, ?_⟩
  exact (build_outcome [low, high, beyond, unconnected] {} {}).2.1 [low, high] beyond [unconnected] rfl
    (by decide) (by decide)

end Machine

end Breadboard
