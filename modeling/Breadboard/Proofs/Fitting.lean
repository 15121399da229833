import Mathlib.Data.List.TakeDrop
import Breadboard.Proofs.Discretion
import Breadboard.Proofs.Readiness
/-
  ROMs from files, and ROMs from bytes.

  A ROM that comes from a file is fitted to its chip when the file is read, and again when the chip is made;
  one that comes as bytes is fitted only then.  The number of its address lines is looked at as often.  None
  of this makes a difference: to fit what fits changes nothing (`Image.ofBytes_fitted`), so a chip is the
  same whether its image was fitted beforehand or not, and what depends on nothing else comes out the same
  (`Alike`), whatever has been reported on the way.  What remains of the difference is a file that cannot be
  read, or lines that a chip cannot have, which a description fails at before anything is built.
-/
namespace Breadboard

/-! ## Fitting -/

/-- Of a list that is too short, all elements are taken, and what is missing at the end is filled up. -/
theorem takeD_of_le {α : Type} (v : α) : ∀ {l : List α} {n : Nat}, l.length ≤ n →
    l.takeD n v = l ++ List.replicate (n - l.length) v
  | [], n, _ => List.takeD_nil n v
  | a :: l, n + 1, h => by
    rw [List.takeD_succ, List.tail_cons, takeD_of_le v (Nat.le_of_succ_le_succ h)]
    simp

namespace Image

/-- A file that can be read is fitted, whatever has been reported about it. -/
theorem fst_load {files : Files} {path : String} {bytes : Array UInt8}
    (hread : files path = .ok bytes) (capacity : Nat) (j : Journal) :
    ((load files path capacity).run j).1 = .ok (fitting bytes capacity) := by
  unfold load
  rw [hread, ← fst_ofBytes bytes capacity (j.record (.imageLoaded path bytes.size))]
  rfl

/-- Bytes that have been fitted are not changed by fitting them again. -/
theorem resize_resize (bytes : Array UInt8) (capacity : Nat) :
    resize (resize bytes capacity) capacity = resize bytes capacity := by
  have hexact := resize_exact (resize bytes capacity)
  rwa [size_resize] at hexact

/-- To fit what fits changes nothing, and nothing is reported, so that the journal is the same afterwards. -/
theorem ofBytes_fitted (bytes : Array UInt8) (capacity : Nat) (j : Journal) :
    (ofBytes (resize bytes capacity) capacity).run j =
      ({ bytes := resize bytes capacity, fit := .exact }, j) := by
  unfold ofBytes
  rw [if_pos (size_resize bytes capacity)]
  rfl

/-- Fitting takes the leading bytes, and adds zeros where there are too few. -/
theorem toList_resize (bytes : Array UInt8) (capacity : Nat) :
    (resize bytes capacity).toList = bytes.toList.takeD capacity 0 := by
  unfold resize
  -- long enough to be cut, or short enough to be filled up
  by_cases hlong : capacity ≤ bytes.size
  · rw [if_pos hlong, List.takeD_eq_take 0 hlong]
    simp
  · rw [if_neg hlong, takeD_of_le 0 (Nat.le_of_not_le hlong)]
    simp

end Image

/-! ## Buildings that come out alike -/

namespace Building

variable {α β : Type}

/-- The same comes of both, whatever journals they report to and whatever they report there. -/
def Alike (x y : Building α) : Prop :=
  ∀ j k, x.outcome j = y.outcome k

/-- A discreet computation is alike to itself under any two journals. -/
theorem Discreet.alike {x : Building α} (h : Discreet x) : Alike x x :=
  h.unobtrusive.same

/-- So are two computations that are known to yield the same. -/
theorem Yields.alike {x y : Building α} {r : Except MachineError α} (hx : Yields x r)
    (hy : Yields y r) : Alike x y :=
  fun j k => (hx j).trans (hy k).symm

/-- Likeness can be chained, with any journal in the middle. -/
theorem Alike.trans {x y z : Building α} (h : Alike x y) (h' : Alike y z) : Alike x z :=
  fun j k => (h j j).trans (h' j k)

/-- What follows on likes is alike, if it is so for every result they can have. -/
theorem Alike.bind {x y : Building α} {f g : α → Building β} (h : Alike x y)
    (hnext : ∀ a, Alike (f a) (g a)) : Alike (x >>= f) (y >>= g) := by
  intro j k
  have hfirst : (x.run.run j).1 = (y.run.run k).1 := h j k
  unfold outcome
  rw [ExceptT.run_bind, ExceptT.run_bind, fst_bind rfl, fst_bind hfirst.symm]
  -- with a result both go on, and with an error neither does
  cases (x.run.run j).1 with
  | ok a => exact hnext a _ _
  | error e => rfl

/-- If every element of a list brings its result, all of them do, in order. -/
theorem Yields.mapM {f : α → Building β} {as : List α} {bs : List β}
    (h : List.Forall₂ (fun a b => Yields (f a) (.ok b)) as bs) : Yields (as.mapM f) (.ok bs) := by
  induction h with
  | nil => exact yields_pure []
  | cons hfirst _ ih =>
    rw [List.mapM_cons]
    exact hfirst.bind_ok (ih.bind_ok (yields_pure _))

/-- If the ones before it bring results, the first error ends it, whatever comes after it. -/
theorem Yields.mapM_error {f : α → Building β} {before after : List α} {bs : List β} {a : α}
    {e : MachineError} (hbefore : List.Forall₂ (fun a b => Yields (f a) (.ok b)) before bs)
    (h : Yields (f a) (.error e)) : Yields ((before ++ a :: after).mapM f) (.error e) := by
  induction hbefore with
  | nil =>
    rw [List.nil_append, List.mapM_cons]
    exact h.bind_error
  | cons hfirst _ ih =>
    rw [List.cons_append, List.mapM_cons]
    exact hfirst.bind_ok ih.bind_error

/-- Two lists of buildings that are alike one by one are alike as a whole. -/
theorem Alike.mapM {γ : Type} {f : α → Building γ} {g : β → Building γ} {as : List α} {bs : List β}
    (h : List.Forall₂ (fun a b => Alike (f a) (g b)) as bs) : Alike (as.mapM f) (bs.mapM g) := by
  induction h with
  | nil => exact fun _ _ => rfl
  | cons hfirst _ ih =>
    rw [List.mapM_cons, List.mapM_cons]
    exact hfirst.bind fun c => ih.bind fun rest _ _ => rfl

end Building

/-! ## Machines -/

namespace RomSlot

/-- The ROM with its image fitted beforehand, as it comes out of a file. -/
def fitted (slot : RomSlot) : RomSlot :=
  { slot with image := Image.resize slot.image (span slot.addressLines) }

end RomSlot

namespace Machine

open Building

/-- The chip of a ROM is the same whether its image was fitted beforehand or not; the warning is not, but
    nobody asks for it. -/
theorem alike_make (slot : RomSlot) (address data : BusId) (enable : WireId) :
    Alike (liftM (Rom.make slot.name slot.fitted.image slot.addressLines address data enable))
      (liftM (Rom.make slot.name slot.image slot.addressLines address data enable)) := by
  intro j k
  have hmade : ((Rom.make slot.name slot.fitted.image slot.addressLines address data enable).run j).1 =
      ((Rom.make slot.name slot.image slot.addressLines address data enable).run k).1 := by
    rw [Rom.fst_make, Rom.fst_make, RomSlot.fitted, Image.resize_resize]
  exact congrArg Except.ok hmade

theorem alike_mapRom (address data : BusId) (slot : RomSlot) (enable : WireId) :
    Alike (mapRom address data slot.fitted enable) (mapRom address data slot enable) := by
  unfold mapRom
  exact (alike_make slot address data enable).bind fun made =>
    (discreet_placed slot enable made).alike

/-- The enable wires have their names from the ROMs, and do not depend on images. -/
theorem layEnables_fitted (slots : List RomSlot) (b : Board) :
    layEnables (slots.map RomSlot.fitted) b = layEnables slots b := by
  induction slots generalizing b with
  | nil => rfl
  | cons slot slots ih =>
    simp only [List.map_cons, layEnables, ih]
    rfl

/-- Step by step, the parts of the machine are the same. -/
theorem alike_assemble (slots : List RomSlot) :
    Alike (assemble (slots.map RomSlot.fitted)) (assemble slots) := by
  unfold assemble
  refine (discreet_lift Board.discreet_forProcessor).alike.bind fun bare => ?_
  simp only [layEnables_fitted, List.zip_map_left]
  refine (discreet_orElse ..).alike.bind fun address => ?_
  refine (discreet_orElse ..).alike.bind fun data => ?_
  refine (discreet_orElse ..).alike.bind fun rw => ?_
  refine (discreet_orElse ..).alike.bind fun clock => ?_
  refine (discreet_orElse ..).alike.bind fun (ram, b) => ?_
  refine (Alike.mapM ?_).bind fun mapped =>
    (discreet_bind (discreet_orElse ..) fun plugged => discreet_pure _).alike
  rw [List.forall₂_map_left_iff, List.forall₂_same]
  exact fun entry _ => alike_mapRom address data entry.1 entry.2

/-- Thus the machine is the same, or the error. -/
theorem alike_build (slots : List RomSlot) (budget : Budget) :
    Alike (build (slots.map RomSlot.fitted) budget) (build slots budget) :=
  (alike_assemble slots).bind fun (b, ram) => (discreet_boot b ram budget).alike

end Machine

/-! ## Files -/

/-- What is wrong with a ROM of a description.  The lines are looked at before the file is read. -/
inductive Obstacle (files : Files) (rom : RomConfig) : MachineError → Prop where
  | lines (impossible : ¬(1 ≤ rom.addressLines.toNat ∧ rom.addressLines.toNat ≤ 16)) :
    Obstacle files rom (.chip (.addressLines rom.addressLines.toNat))
  | file {reason : FileError} (least : 1 ≤ rom.addressLines.toNat) (most : rom.addressLines.toNat ≤ 16)
      (unreadable : files rom.path = .error reason) :
    Obstacle files rom (.chip (.imageLoad rom.path reason))

/-- A ROM of a description, with the bytes of its file as they are. -/
structure Loads (files : Files) (rom : RomConfig) (slot : RomSlot) : Prop where
  least : 1 ≤ rom.addressLines.toNat
  most : rom.addressLines.toNat ≤ 16
  read : files rom.path = .ok slot.image
  name : slot.name = rom.name
  base : slot.base = rom.base
  lines : slot.addressLines = rom.addressLines.toNat

/-- The check of address lines, in the words in which a description is judged. -/
theorem checkLines_possible {lines : Nat} (hleast : 1 ≤ lines) (hmost : lines ≤ 16) :
    checkLines lines = .ok () :=
  if_neg (by unfold maxAddressLines; omega)

theorem checkLines_impossible {lines : Nat} (h : ¬(1 ≤ lines ∧ lines ≤ 16)) :
    checkLines lines = .error (.addressLines lines) :=
  if_pos (by unfold maxAddressLines; omega)

namespace RomSlot

open Building

variable {files : Files} {rom : RomConfig} {slot : RomSlot} {e : MachineError}

/-- Something is wrong with a ROM of a description, or else it brings a slot. -/
theorem obstacle_or_loads (files : Files) (rom : RomConfig) :
    (∃ e, Obstacle files rom e) ∨ ∃ slot, Loads files rom slot := by
  by_cases hlines : 1 ≤ rom.addressLines.toNat ∧ rom.addressLines.toNat ≤ 16
  · cases hread : files rom.path with
    | error reason => exact .inl ⟨_, .file hlines.1 hlines.2 hread⟩
    | ok image =>
      exact .inr ⟨⟨rom.name, image, rom.base, rom.addressLines.toNat⟩, hlines.1, hlines.2, hread, rfl,
        rfl, rfl⟩
  · exact .inl ⟨_, .lines hlines⟩

theorem yields_obstacle (h : Obstacle files rom e) : Yields (ofFile files rom) (.error e) := by
  intro j
  unfold ofFile
  dsimp only
  cases h with
  | lines impossible =>
    rw [checkLines_impossible impossible]
    rfl
  | file least most unreadable =>
    rw [checkLines_possible least most]
    simp only [Image.load, unreadable]
    rfl

/-- If nothing is, its slot comes with a fitted image, be the fitting reported as a mismatch or not. -/
theorem yields_ofFile (h : Loads files rom slot) : Yields (ofFile files rom) (.ok slot.fitted) := by
  obtain ⟨name, image, base, lines⟩ := slot
  obtain ⟨hleast, hmost, hread, rfl, rfl, rfl⟩ := h
  unfold ofFile
  dsimp only
  rw [checkLines_possible hleast hmost]
  refine (yields_lift (Image.fst_load hread _)).bind_ok ?_
  dsimp only
  cases (Image.fitting image (span rom.addressLines.toNat)).fit with
  | exact => exact yields_pure _
  | mismatch expected actual => exact fun _ => rfl

/-- If nothing is in the way of any ROM, there is one slot for each. -/
theorem exists_loads {files : Files} : ∀ {roms : List RomConfig},
    (∀ rom ∈ roms, ∀ e, ¬Obstacle files rom e) → ∃ slots, List.Forall₂ (Loads files) roms slots
  | [], _ => ⟨[], .nil⟩
  | rom :: roms, h => by
    obtain ⟨slots, hslots⟩ := exists_loads fun r hr => h r (List.mem_cons_of_mem rom hr)
    obtain ⟨e, hrom⟩ | ⟨slot, hslot⟩ := obstacle_or_loads files rom
    · exact absurd hrom (h rom List.mem_cons_self e)
    · exact ⟨slot :: slots, .cons hslot hslots⟩

theorem forall₂_yields {files : Files} {roms : List RomConfig} {slots : List RomSlot}
    (h : List.Forall₂ (Loads files) roms slots) :
    List.Forall₂ (fun rom slot => Yields (ofFile files rom) (.ok slot)) roms (slots.map fitted) :=
  List.forall₂_map_right_iff.mpr (h.imp fun _ _ => yields_ofFile)

/-- A description whose ROMs all load yields their slots, with fitted images. -/
theorem yields_ofConfig {config : MachineConfig} {slots : List RomSlot}
    (h : List.Forall₂ (Loads files) config.roms slots) :
    Yields (ofConfig files config) (.ok (slots.map fitted)) :=
  .mapM (forall₂_yields h)

/-- Otherwise it yields the first thing that is wrong. -/
theorem yields_ofConfig_error {config : MachineConfig} {before after : List RomConfig}
    (hroms : config.roms = before ++ rom :: after) (hbefore : ∀ r ∈ before, ∀ e, ¬Obstacle files r e)
    (h : Obstacle files rom e) : Yields (ofConfig files config) (.error e) := by
  obtain ⟨slots, hslots⟩ := exists_loads hbefore
  unfold ofConfig
  rw [hroms]
  exact .mapM_error (forall₂_yields hslots) (yields_obstacle h)

end RomSlot

namespace Machine

open Building

/-- Building from a description comes to what building from the bytes of its files comes to.  The images are
    fitted one time more, and it makes no difference. -/
theorem alike_from_files {files : Files} {config : MachineConfig} {slots : List RomSlot}
    (h : List.Forall₂ (Loads files) config.roms slots) (budget : Budget) :
    Alike (RomSlot.ofConfig files config >>= (build · budget)) (build slots budget) := by
  have hread := (RomSlot.yields_ofConfig h).alike (yields_pure (slots.map RomSlot.fitted))
  have hbuilt := hread.bind fun slots => (discreet_build slots budget).alike
  rw [pure_bind] at hbuilt
  exact hbuilt.trans (alike_build slots budget)

/-- When a description comes to nothing, and that otherwise it comes to what the bytes of its files come to. -/
theorem build_from_files (files : Files) (config : MachineConfig) (budget : Budget) (j k : Journal) :
    ((∃ e, (RomSlot.ofConfig files config).outcome j = .error e) ↔
      ∃ rom ∈ config.roms, ∃ e, Obstacle files rom e) ∧
    (∀ before rom after e, config.roms = before ++ rom :: after →
      (∀ r ∈ before, ∀ e, ¬Obstacle files r e) → Obstacle files rom e →
      (RomSlot.ofConfig files config).outcome j = .error e) ∧
    ((∀ rom ∈ config.roms, ∀ e, ¬Obstacle files rom e) → ∃ slots,
      List.Forall₂ (Loads files) config.roms slots ∧
      (RomSlot.ofConfig files config >>= (build · budget)).outcome j = (build slots budget).outcome k ∧
      ∀ m, (build slots budget).outcome k = .ok m → Populated slots m) ∧
    ∀ bytes capacity, ∃ fitted, ((Image.ofBytes bytes capacity).run j).1.bytes = fitted ∧
      fitted.toList = bytes.toList.takeD capacity 0 ∧
      (Image.ofBytes fitted capacity).run k = ({ bytes := fitted, fit := .exact }, k) := by
  refine ⟨⟨?_, ?_⟩, ?_, ?_, ?_⟩
  · rintro ⟨e, he⟩
    -- an error means that something is wrong, since otherwise all ROMs would have loaded
    by_contra hnone
    push Not at hnone
    obtain ⟨slots, hslots⟩ := RomSlot.exists_loads hnone
    have hok : (RomSlot.ofConfig files config).outcome j = .ok (slots.map RomSlot.fitted) :=
      RomSlot.yields_ofConfig hslots j
    rw [hok] at he
    cases he
  · rintro ⟨rom, hrom, e, he⟩
    -- something is wrong somewhere, so there is a first ROM where it is
    obtain hall | ⟨before, first, after, hroms, hbefore, hfirst⟩ :=
      all_or_first (fun rom => ∀ e, ¬Obstacle files rom e) config.roms
    · exact absurd he (hall rom hrom e)
    · push Not at hfirst
      obtain ⟨reason, hreason⟩ := hfirst
      exact ⟨reason, RomSlot.yields_ofConfig_error hroms hbefore hreason j⟩
  · intro before rom after e hroms hbefore he
    exact RomSlot.yields_ofConfig_error hroms hbefore he j
  · intro hnone
    obtain ⟨slots, hslots⟩ := RomSlot.exists_loads hnone
    exact ⟨slots, hslots, alike_from_files hslots budget j k, fun m hm => (outcome_ok hm).2.populated⟩
  · intro bytes capacity
    refine ⟨Image.resize bytes capacity, ?_, Image.toList_resize bytes capacity,
      Image.ofBytes_fitted bytes capacity k⟩
    rw [Image.fst_ofBytes]
    rfl

/-- A file that is too long for its chip, one that is missing, and a chip with too many lines. -/
theorem build_from_files_missing :
    let files : Files := fun path => if path = "long" then .ok #[1, 2, 3] else .error .notFound
    let long : RomConfig := ⟨"A", "long", 0xFFFE, 1⟩
    let missing : RomConfig := ⟨"B", "missing", 0xFFFE, 1⟩
    let wide : RomConfig := ⟨"C", "long", 0, 17⟩
    (RomSlot.ofConfig files { roms := [long, missing, wide] }).outcome {} =
      .error (.chip (.imageLoad "missing" .notFound)) ∧
    (RomSlot.ofConfig files { roms := [long] } >>= (build · {})).outcome {} =
      (build [⟨"A", #[1, 2, 3], 0xFFFE, 1⟩] {}).outcome {} := by
  intro files long missing wide
  have hlong : ∀ e, ¬Obstacle files long e := by
    intro e he
    cases he with
    | lines impossible => exact impossible (by decide)
    | file least most unreadable => cases unreadable
  refine ⟨?_, ?_⟩
  · refine (build_from_files files _ {} {} {}).2.1 [long] missing [wide] _ rfl ?_ ?_
    · exact List.forall_mem_singleton.mpr hlong
    · exact .file (by decide) (by decide) rfl
  · obtain ⟨slots, hslots, hsame, -⟩ := (build_from_files files { roms := [long] } {} {} {}).2.2.1
      (List.forall_mem_singleton.mpr hlong)
    obtain ⟨⟨name, image, base, lines⟩, _, ⟨_, _, hread, rfl, rfl, rfl⟩, hnil, rfl⟩ :=
      List.forall₂_cons_left_iff.mp hslots
    cases hnil
    cases hread
    exact hsame

end Machine

end Breadboard
