import Mathlib.Data.List.Forall2
import Breadboard.Proofs.Decoding
/-
  The wires during a step.

  An access is a drive of read/write and then of the clock.  Within the clock's call the decoder pulls one
  select wire low, that of a ROM only for a read inside its window, and lets all of them go; whoever
  else listens on the clock comes after that, with the address and the byte still on their buses.
  `Orderly` says all of this of what an analyser notes of an access.

  A cycle is at least one such access, and its end is one drive of the clock to low.  A cycle that fails
  has no end, so the clock is low after a step exactly if the step succeeded (`Machine.orderly_step`).
-/
namespace Breadboard

open Fabric Traced

/-! ## An access -/

namespace BusAccess

/-- Whether it is a read. -/
def reading : BusAccess → Bool
  | .read .. => true
  | .write .. => false

/-- The address of an access, be it a read or a write. -/
def address : BusAccess → UInt16
  | .read address _ | .write address _ => address

/-- The byte that is read or written. -/
def value : BusAccess → UInt8
  | .read _ v | .write _ v => v

end BusAccess

namespace Layout

/-- What is in front of a listener that is called when an access has been answered. -/
structure Presents (l : Layout) (what : BusAccess) (seen : Fabric) : Prop where
  address : seen.readAddress l.socket.address = what.address
  rw : (seen.wire l.socket.rw).level = .ofBool what.reading
  data : seen.readBus l.socket.data = what.value.toNat
  idle : ∀ w ∈ l.decoder.outputs, (seen.wire w).level = .high

/-- What happens in an access, with so many listeners on the rising edge of the clock.  The clock is driven
    high once, and while it is, one wire is pulled low once and all are let go; the listeners are called
    one after the other, each of them once, and those after the decoder see the access answered. -/
structure Orderly (l : Layout) (count : Nat) (what : BusAccess) (onRw onClock : List Happening) :
    Prop where
  drivesRw : Happening.drives onRw = [(l.socket.rw, .ofBool what.reading)]
  unheard : Happening.heard l.socket.clock .high onRw = []
  drivesClock : Happening.drives onClock = (l.socket.clock, .high) ::
    (l.decoder.selected what.address what.reading, .low) :: l.decoder.outputs.map (·, .high)
  called : (Happening.heard l.socket.clock .high onClock).map (·.1) = List.range count
  seen : ∀ x ∈ Happening.heard l.socket.clock .high onClock, 2 ≤ x.1 → l.Presents what x.2

variable {l : Layout} {base : Fabric} {c : Circuit}

/-- The decoder is called first, and it is called twice. -/
theorem two_le_onHigh (h : l.Wired base) {f : Fabric} (ho : Overheard base f) :
    2 ≤ (f.wire l.socket.clock).onHigh.length := by
  have hclock : (base.wire l.socket.clock).listeners .high = [.select l.decoder, .release l.decoder] :=
    h.clockHigh
  obtain ⟨ps, hlisteners, -⟩ := listeners_led ho hclock
  have hlength : (f.wire l.socket.clock).onHigh.length = _ := congrArg List.length hlisteners
  rw [hlength, List.length_append]
  exact Nat.le_add_right 2 ps.length

/-- The first two numbers, which are the decoder's, and then the others. -/
theorem range_eq {n : Nat} (h : 2 ≤ n) : List.range n = 0 :: 1 :: List.range' 2 (n - 2) := by
  obtain ⟨k, rfl⟩ := Nat.exists_eq_add_of_le' h
  rw [List.range_eq_range', List.range'_succ, List.range'_succ]
  rfl

/-- An access that has been answered as it should be is in front of everybody who is called then. -/
theorem presents_settled (h : l.Wired base) {f : Fabric} {what : BusAccess}
    (haddress : f.readAddress l.socket.address = what.address)
    (hrw : (f.wire l.socket.rw).level = .ofBool what.reading)
    (hdata : (l.settled f).readBus l.socket.data = what.value.toNat) :
    l.Presents what (l.settled f).quiet where
  address := by
    show (l.settled f).readAddress l.socket.address = _
    rw [readAddress_settled h, haddress]
  rw := by
    show ((l.settled f).wire l.socket.rw).level = _
    rw [level_settled, if_neg h.rw_not_output, if_neg h.rw_ne_clock, hrw]
  data := hdata
  idle w hw := by
    show ((l.settled f).wire w).level = _
    rw [level_settled, if_pos hw]

/-- An access whose buses are ready comes to its end, and if the byte is on its bus then, it is an
    orderly one. -/
theorem orderly_access (h : l.Wired base) (ho : Overheard base c.memory) (what : BusAccess)
    (haddress : c.memory.readAddress l.socket.address = what.address) :
    let onRw := Circuit.happenings l.socket.rw (.ofBool what.reading) c
    let begun := Circuit.driven l.socket.rw (.ofBool what.reading) c
    let onClock := Circuit.happenings l.socket.clock .high begun
    let answered := l.settled (c.memory.setLevel l.socket.rw (.ofBool what.reading))
    (Circuit.driven l.socket.clock .high begun).memory.quiet = answered.quiet ∧
      (answered.readBus l.socket.data = what.value.toNat →
        l.Orderly (c.memory.wire l.socket.clock).onHigh.length what onRw onClock) := by
  intro onRw begun onClock answered
  have hquietly : ¬(l.socket.rw = l.socket.clock ∧ Level.ofBool what.reading = .high) :=
    fun heq => h.rw_ne_clock heq.1
  -- read/write first: nobody is on it but who looks on
  obtain ⟨hbegun, hdrivesRw, hunheard⟩ :=
    Circuit.of_does (does_lone (Circuit.maxDepth - 1) ho (h.rwSilent _) hquietly rfl)
  let f := c.memory.setLevel l.socket.rw (.ofBool what.reading)
  have hf : Overheard base f := ho.of_sameBuild (sameBuild_setLevel ..)
  -- then the clock, within whose call everything else is driven
  obtain ⟨first, second, hclock⟩ := does_clock (Circuit.maxDepth - 2) h hf hbegun
  obtain ⟨hanswered, hdrivesClock, hheard⟩ := Circuit.of_does hclock
  have hlevel : (f.wire l.socket.rw).level = .ofBool what.reading := by
    rw [wire_setLevel, if_pos rfl]
  have hreading : ((f.setLevel l.socket.clock .high).wire l.socket.rw).level.isHigh = what.reading := by
    rw [wire_setLevel, if_neg h.rw_ne_clock, hlevel]
    cases what.reading <;> rfl
  have haddressbus : f.readAddress l.socket.address = what.address := haddress
  have hcount : (f.wire l.socket.clock).onHigh = (c.memory.wire l.socket.clock).onHigh :=
    (sameBuild_setLevel ..).onHigh _
  rw [hreading, haddressbus] at hdrivesClock
  rw [hcount] at hheard
  refine ⟨hanswered, fun hdata => ⟨hdrivesRw, hunheard, hdrivesClock, ?_, ?_⟩⟩
  · rw [hheard, range_eq (two_le_onHigh h ho)]
    simp [List.map_map, Function.comp_def]
  · rw [hheard]
    intro x hx hlater
    -- the first two calls are the decoder's, and the others all see the same
    rcases List.mem_cons.mp hx with rfl | hx
    · exact absurd hlater (by simp)
    · rcases List.mem_cons.mp hx with rfl | hx
      · exact absurd hlater (by simp)
      · obtain ⟨k, -, rfl⟩ := List.mem_map.mp hx
        exact presents_settled h haddress hlevel hdata

/-! ## A cycle -/

/-- The clock and all select wires are high. -/
structure Raised (l : Layout) (f : Fabric) : Prop where
  clock : (f.wire l.socket.clock).level = .high
  idle : ∀ w ∈ l.decoder.outputs, (f.wire w).level = .high

/-- When the chips are done with an access, the clock and all select wires are high. -/
theorem raised_settled (l : Layout) {f g : Fabric} (hg : g.quiet = (l.settled f).quiet) :
    l.Raised g where
  clock := by
    rw [wire_of_quiet hg, level_settled]
    split
    · rfl
    · rw [if_pos rfl]
  idle w hw := by rw [wire_of_quiet hg, level_settled, if_pos hw]

end Layout

/-- It is an access, and an orderly one.  The end of a cycle is no access. -/
def Transaction.IsOrderly (l : Layout) (count : Nat) : Transaction → Prop
  | .access what onRw onClock => l.Orderly count what onRw onClock
  | .endOfCycle _ => False

namespace Layout

/-- A circuit as it was built, with so many listeners on the rising edge of the clock, and nothing but
    orderly accesses noted so far. -/
structure Tidy (l : Layout) (base : Fabric) (count : Nat) (w : World Analysed) : Prop where
  overheard : Overheard base w.memory.fabric
  listening : (w.memory.fabric.wire l.socket.clock).onHigh.length = count
  log : ∀ t ∈ w.memory.log, t.IsOrderly l count

variable {l : Layout} {base : Fabric} {count : Nat} {w : World Analysed}

/-- One more orderly access, after which the clock and the select wires are high. -/
theorem tidy_access (h : l.Wired base) (hw : l.Tidy base count w) (what : BusAccess) {c : Circuit}
    (hbuild : SameBuild w.memory.fabric c.memory)
    (haddress : c.memory.readAddress l.socket.address = what.address)
    (hdata : (l.settled (c.memory.setLevel l.socket.rw (.ofBool what.reading))).readBus
      l.socket.data = what.value.toNat) :
    let pins := c.memory.socket
    let after := Circuit.driven pins.clock .high (Circuit.driven pins.rw (.ofBool what.reading) c)
    let noted := Circuit.transaction what (.ofBool what.reading) c
    l.Tidy base count (Analysed.attach after (w.memory.log ++ [noted])) ∧
      l.Raised after.memory := by
  intro pins after noted
  have ho : Overheard base c.memory := hw.overheard.of_sameBuild hbuild
  have hpins : pins = l.socket := ho.socket.trans h.socket
  obtain ⟨hanswered, horderly⟩ := orderly_access h ho what haddress
  have hlistening : (c.memory.wire l.socket.clock).onHigh.length = count :=
    (congrArg List.length (hbuild.onHigh _)).trans hw.listening
  have hafter : after.memory.quiet =
      (l.settled (c.memory.setLevel l.socket.rw (.ofBool what.reading))).quiet := by
    rw [← hanswered]
    simp only [after, hpins]
  have hnoted : noted.IsOrderly l count := by
    have hdone := horderly hdata
    rw [hlistening] at hdone
    simp only [noted, Circuit.transaction]
    rw [show c.memory.socket = l.socket from hpins]
    exact hdone
  -- no listener that is called in the access puts another one on a wire
  have hsettled : SameBuild c.memory
      (l.settled (c.memory.setLevel l.socket.rw (.ofBool what.reading))) :=
    (sameBuild_setLevel ..).trans ((sameBuild_setLevel ..).trans
      ((l.sameBuild_served _).trans (sameBuild_setLevels ..)))
  have hkept : SameBuild c.memory after.memory :=
    hsettled.trans (sameBuild_of_quiet hafter)
  refine ⟨⟨ho.of_sameBuild hkept, ?_, fun t ht => ?_⟩, raised_settled l hafter⟩
  · exact (congrArg List.length (hkept.onHigh _)).trans hlistening
  · rcases List.mem_append.mp ht with hearlier | hnow
    · exact hw.log t hearlier
    · obtain rfl := List.mem_singleton.mp hnow
      exact hnoted

/-- What a read answers is what is on the data bus when the clock is high. -/
theorem tidy_read (h : l.Wired base) (hw : l.Tidy base count w) (address : UInt16) :
    l.Tidy base count (Memory.read address w).2 ∧
      l.Raised (Memory.read address w).2.memory.fabric := by
  let c := Circuit.addressed address (Analysed.bare w)
  have hbuild : SameBuild w.memory.fabric c.memory := sameBuild_writeBus ..
  have ho : Overheard base c.memory := hw.overheard.of_sameBuild hbuild
  have hpins : w.memory.fabric.socket = l.socket := ho.socket.trans h.socket
  have haddressed : c.memory = w.memory.fabric.writeBus l.socket.address address.toNat := by
    rw [← hpins]
    rfl
  have haddress : c.memory.readAddress l.socket.address = address := by
    rw [haddressed]
    exact readAddress_writeBus ((hw.overheard.width _).trans h.addressWidth) address
  let presented := c.memory.setLevel l.socket.rw .high
  have hwidth : (presented.bus l.socket.data).width = 8 := (ho.width _).trans h.dataWidth
  have hhigh : (presented.wire l.socket.rw).level = .high := by rw [wire_setLevel, if_pos rfl]
  -- some chip puts a byte on the bus, whichever it is, and the processor takes it from there
  obtain ⟨v, hv⟩ := data_read h hwidth hhigh
  have hanswered := (orderly_access h ho (.read address v) haddress).1
  have hread : (Circuit.readPins address (Analysed.bare w)).1 = v := by
    have hpin : (Circuit.readPins address (Analysed.bare w)).1 = UInt8.ofNat
        ((Circuit.driven l.socket.clock .high
          (Circuit.driven l.socket.rw .high c)).memory.readBus l.socket.data) := by
      rw [← hpins]
      rfl
    have hbus : (Circuit.driven l.socket.clock .high
        (Circuit.driven l.socket.rw .high c)).memory.readBus l.socket.data = v.toNat :=
      (congrArg Bus.value (bus_of_quiet hanswered _)).trans hv
    rw [hpin, hbus, UInt8.ofNat_toNat]
  refine tidy_access h hw (.read address _) hbuild haddress ?_
  rw [hread]
  exact hv

/-- The byte that is written is on the data bus before the clock goes high. -/
theorem tidy_write (h : l.Wired base) (hw : l.Tidy base count w) (address : UInt16) (v : UInt8) :
    l.Tidy base count (Memory.write address v w) ∧
      l.Raised (Memory.write address v w).memory.fabric := by
  let c := Circuit.supplied v (Circuit.addressed address (Analysed.bare w))
  have hbuild : SameBuild w.memory.fabric c.memory :=
    (sameBuild_writeBus ..).trans (sameBuild_writeBus ..)
  have hpins : w.memory.fabric.socket = l.socket := hw.overheard.socket.trans h.socket
  let addressed := w.memory.fabric.writeBus l.socket.address address.toNat
  have hsupplied : c.memory = addressed.writeBus l.socket.data v.toNat := by
    simp only [addressed, ← hpins]
    rfl
  -- the byte goes onto another bus, so the address stays what it is
  have haddress : c.memory.readAddress l.socket.address = address := by
    rw [hsupplied, readAddress, readBus_writeBus_of_ne h.apart.symm]
    exact readAddress_writeBus ((hw.overheard.width _).trans h.addressWidth) address
  have hwidth : (addressed.bus l.socket.data).width = 8 :=
    ((sameBuild_writeBus ..).width _).trans ((hw.overheard.width _).trans h.dataWidth)
  have hlow : ((c.memory.setLevel l.socket.rw .low).wire l.socket.rw).level = .low := by
    rw [wire_setLevel, if_pos rfl]
  refine tidy_access h hw (.write address v) hbuild haddress ?_
  refine (data_written h hlow).trans ?_
  show c.memory.readBus l.socket.data = v.toNat
  rw [hsupplied, readBus_writeBus, hwidth, byte_mod_span]

/-- Traffic is orderly.  The clock and the select wires are high afterwards if there is an access, or if
    they have been high before. -/
theorem tidy_play {α : Type} (h : l.Wired base) (t : Traffic α) (hw : l.Tidy base count w)
    (hraised : t.Busy ∨ l.Raised w.memory.fabric) :
    l.Tidy base count (t.play w).2 ∧ l.Raised (t.play w).2.memory.fabric := by
  induction t generalizing w with
  | done result => exact ⟨hw, hraised.resolve_left id⟩
  | read address next ih =>
    obtain ⟨hread, hhigh⟩ := tidy_read h hw address
    exact ih (Memory.read address w).1 hread (.inr hhigh)
  | write address v next ih =>
    obtain ⟨hwritten, hhigh⟩ := tidy_write h hw address v
    exact ih hwritten (.inr hhigh)

/-- So is a cycle, whether it fails or not: every cycle has at least one access, and its traffic is
    orderly. -/
theorem tidy_cycled (h : l.Wired base) {p : Processor Analysed} (hp : l.Tidy base count p.world) :
    l.Tidy base count p.cycled.2.world ∧ l.Raised p.cycled.2.world.memory.fabric := by
  obtain ⟨α, t, before, after, hbusy, -, hworld⟩ := p.world_cycled
  have hbegun : l.Tidy base count (p.world.onPanel before) := ⟨hp.overheard, hp.listening, hp.log⟩
  obtain ⟨hplayed, hhigh⟩ := tidy_play h t hbegun (.inl hbusy)
  rw [hworld]
  exact ⟨⟨hplayed.overheard, hplayed.listening, hplayed.log⟩, hhigh.clock, hhigh.idle⟩

/-- At the end of a cycle the clock goes low, and nothing else happens: nobody is on it for that level but
    who looks on. -/
theorem ended (h : l.Wired base) (hw : l.Tidy base count w) (hraised : l.Raised w.memory.fabric) :
    let after := (Memory.endCycle w).memory
    (∃ onClock, after.log = w.memory.log ++ [.endOfCycle onClock] ∧
      Happening.drives onClock = [(l.socket.clock, .low)] ∧
      Happening.heard l.socket.clock .high onClock = []) ∧
    (after.fabric.wire l.socket.clock).level = .low ∧
    ∀ v ∈ l.decoder.outputs, (after.fabric.wire v).level = .high := by
  intro after
  have hpins : w.memory.fabric.socket = l.socket := hw.overheard.socket.trans h.socket
  have hunwatched : ¬(l.socket.clock = l.socket.clock ∧ Level.low = .high) := fun heq => by
    cases heq.2
  have hnobody : (base.wire l.socket.clock).listeners .low = [] := h.clockLow
  -- nobody listens to the clock going low, so driving it is all that happens
  obtain ⟨hdriven, hdrives, hheard⟩ := Circuit.of_does
    (does_lone (Circuit.maxDepth - 1) (c := Analysed.bare w) hw.overheard hnobody hunwatched rfl)
  have hfabric : after.fabric.quiet =
      (w.memory.fabric.setLevel l.socket.clock .low).quiet := by
    rw [← hdriven, ← hpins]
    rfl
  refine ⟨⟨_, rfl, ?_, ?_⟩, ?_, fun v hv => ?_⟩
  · rw [hpins]
    exact hdrives
  · rw [hpins]
    exact hheard
  · rw [wire_of_quiet hfabric, wire_setLevel, if_pos rfl]
  · have hv' : v ≠ l.socket.clock := fun heq => h.clock_not_output (heq ▸ hv)
    rw [wire_of_quiet hfabric, wire_setLevel, if_neg hv']
    exact hraised.idle v hv

end Layout

/-! ## A step -/

namespace Layout

/-- The wires that an access drives, with their levels and in their order. -/
def drives (l : Layout) (what : BusAccess) : List (WireId × Level) :=
  (l.socket.rw, .ofBool what.reading) :: (l.socket.clock, .high) ::
    (l.decoder.selected what.address what.reading, .low) :: l.decoder.outputs.map (·, .high)

variable {l : Layout} {base : Fabric} {count : Nat} {log : List Transaction}

/-- The clock goes high once in an access, and not low. -/
theorem count_drives (h : l.Wired base) (tape : List BusAccess) :
    (tape.flatMap l.drives).count (l.socket.clock, .high) = tape.length ∧
      (tape.flatMap l.drives).count (l.socket.clock, .low) = 0 := by
  have hrw : l.socket.rw ≠ l.socket.clock := h.rw_ne_clock
  have hselected : ∀ what : BusAccess,
      l.decoder.selected what.address what.reading ≠ l.socket.clock := fun what heq =>
    h.clock_not_output (heq ▸ l.selected_mem what.address what.reading)
  -- what the decoder drives is never the clock
  have hreleased : ∀ level,
      (l.decoder.outputs.map (·, Level.high)).count (l.socket.clock, level) = 0 := by
    intro level
    rw [List.count_eq_zero]
    intro hmem
    obtain ⟨w, hw, heq⟩ := List.mem_map.mp hmem
    obtain rfl : w = l.socket.clock := congrArg Prod.fst heq
    exact h.clock_not_output hw
  induction tape with
  | nil => exact ⟨rfl, rfl⟩
  | cons what tape ih =>
    obtain ⟨hrises, hfalls⟩ := ih
    constructor
    · rw [List.flatMap_cons, List.count_append, hrises, drives]
      simp [hrw, hselected, hreleased]
      omega
    · rw [List.flatMap_cons, List.count_append, hfalls, drives]
      simp [hrw, hselected, hreleased]

/-- The drives of orderly accesses are those of the accesses, one after the other. -/
theorem drives_orderly (hlog : ∀ t ∈ log, t.IsOrderly l count) :
    log.flatMap Transaction.drives = (log.filterMap Transaction.what?).flatMap l.drives := by
  induction log with
  | nil => rfl
  | cons t log ih =>
    have hrest := ih fun t' ht' => hlog t' (List.mem_cons_of_mem t ht')
    have ht := hlog t List.mem_cons_self
    cases t with
    -- the log so far has accesses only
    | endOfCycle onClock => exact ht.elim
    | access what onRw onClock =>
      have hdrives : Transaction.drives (.access what onRw onClock) = l.drives what := by
        rw [Transaction.drives, Transaction.happenings, Happening.drives_append, ht.drivesRw,
          ht.drivesClock]
        rfl
      rw [List.flatMap_cons, hdrives, hrest]
      rfl

/-- The listener in one place is called once, and has the access in front of it. -/
theorem Orderly.call {what : BusAccess} {onRw onClock : List Happening}
    (h : l.Orderly count what onRw onClock) {place : Nat} (hlater : 2 ≤ place)
    (hplace : place < count) : ∃ seen, l.Presents what seen ∧
      (Happening.heard l.socket.clock .high (onRw ++ onClock)).filter (·.1 = place) =
        [(place, seen)] := by
  have hmem : place ∈ (Happening.heard l.socket.clock .high onClock).map (·.1) := by
    rw [h.called]
    exact List.mem_range.mpr hplace
  have hnodup : ((Happening.heard l.socket.clock .high onClock).map (·.1)).Nodup := by
    rw [h.called]
    exact List.nodup_range
  obtain ⟨⟨_, seen⟩, hx, rfl⟩ := List.mem_map.mp hmem
  refine ⟨seen, h.seen _ hx hlater, ?_⟩
  rw [Happening.heard_append, h.unheard, List.nil_append]
  exact filter_of_nodup hnodup hx

/-- A listener after the decoder is called once for each access, in their order, with the access in front of
    it.  By induction over what has been noted. -/
theorem calls_orderly (hlog : ∀ t ∈ log, t.IsOrderly l count) {place : Nat} (hlater : 2 ≤ place)
    (hplace : place < count) :
    List.Forall₂ l.Presents (log.filterMap Transaction.what?)
      (Transaction.calls l.socket.clock .high place log) := by
  induction log with
  | nil => exact .nil
  | cons t log ih =>
    have hrest := ih fun t' ht' => hlog t' (List.mem_cons_of_mem t ht')
    have ht := hlog t List.mem_cons_self
    cases t with
    | endOfCycle onClock => exact ht.elim
    | access what onRw onClock =>
      obtain ⟨seen, hpresents, hcall⟩ := Orderly.call ht hlater hplace
      have hcalls : Transaction.calls l.socket.clock .high place (.access what onRw onClock :: log) =
          seen :: Transaction.calls l.socket.clock .high place log := by
        rw [Transaction.calls, List.flatMap_cons]
        show List.map _ ((Happening.heard l.socket.clock .high (onRw ++ onClock)).filter _) ++ _ = _
        rw [hcall]
        rfl
      rw [hcalls]
      exact .cons hpresents hrest

/-- What an analyser notes of a step, and the fabric it leaves: one orderly access for each one on the
    tape, and then the end of the cycle, if nothing failed.  `added` is how many listeners look on when the
    clock goes high; each of them is called once for each access. -/
structure OrderlyStep (l : Layout) (added : Nat) (tape : List BusAccess) (ok : Bool)
    (log : List Transaction) (after : Fabric) : Prop where
  accesses : ∃ accesses ends, log = accesses ++ ends ∧
    accesses.filterMap Transaction.what? = tape ∧ (∀ t ∈ accesses, t.IsOrderly l (2 + added)) ∧
    ends.map Transaction.drives = if ok then [[(l.socket.clock, .low)]] else []
  drives : log.flatMap Transaction.drives =
    tape.flatMap l.drives ++ if ok then [(l.socket.clock, .low)] else []
  rises : (log.flatMap Transaction.drives).count (l.socket.clock, .high) = tape.length
  falls : (log.flatMap Transaction.drives).count (l.socket.clock, .low) = if ok then 1 else 0
  calls : ∀ place, place < added → List.Forall₂ l.Presents tape
    (Transaction.calls l.socket.clock .high (2 + place) log)
  clock : (after.wire l.socket.clock).level = .ofBool (!ok)
  idle : ∀ w ∈ l.decoder.outputs, (after.wire w).level = .high

/-- After the accesses of a cycle nothing happens but its end. -/
theorem Tidy.orderlyStep (h : l.Wired base) {added : Nat} {w : World Analysed}
    (hw : l.Tidy base (2 + added) w) {ends : List Transaction} {ok : Bool} {f : Fabric}
    (hends : ends.filterMap Transaction.what? = [])
    (hdrives : ends.map Transaction.drives = if ok then [[(l.socket.clock, .low)]] else [])
    (hcalls : ∀ place, Transaction.calls l.socket.clock .high place ends = [])
    (hclock : (f.wire l.socket.clock).level = .ofBool (!ok))
    (hidle : ∀ v ∈ l.decoder.outputs, (f.wire v).level = .high) :
    l.OrderlyStep added ((w.memory.log ++ ends).filterMap Transaction.what?) ok
      (w.memory.log ++ ends) f := by
  let tape := w.memory.log.filterMap Transaction.what?
  have htape : (w.memory.log ++ ends).filterMap Transaction.what? = tape := by
    rw [List.filterMap_append, hends, List.append_nil]
  have hdriven : (w.memory.log ++ ends).flatMap Transaction.drives =
      tape.flatMap l.drives ++ if ok then [(l.socket.clock, .low)] else [] := by
    have hend : ends.flatMap Transaction.drives = if ok then [(l.socket.clock, .low)] else [] := by
      rw [List.flatMap_def, hdrives]
      cases ok <;> rfl
    rw [List.flatMap_append, drives_orderly hw.log, hend]
  obtain ⟨hrises, hfalls⟩ := count_drives h tape
  rw [htape]
  exact {
    accesses := ⟨w.memory.log, ends, rfl, rfl, hw.log, hdrives⟩
    drives := hdriven
    rises := by
      rw [hdriven, List.count_append, hrises]
      cases ok <;> simp
    falls := by
      rw [hdriven, List.count_append, hfalls]
      cases ok <;> simp
    calls := fun place hplace => by
      -- no observer is called at the end of a cycle
      have happend : Transaction.calls l.socket.clock .high (2 + place) (w.memory.log ++ ends) =
          Transaction.calls l.socket.clock .high (2 + place) w.memory.log := by
        have hnobody := hcalls (2 + place)
        rw [Transaction.calls] at hnobody
        rw [Transaction.calls, List.flatMap_append, hnobody, List.append_nil]
        rfl
      rw [happend]
      exact calls_orderly hw.log (Nat.le_add_right 2 place) (Nat.add_lt_add_left hplace 2)
    clock := hclock
    idle := hidle }

/-- A step of a processor in such a circuit. -/
theorem orderly_stepped (h : l.Wired base) {p : Processor Fabric}
    (hp : Overheard base p.world.memory) {added : Nat}
    (hadded : (p.world.memory.wire l.socket.clock).onHigh.length = 2 + added) :
    l.OrderlyStep added p.taped.stepped.2.world.memory.tape.reverse p.stepped.1.isOk
      p.analysed.stepped.2.world.memory.log p.stepped.2.world.memory := by
  have hbegun : l.Tidy base (2 + added) p.analysed.world := ⟨hp, hadded, fun t ht => by cases ht⟩
  obtain ⟨hcycled, hhigh⟩ := tidy_cycled h hbegun
  rw [← p.stepped_taped, ← p.stepped_analysed.1, ← p.stepped_analysed.2]
  unfold Processor.stepped
  generalize p.analysed.cycled = cycled at hcycled hhigh
  -- a cycle that fails has no end, and one that succeeds ends with the clock going low
  obtain ⟨fault | cycles, q⟩ := cycled
  · let log := q.world.memory.log
    have hfailed : l.OrderlyStep added ((log ++ []).filterMap Transaction.what?) false (log ++ [])
        q.world.memory.fabric :=
      hcycled.orderlyStep h rfl rfl (fun _ => rfl) hhigh.clock hhigh.idle
    rw [List.append_nil] at hfailed
    exact hfailed
  · obtain ⟨⟨onClock, hlog, hdrives, hunheard⟩, hclock, hidle⟩ := ended h hcycled hhigh
    have hcalls : ∀ place,
        Transaction.calls l.socket.clock .high place [.endOfCycle onClock] = [] := by
      intro place
      simp [Transaction.calls, Transaction.happenings, hunheard]
    have hdriven : [Transaction.endOfCycle onClock].map Transaction.drives =
        if true then [[(l.socket.clock, .low)]] else [] := congrArg (fun drives => [drives]) hdrives
    have hdone := hcycled.orderlyStep h rfl hdriven hcalls hclock hidle
    rw [← hlog] at hdone
    exact hdone

end Layout

namespace Machine

/-- The wire of the chip that answers an access: for a read the first ROM that covers the address, and the
    RAM for everything else. -/
def selectWire (slots : List RomSlot) : BusAccess → WireId
  | .read address _ =>
    (((slots.zip (enables slots)).find? (·.1.covers address)).map (·.2)).getD
      (layout slots).ram.select
  | .write .. => (layout slots).ram.select

/-- The decoder of a machine selects the wire of the chip that answers. -/
theorem selected_layout (slots : List RomSlot) (what : BusAccess) :
    (layout slots).decoder.selected what.address what.reading = selectWire slots what := by
  cases what with
  | write address v => rfl
  | read address v =>
    have hfind : (layout slots).roms.find? (·.1.contains address) =
        ((slots.zip (enables slots)).find? (·.1.covers address)).map
          fun e => (e.1.window e.2, e.1.chip e.2) := by
      simp only [layout, List.find?_map, Function.comp_def, Overlay.contains_window]
    show (layout slots).decoder.selected address true = selectWire slots (.read address v)
    rw [Layout.selected_eq, hfind, selectWire, Option.map_map]
    rfl

/-- Its wires are that of the RAM and those of the ROMs. -/
theorem outputs_layout (slots : List RomSlot) :
    (layout slots).decoder.outputs = (layout slots).ram.select :: enables slots := by
  have henables : (slots.zip (enables slots)).map (·.2) = enables slots :=
    List.map_snd_zip (by simp [enables])
  rw [← henables]
  simp only [Decoder.outputs, Layout.decoder, layout, List.map_map]
  rfl

/-- A machine that has been built, with listeners on its wires that look on, whatever has been done to it,
    and its next step, whether that fails or not.  An analyser on the processor's pins, which changes
    nothing, notes an orderly step. -/
theorem orderly_step {slots : List RomSlot} {budget : Budget} {m : Machine} {j : Journal}
    (hbuild : ((build slots budget).run.run j).1 = .ok m) {doings : List Doing}
    (hpassive : ∀ doing ∈ doings, doing.Passive) (j₁ j₂ : Journal) :
    let l := layout slots
    let worked := ((undertakeAll doings m).run j₁).1
    let noted := worked.processor.analysed.stepped
    let tape := worked.processor.taped.stepped.2.world.memory.tape.reverse
    let result := (worked.step.run j₂).1
    (noted.1 = result.1 ∧ worked.withProcessor noted.2.unanalysed = result.2) ∧
    Labelled worked.board.lines ∧
    (∀ what, l.decoder.selected what.address what.reading = selectWire slots what) ∧
    l.decoder.outputs = l.ram.select :: enables slots ∧
    (m.board.fabric.wire l.socket.clock).onHigh = [.select l.decoder, .release l.decoder] ∧
    ∃ added, (worked.board.fabric.wire l.socket.clock).onHigh =
        (m.board.fabric.wire l.socket.clock).onHigh ++ added ∧
      l.OrderlyStep added.length tape result.1.isOk noted.2.world.memory.log result.2.board.fabric := by
  intro l worked noted tape result
  have hwired : l.Wired (wiredFabric slots) := wired_wiredFabric slots
  have hresult : result =
      (worked.processor.stepped.1, worked.withProcessor worked.processor.stepped.2) := by
    rw [← worked.processor.fst_step j₂]
    rfl
  -- when the machine has been built nobody looks on yet; who does so later comes after the decoder
  obtain ⟨hbuilt, -⟩ := firm_build (firm_sameBuild (settled_wiredFabric slots)) hbuild (.refl _)
  have hclock : (m.board.fabric.wire l.socket.clock).onHigh = [.select l.decoder, .release l.decoder] :=
    (hbuilt.onHigh _).trans hwired.clockHigh
  have hfirm := firm_overheard (settled_wiredFabric slots)
  obtain ⟨hoverheard, hlabels⟩ := firm_build hfirm hbuild (.refl _)
  obtain ⟨hworked, hlines⟩ := firm_undertakeAll hfirm doings hoverheard
    (fun doing hdoing => (hpassive doing hdoing).spares _) j₁
  obtain ⟨added, hlisteners, -⟩ := hworked.listeners l.socket.clock .high
  have hadded : (worked.board.fabric.wire l.socket.clock).onHigh =
      (m.board.fabric.wire l.socket.clock).onHigh ++ added := by
    rw [hbuilt.onHigh]
    exact hlisteners
  have hlength : (worked.board.fabric.wire l.socket.clock).onHigh.length = 2 + added.length := by
    rw [hadded, hclock, List.length_append]
    rfl
  rw [hresult]
  refine ⟨⟨worked.processor.stepped_analysed.1, ?_⟩, ?_, selected_layout slots,
    outputs_layout slots, hclock, added, hadded, ?_⟩
  · exact congrArg worked.withProcessor worked.processor.stepped_analysed.2
  · rw [hlines]
    exact hlabels
  · exact Layout.orderly_stepped (p := worked.processor) hwired hworked hlength

/-- A ROM that is full of NOPs, up to the reset vector, which leads back to its start. -/
def idleRom : RomSlot where
  name := "IDLE"
  image := #[0xEA, 0xEA, 0xEA, 0xEA, 0xEA, 0xEA, 0xEA, 0xEA, 0xEA, 0xEA, 0xEA, 0xEA, 0xF0, 0xFF]
  base := 0xFFF0
  addressLines := 4

/-- What has to be done for somebody to look on when the clock goes high. -/
def lookingOn : List Doing :=
  [.listen ({} : Socket).clock .high
    (.watch "CLK2" .high ({} : Socket).address ({} : Socket).data)]

/-- A machine that somebody looks at. -/
def watched (m : Machine) : Machine :=
  ((undertakeAll lookingOn m).run {}).1

/-- The first step of a machine that executes NOPs reads one byte from its ROM, and drives six times:
    read/write, the clock, the ROM low, the RAM and the ROM high, and the clock low. -/
theorem orderly_step_watched : ∃ m, ((build [idleRom] {}).run.run {}).1 = .ok m ∧
    m.watched.processor.analysed.stepped.2.world.memory.log.flatMap Transaction.drives =
      [(⟨0⟩, .high), (⟨4⟩, .high), (⟨6⟩, .low), (⟨5⟩, .high), (⟨6⟩, .high), (⟨4⟩, .low)] := by
  obtain ⟨m, hbuild, htape, hok⟩ : ∃ m, ((build [idleRom] {}).run.run {}).1 = .ok m ∧
      m.watched.processor.taped.stepped.2.world.memory.tape = [.read 0xFFF0 0xEA] ∧
        (m.watched.step.run {}).1.1.isOk = true :=
    exists_of_outcome (by decide +kernel)
  have hpassive : ∀ doing ∈ lookingOn, doing.Passive := by
    intro doing hdoing
    obtain rfl := List.mem_singleton.mp hdoing
    trivial
  obtain ⟨-, -, -, -, -, added, -, hstep⟩ := orderly_step hbuild hpassive {} {}
  refine ⟨m, hbuild, ?_⟩
  have hdrives := hstep.drives
  rw [show ((undertakeAll lookingOn m).run {}).1 = m.watched from rfl, htape, hok] at hdrives
  rw [hdrives]
  decide +kernel

end Machine

end Breadboard
