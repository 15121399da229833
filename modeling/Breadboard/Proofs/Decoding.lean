import Breadboard.Proofs.Observers
/-
  The chips during an access, with others looking on.

  The clock goes high when an address is on its bus and read/write says what is to be done.  Then one wire
  of the decoder is pulled low, the chip on it does its work, and all wires of the decoder are let go
  (`does_clock`).  Passive listeners may have been put on any of these wires; they come last on each of
  them, so they change nothing, and those on the clock see what all this has come to, `settled`.

  What is on the wires and buses then can be read off: the wires of the decoder are high, the address and
  read/write are what they were, and the data bus has the byte.
-/
namespace Breadboard

open Fabric Traced

namespace Layout

variable {l : Layout} {base f g : Fabric} {c : Circuit}

/-! ## Wires that are not the decoder's -/

/-- On every wire of the decoder there is a chip, which answers when the wire goes low. -/
theorem Wired.low_ne_nil (h : l.Wired base) {w : WireId} (hw : w ∈ l.decoder.outputs) :
    (base.wire w).onLow ≠ [] := by
  rcases mem_outputs.mp hw with rfl | ⟨e, he, rfl⟩
  · rw [h.ramLow]
    exact List.cons_ne_nil _ _
  · rw [h.romLow e he]
    exact List.cons_ne_nil _ _

/-- Hence read/write is none of the decoder's wires, for nobody listens there. -/
theorem Wired.rw_not_output (h : l.Wired base) : l.socket.rw ∉ l.decoder.outputs :=
  fun hw => h.low_ne_nil hw (h.rwSilent .low)

theorem Wired.clock_not_output (h : l.Wired base) : l.socket.clock ∉ l.decoder.outputs :=
  fun hw => h.low_ne_nil hw h.clockLow

/-- What the decoder selects is one of its wires. -/
theorem selected_mem (l : Layout) (address : UInt16) (reading : Bool) :
    l.decoder.selected address reading ∈ l.decoder.outputs := by
  cases reading with
  | false => exact List.mem_cons_self
  | true =>
    rw [selected_eq, mem_outputs]
    cases hfind : l.roms.find? (·.1.contains address) with
    | none => exact .inl rfl
    | some e => exact .inr ⟨e, List.mem_of_find?_eq_some hfind, rfl⟩

/-! ## The chip that is selected -/

/-- What the selected chip makes of a fabric on which an access has been presented.  It is selected by the
    address and by read/write, as they are then. -/
def served (l : Layout) (f : Fabric) : Fabric :=
  let address := f.readAddress l.socket.address
  let reading := (f.wire l.socket.rw).level.isHigh
  let selected := f.setLevel (l.decoder.selected address reading) .low
  match reading, l.roms.find? (·.1.contains address) with
  | true, some e => selected.answer e.2
  | _, _ => selected.operate l.ram

/-- A RAM takes no notice of counters and reports. -/
theorem quiet_operate (f : Fabric) (chip : Ram) : (f.operate chip).quiet = f.quiet.operate chip := by
  unfold Fabric.operate
  show (if (f.wire chip.rw).level.isHigh then _ else _ : Fabric).quiet =
    if (f.wire chip.rw).level.isHigh then _ else _
  split <;> rfl

/-- Passive listeners come after those of the base, on whatever wire. -/
theorem listeners_led (h : Overheard base f) {w : WireId} {level : Level} {first : List Listener}
    (hfirst : (base.wire w).listeners level = first) :
    ∃ ps, (f.wire w).listeners level = first ++ ps ∧ ∀ p ∈ ps, p.Passive := by
  obtain ⟨ps, hlisteners, hpassive⟩ := h.listeners w level
  rw [hfirst] at hlisteners
  exact ⟨ps, hlisteners, hpassive⟩

variable {W : WireId}

/-- A chip answers when its wire goes low, and those who look on come after it and are not on the clock. -/
theorem does_chip (n : Nat) {w : WireId} {chip : Listener} {ps : List Listener}
    (hlisteners : (f.wire w).listeners .low = chip :: ps) (hpassive : ∀ p ∈ ps, p.Passive)
    (h : c.memory.quiet = f.quiet)
    (hchip : ∀ c' : Circuit, c'.memory.quiet = (f.setLevel w .low).quiet →
      Does W .high (chip.traced (Circuit.traced? n) c') g [] []) :
    Does W .high (Circuit.traced? (n + 1) w .low c >>= fun x => pure x.2) g [(w, .low)] [] := by
  have hunwatched : ¬(w = W ∧ Level.low = .high) := fun heq => by cases heq.2
  refine Circuit.does_drive hlisteners h fun c' h' => ?_
  -- those who look on come second, and change nothing
  have hrest : ∀ c'' : Circuit, c''.memory.quiet = g.quiet →
      Does W .high (Circuit.callAll (Circuit.traced? n) w .low 1 ps c'') g [] [] := by
    intro c'' h''
    rw [← Circuit.chorus_unwatched hunwatched 1 ps.length g]
    exact Circuit.does_callAll w .low 1 hpassive h''
  have hall := Circuit.does_cons h' (hchip c' h') hrest
  rw [Circuit.chorus_unwatched hunwatched] at hall
  exact hall

/-- When the selected wire is driven low, the circuit becomes what the chip makes of it, and nothing else is
    driven. -/
theorem does_served (n : Nat) (h : l.Wired base) (ho : Overheard base f)
    (hc : c.memory.quiet = f.quiet) :
    let selected := l.decoder.selected (f.readAddress l.socket.address)
      (f.wire l.socket.rw).level.isHigh
    Does W .high (Circuit.traced? (n + 1) selected .low c >>= fun x => pure x.2) (l.served f)
      [(selected, .low)] [] := by
  intro selected
  have hram : (base.wire l.ram.select).listeners .low = [.ram l.ram] := h.ramLow
  -- with read/write low, or at an address outside all windows, it is the RAM
  have hoperate : selected = l.ram.select → l.served f = (f.setLevel selected .low).operate l.ram →
      Does W .high (Circuit.traced? (n + 1) selected .low c >>= fun x => pure x.2) (l.served f)
        [(selected, .low)] [] := by
    intro hselected hserved
    obtain ⟨ps, hlisteners, hpassive⟩ := listeners_led ho hram
    rw [hserved, hselected]
    refine does_chip n hlisteners hpassive hc fun c' h' => does_silent ?_
    show (c'.memory.operate l.ram).quiet = _
    rw [quiet_operate, h', quiet_operate]
  -- a write is for the RAM, and a read for the first ROM that answers, or else the RAM
  cases hreading : (f.wire l.socket.rw).level.isHigh with
  | false =>
    refine hoperate ?_ ?_
    · simp only [selected, hreading]
      rfl
    · simp only [served, selected, hreading]
  | true =>
    cases hfind : l.roms.find? (·.1.contains (f.readAddress l.socket.address)) with
    | none =>
      refine hoperate ?_ ?_
      · simp only [selected, hreading, selected_eq, hfind]
        rfl
      · simp only [served, selected, hreading, hfind]
    | some e =>
      have he : e ∈ l.roms := List.mem_of_find?_eq_some hfind
      have hrom : (base.wire e.1.enable).listeners .low = [.rom e.2] := h.romLow e he
      obtain ⟨ps, hlisteners, hpassive⟩ := listeners_led ho hrom
      have hselected : selected = e.1.enable := by
        simp only [selected, hreading, selected_eq, hfind]
        rfl
      have hserved : l.served f = (f.setLevel selected .low).answer e.2 := by
        simp only [served, selected, hreading, hfind]
      rw [hserved, hselected]
      refine does_chip n hlisteners hpassive hc fun c' h' => does_silent ?_
      show (c'.memory.answer e.2).quiet = ((f.setLevel e.1.enable .low).answer e.2).quiet
      have hquiet : ∀ f : Fabric, (f.answer e.2).quiet = f.quiet.answer e.2 := fun _ => rfl
      rw [hquiet, h', hquiet]

/-- A chip that has done its work has left the build as it was. -/
theorem sameBuild_served (l : Layout) (f : Fabric) : SameBuild f (l.served f) := by
  unfold served
  dsimp only
  split
  · exact (sameBuild_setLevel ..).trans (sameBuild_writeBus ..)
  · exact (sameBuild_setLevel ..).trans (sameBuild_operate ..)

/-! ## The rising edge -/

/-- A wire on which nobody listens but who looks on is driven, and nothing comes of it. -/
theorem does_lone (n : Nat) {w : WireId} {level : Level} (ho : Overheard base f)
    (hnobody : (base.wire w).listeners level = []) (hw : ¬(w = W ∧ level = .high))
    (hc : c.memory.quiet = f.quiet) :
    Does W .high (Circuit.traced? (n + 1) w level c >>= fun x => pure x.2) (f.setLevel w level)
      [(w, level)] [] := by
  obtain ⟨ps, hlisteners, hpassive⟩ := listeners_led ho hnobody
  have hall : ∀ k ∈ (f.wire w).listeners level, k.Passive := by
    rw [hlisteners]
    exact hpassive
  have halone := Circuit.does_alone (W := W) (L := .high) n hall hc
  rw [Circuit.chorus_unwatched hw] at halone
  exact halone

/-- The decoder lets wires go high, one after the other, and nobody answers.  By induction on the wires. -/
theorem does_release (n : Nat) : ∀ (ws : List WireId) {f : Fabric} {c : Circuit}, Overheard base f →
    (∀ w ∈ ws, (base.wire w).onHigh = []) → W ∉ ws → c.memory.quiet = f.quiet →
    Does W .high
      (ws.foldlM (fun c w => Circuit.traced? (n + 1) w .high c >>= fun x => pure x.2) c)
      (f.setLevels ws .high) (ws.map (·, .high)) []
  | [], f, c, _, _, _, hc => does_pure hc
  | w :: ws, f, c, ho, hsilent, hW, hc => by
    have hfirst : Does W .high (Circuit.traced? (n + 1) w .high c >>= fun x => pure x.2)
        (f.setLevel w .high) [(w, .high)] [] :=
      does_lone n ho (hsilent w List.mem_cons_self)
        (fun hw => hW (hw.1 ▸ List.mem_cons_self)) hc
    have hafter : Overheard base (f.setLevel w .high) := ho.of_sameBuild (sameBuild_setLevel ..)
    rw [List.foldlM_cons]
    exact hfirst.bind fun c' h' => does_release n ws hafter
      (fun v hv => hsilent v (List.mem_cons_of_mem w hv)) (fun hw => hW (List.mem_cons_of_mem w hw)) h'

/-- What the chips have made of a fabric when the clock has gone high and the decoder has let go. -/
def settled (l : Layout) (f : Fabric) : Fabric :=
  (l.served (f.setLevel l.socket.clock .high)).setLevels l.decoder.outputs .high

/-- The clock goes high: one wire is pulled low and all are let go, and then come those who look on. -/
theorem does_clock (n : Nat) (h : l.Wired base) (ho : Overheard base f)
    (hc : c.memory.quiet = f.quiet) : ∃ first second,
    Does l.socket.clock .high
      (Circuit.traced? (n + 2) l.socket.clock .high c >>= fun x => pure x.2) (l.settled f)
      ((l.socket.clock, .high) ::
        (l.decoder.selected (f.readAddress l.socket.address)
          ((f.setLevel l.socket.clock .high).wire l.socket.rw).level.isHigh, .low) ::
        l.decoder.outputs.map (·, .high))
      ((0, first) :: (1, second) ::
        (List.range' 2 ((f.wire l.socket.clock).onHigh.length - 2)).map
          fun k => (k, (l.settled f).quiet)) := by
  have hclock : (base.wire l.socket.clock).listeners .high = [.select l.decoder, .release l.decoder] :=
    h.clockHigh
  obtain ⟨ps, hlisteners, hpassive⟩ := listeners_led ho hclock
  have hpresented : Overheard base (f.setLevel l.socket.clock .high) :=
    ho.of_sameBuild (sameBuild_setLevel ..)
  have hserved : Overheard base (l.served (f.setLevel l.socket.clock .high)) :=
    hpresented.of_sameBuild (l.sameBuild_served _)
  let presented := f.setLevel l.socket.clock .high
  refine ⟨presented.quiet, (l.served presented).quiet, ?_⟩
  -- those who look on hear the third call and all later ones
  have hcount : (f.wire l.socket.clock).onHigh.length - 2 = ps.length := by
    have hlength : (f.wire l.socket.clock).onHigh.length = _ := congrArg List.length hlisteners
    rw [hlength, List.length_append]
    simp
  have hlookers : ∀ c' : Circuit, c'.memory.quiet = (l.settled f).quiet →
      Does l.socket.clock .high
        (Circuit.callAll (Circuit.traced? (n + 1)) l.socket.clock .high 2 ps c') (l.settled f) []
        ((List.range' 2 ps.length).map fun k => (k, (l.settled f).quiet)) := by
    intro c' h'
    rw [← Circuit.chorus_watched]
    exact Circuit.does_callAll l.socket.clock .high 2 hpassive h'
  have hreleased : ∀ c' : Circuit, c'.memory.quiet = (l.served presented).quiet →
      Does l.socket.clock .high
        (Listener.traced (Circuit.traced? (n + 1)) c' (.release l.decoder)) (l.settled f)
        (l.decoder.outputs.map (·, .high)) [] := by
    intro c' h'
    exact does_release n l.decoder.outputs hserved h.outputs_silent h.clock_not_output h'
  have hselected : ∀ c' : Circuit, c'.memory.quiet = presented.quiet →
      Does l.socket.clock .high
        (Listener.traced (Circuit.traced? (n + 1)) c' (.select l.decoder)) (l.served presented)
        [(l.decoder.selected (f.readAddress l.socket.address)
          (presented.wire l.socket.rw).level.isHigh, .low)] [] := by
    intro c' h'
    have haddress : c'.memory.readAddress l.socket.address = f.readAddress l.socket.address := by
      rw [readAddress, readBus, bus_of_quiet h']
      rfl
    have hrw : c'.memory.wire l.socket.rw = presented.wire l.socket.rw := wire_of_quiet h' _
    show Does _ _ (Circuit.traced? (n + 1) (l.decoder.selected
      (c'.memory.readAddress l.socket.address) (c'.memory.wire l.socket.rw).level.isHigh) .low c' >>=
        fun x => pure x.2) _ _ _
    rw [haddress, hrw]
    exact does_served n h hpresented h'
  rw [hcount]
  -- selecting, letting go, and those who look on, in this order
  refine Circuit.does_drive hlisteners hc fun c' h' => ?_
  have hall := Circuit.does_cons h' (hselected c' h') fun c'' h'' =>
    Circuit.does_cons h'' (hreleased c'' h'') hlookers
  rw [Circuit.chorus_watched, Circuit.chorus_watched, List.append_nil] at hall
  exact hall

/-! ## What is on the wires and buses then -/

/-- After several wires have been set, these have that level, and the others have theirs. -/
theorem level_setLevels (level : Level) (w : WireId) : ∀ (ws : List WireId) (f : Fabric),
    ((f.setLevels ws level).wire w).level = if w ∈ ws then level else (f.wire w).level
  | [], f => by simp [setLevels]
  | v :: ws, f => by
    have hrest := level_setLevels level w ws (f.setLevel v level)
    show (((f.setLevel v level).setLevels ws level).wire w).level = _
    rw [hrest, wire_setLevel]
    by_cases hw : w ∈ ws
    · rw [if_pos hw, if_pos (List.mem_cons_of_mem v hw)]
    · by_cases hv : w = v
      · subst hv
        rw [if_neg hw, if_pos rfl, if_pos List.mem_cons_self]
      · have hmem : w ∉ v :: ws := by simp [hw, hv]
        rw [if_neg hw, if_neg hv, if_neg hmem]

theorem wires_operate (f : Fabric) (chip : Ram) : (f.operate chip).wires = f.wires := by
  unfold operate
  dsimp only
  split <;> rfl

/-- A chip that is selected changes no wire but its own. -/
theorem wire_served (l : Layout) (f : Fabric) {w : WireId} (hw : w ∉ l.decoder.outputs) :
    (l.served f).wire w = f.wire w := by
  have hselected : ∀ reading address, w ≠ l.decoder.selected address reading :=
    fun reading address heq => hw (heq ▸ l.selected_mem address reading)
  unfold served
  dsimp only
  split
  · show (f.setLevel _ .low).wire w = _
    rw [wire_setLevel, if_neg (hselected _ _)]
  · rw [wire, wires_operate]
    show (f.setLevel _ .low).wire w = _
    rw [wire_setLevel, if_neg (hselected _ _)]

/-- What is on the wires then: the decoder's and the clock are high, and all others are as they were. -/
theorem level_settled (l : Layout) (f : Fabric) (w : WireId) :
    ((l.settled f).wire w).level =
      if w ∈ l.decoder.outputs then .high
      else if w = l.socket.clock then .high else (f.wire w).level := by
  rw [settled, level_setLevels]
  by_cases hw : w ∈ l.decoder.outputs
  · rw [if_pos hw, if_pos hw]
  · rw [if_neg hw, if_neg hw, l.wire_served _ hw, wire_setLevel]
    by_cases hclock : w = l.socket.clock
    · rw [if_pos hclock, if_pos hclock]
    · rw [if_neg hclock, if_neg hclock]

/-- The address stays on its bus, for chips put their bytes on the other one. -/
theorem readAddress_settled (h : l.Wired base) (f : Fabric) :
    (l.settled f).readAddress l.socket.address = f.readAddress l.socket.address := by
  have hother : ∀ (g : Fabric) (v : Nat),
      (g.writeBus l.socket.data v).bus l.socket.address = g.bus l.socket.address := by
    intro g v
    rw [bus_writeBus, if_neg h.apart.symm]
  have hserved : ∀ g : Fabric, (l.served g).bus l.socket.address = g.bus l.socket.address := by
    intro g
    unfold served
    dsimp only
    -- a ROM answers, or the RAM works, and each only on the data bus
    split
    · rename_i e _ hfind
      rw [answer, (h.romPins e (List.mem_of_find?_eq_some hfind)).2, hother]
      rfl
    · unfold operate
      dsimp only
      rw [h.ramPins.2.1]
      split
      · rw [hother]
        rfl
      · rfl
  rw [settled, readAddress, readBus, bus, buses_setLevels]
  show UInt16.ofNat ((l.served _).bus l.socket.address).value = _
  rw [hserved]
  rfl

/-- What is on a bus then is what the chip has left there; letting go is a matter of wires. -/
theorem readBus_settled (l : Layout) (f : Fabric) (b : BusId) :
    (l.settled f).readBus b = (l.served (f.setLevel l.socket.clock .high)).readBus b := by
  rw [settled, readBus, bus, buses_setLevels]
  rfl

/-- Read/write is what it was when a chip looks at it, since neither the clock nor the wire of the chip is
    the same wire. -/
theorem level_selected (h : l.Wired base) (f : Fabric) (address : UInt16) (reading : Bool) :
    (((f.setLevel l.socket.clock .high).setLevel (l.decoder.selected address reading) .low).wire
      l.ram.rw).level = (f.wire l.socket.rw).level := by
  have hselected : l.socket.rw ≠ l.decoder.selected address reading :=
    fun heq => h.rw_not_output (heq ▸ l.selected_mem address reading)
  rw [h.ramPins.2.2, wire_setLevel, if_neg hselected, wire_setLevel, if_neg h.rw_ne_clock]

/-- A byte that is written stays on the data bus: the RAM takes it and puts none there. -/
theorem data_written (h : l.Wired base) {f : Fabric} (hlow : (f.wire l.socket.rw).level = .low) :
    (l.settled f).readBus l.socket.data = f.readBus l.socket.data := by
  have hpresented : ((f.setLevel l.socket.clock .high).wire l.socket.rw).level = .low := by
    rw [wire_setLevel, if_neg h.rw_ne_clock, hlow]
  rw [readBus_settled, served]
  simp only [hpresented]
  show (Fabric.operate _ l.ram).readBus l.socket.data = _
  rw [operate, level_selected h, hlow]
  rfl

/-- A chip that is read puts a byte on the data bus. -/
theorem data_read (h : l.Wired base) (hwidth : (f.bus l.socket.data).width = 8)
    (hhigh : (f.wire l.socket.rw).level = .high) :
    ∃ v : UInt8, (l.settled f).readBus l.socket.data = v.toNat := by
  have hpresented : ((f.setLevel l.socket.clock .high).wire l.socket.rw).level = .high := by
    rw [wire_setLevel, if_neg h.rw_ne_clock, hhigh]
  have hput : ∀ (g : Fabric) (v : UInt8), (g.bus l.socket.data).width = 8 →
      (g.writeBus l.socket.data v.toNat).readBus l.socket.data = v.toNat := by
    intro g v hg
    rw [readBus_writeBus, hg, byte_mod_span]
  rw [readBus_settled, served]
  simp only [hpresented]
  cases hfind : l.roms.find?
      (·.1.contains ((f.setLevel l.socket.clock .high).readAddress l.socket.address)) with
  | some e =>
    show ∃ v : UInt8, (Fabric.answer _ e.2).readBus l.socket.data = v.toNat
    rw [answer, (h.romPins e (List.mem_of_find?_eq_some hfind)).2]
    exact ⟨_, hput _ _ hwidth⟩
  | none =>
    show ∃ v : UInt8, (Fabric.operate _ l.ram).readBus l.socket.data = v.toNat
    rw [operate, level_selected h, hhigh, h.ramPins.2.1]
    exact ⟨_, hput _ _ hwidth⟩

end Layout

end Breadboard
