import Breadboard.Proofs.Analyser
import Breadboard.Proofs.Doings
import Breadboard.Proofs.Faults
import Breadboard.Proofs.Oblivious
/-
  Which requests survive a cycle.

  An interrupt wire may be driven low at any time, also by a device that is called in the middle of an
  access.  The latch on the wire makes the request then and there, whatever else listens and however deep
  the call is nested (`moves_traced?`), and nothing that happens in a circuit takes a request back.  Only
  the processor does: a RESET takes back everything before its first access, and the entry of an
  interrupt takes back its own request after its last one.

  So every request that is made during a cycle is pending when the cycle is over, with one exception: the
  cycle that enters an interrupt ends with the request for it taken back, and a second one that came
  in meanwhile is taken back with the first.
-/
namespace Breadboard

namespace Fabric

/-- The latch of a request listens on a wire, for its going low.  There may be others there, before it or
    after it. -/
def Latched (wire : WireId) (kind : Request) (f : Fabric) : Prop :=
  .request kind ∈ (f.wire wire).onLow

variable {wire : WireId} {kind : Request}

theorem Latched.of_sameBuild {f g : Fabric} (h : f.Latched wire kind) (hfg : SameBuild f g) :
    g.Latched wire kind := by
  rw [Latched, hfg.onLow]
  exact h

/-- Listeners are added at the end, and none is ever taken away. -/
theorem Latched.listen {f : Fabric} (h : f.Latched wire kind) (w : WireId) (level : Level)
    (l : Listener) : (f.listen w level l).Latched wire kind := by
  rw [Latched, wire_listen]
  by_cases hw : wire = w
  · subst hw
    rw [if_pos rfl]
    cases level with
    | low => exact List.mem_append_left _ h
    | high => exact h
  · rw [if_neg hw]
    exact h

end Fabric

namespace Traced

variable {α β : Type}

/-- If it comes to an end, what has happened and what comes of it are related so.  Of calls that never end
    nothing is said. -/
def Brings (x : Traced α) (R : List Happening → α → Prop) : Prop :=
  ∀ a log, x = some (a, log) → R log a

theorem brings_pure {R : List Happening → α → Prop} {a : α} (h : R [] a) :
    Brings (pure a) R := by
  intro b log heq
  obtain ⟨rfl, rfl⟩ := Prod.mk.inj (Option.some.inj heq)
  exact h

theorem brings_note {R : List Happening → Unit → Prop} {h : Happening} (hR : R [h] ()) :
    Brings (note h) R := by
  intro b log heq
  obtain ⟨rfl, rfl⟩ := Prod.mk.inj (Option.some.inj heq)
  exact hR

theorem brings_silent {R : List Happening → α → Prop} {a : α} (h : R [] a) :
    Brings (silent (some a)) R := by
  intro b log heq
  obtain ⟨rfl, rfl⟩ := Prod.mk.inj (Option.some.inj heq)
  exact h

/-- What happens first comes first in the record.  The relation for the rest is about the whole record, with
    what came before put in front. -/
theorem Brings.bind {R : List Happening → α → Prop} {S : List Happening → β → Prop}
    {x : Traced α} {f : α → Traced β} (h : Brings x R)
    (hnext : ∀ a first, R first a → Brings (f a) fun rest b => S (first ++ rest) b) :
    Brings (x >>= f) S := by
  intro b log heq
  obtain ⟨⟨a, first⟩, ha, hrest⟩ := Option.bind_eq_some_iff.mp heq
  obtain ⟨⟨b', rest⟩, hb, hpair⟩ := Option.map_eq_some_iff.mp hrest
  obtain ⟨rfl, rfl⟩ := Prod.mk.inj hpair
  exact hnext a first (h a first ha) b' rest hb

end Traced

/-- Two things that are known of the same computation are known of it together. -/
theorem Traced.Brings.and {α : Type} {R S : List Happening → α → Prop} {x : Traced α}
    (h : x.Brings R) (h' : x.Brings S) : x.Brings fun log a => R log a ∧ S log a :=
  fun a log heq => ⟨h a log heq, h' a log heq⟩

/-! ## Within a call -/

namespace Circuit

open Fabric Traced

/-- A request is pending at the panel. -/
abbrev Pending (kind : Request) (c : Circuit) : Prop :=
  c.panel.requests.pending kind = true

/-- From one circuit to another, by way of what happens: the latch stays where it is, and if the request was
    pending or the wire has been driven low, then it is pending. -/
def Moves (wire : WireId) (kind : Request) (c : Circuit) (log : List Happening) (c' : Circuit) :
    Prop :=
  c.memory.Latched wire kind → c'.memory.Latched wire kind ∧
    (c.Pending kind ∨ (wire, .low) ∈ Happening.drives log → c'.Pending kind)

variable {wire : WireId} {kind : Request} {c c' c'' : Circuit} {first rest : List Happening}

theorem Moves.refl (c : Circuit) : Moves wire kind c [] c := by
  intro h
  refine ⟨h, ?_⟩
  rintro (hpending | hdriven)
  · exact hpending
  · cases hdriven

/-- One move after another is a move: if the wire has been driven low in either part, the request is pending
    at the end. -/
theorem Moves.trans (h : Moves wire kind c first c') (h' : Moves wire kind c' rest c'') :
    Moves wire kind c (first ++ rest) c'' := by
  intro hlatched
  obtain ⟨hlatched', hfirst⟩ := h hlatched
  obtain ⟨hlatched'', hrest⟩ := h' hlatched'
  refine ⟨hlatched'', fun hwhy => hrest ?_⟩
  rw [Happening.drives_append, List.mem_append] at hwhy
  -- pending from the beginning, driven in the first part, or driven in the second
  rcases hwhy with hpending | hdriven | hdriven
  · exact .inl (hfirst (.inl hpending))
  · exact .inl (hfirst (.inr hdriven))
  · exact .inr hdriven

/-- Nothing that is done to the fabric takes a request back. -/
theorem moves_onFabric (c : Circuit) {F : Fabric → Fabric}
    (hF : ∀ f : Fabric, f.Latched wire kind → (F f).Latched wire kind) :
    Moves wire kind c [] (c.onFabric F) := by
  intro h
  refine ⟨hF _ h, ?_⟩
  rintro (hpending | hdriven)
  · exact hpending
  · cases hdriven

/-- In particular whatever leaves the build as it is does not. -/
theorem moves_sameBuild (c : Circuit) {F : Fabric → Fabric} (hF : ∀ f, SameBuild f (F f)) :
    Moves wire kind c [] (c.onFabric F) :=
  moves_onFabric c fun f h => h.of_sameBuild (hF f)

/-- What is done to the panel is such a move, as long as it keeps what is pending. -/
theorem moves_onPanel (c : Circuit) {F : Panel → Panel}
    (hF : ∀ panel : Panel, panel.requests.pending kind = true →
      (F panel).requests.pending kind = true) :
    Moves wire kind c [] (c.onPanel F) := by
  intro h
  refine ⟨h, ?_⟩
  rintro (hpending | hdriven)
  · exact hF _ hpending
  · cases hdriven

/-- Another request does not take this one back. -/
theorem moves_raise (c : Circuit) (made : Request) :
    Moves wire kind c [] (c.onPanel (·.raise made)) :=
  moves_onPanel c fun panel h => (panel.requests.pending_raise made kind).mpr (.inr h)

/-- Nor does the countdown, which may stop the panel but leaves its requests. -/
theorem moves_countDown (c : Circuit) : Moves wire kind c [] (c.onPanel (·.countDown)) :=
  moves_onPanel c fun panel h => by
    rw [requests_countDown]
    exact h

/-- A driver whose calls are such moves.  This is what calls may rely on when they drive wires in turn. -/
def Faithful (wire : WireId) (kind : Request) (f : Tracer) : Prop :=
  ∀ w level c, (f w level c).Brings fun log x => Moves wire kind c log x.2

/-- What every step of a loop does, the loop does, by induction on the list. -/
theorem brings_foldlM {α : Type} {f : Circuit → α → Traced Circuit}
    (h : ∀ c a, (f c a).Brings (Moves wire kind c)) :
    ∀ (l : List α) (c : Circuit), (l.foldlM f c).Brings (Moves wire kind c)
  | [], c => brings_pure (.refl c)
  | a :: l, c => by
    rw [List.foldlM_cons]
    exact (h c a).bind fun c' first hfirst rest b hb =>
      hfirst.trans (brings_foldlM h l c' rest b hb)

variable {f : Tracer}

/-- Every action of a script is such a move.  The one that could matter drives a wire, and is one because
    the driver is faithful. -/
theorem moves_action (hf : Faithful wire kind f) (tag : String) (c : Circuit)
    (action : Action WireId BusId) : (action.traced f tag c).Brings (Moves wire kind c) := by
  cases action with
  | drive w level =>
    refine (hf w level c).bind fun x first hfirst => brings_pure ?_
    exact hfirst.trans (moves_onFabric x.2 fun _ h => h)
  | write bus value =>
    exact brings_silent (moves_sameBuild c fun _ => sameBuild_writeBus ..)
  | copy source target =>
    exact brings_silent (moves_sameBuild c fun _ => sameBuild_writeBus ..)
  | read bus name => exact brings_silent (moves_onFabric c fun _ h => h)
  | probe w name => exact brings_silent (moves_onFabric c fun _ h => h)
  | listen w level script =>
    exact brings_silent (moves_onFabric c fun f h => Latched.listen h w level _)

theorem moves_listener (hf : Faithful wire kind f) (c : Circuit) (l : Listener) :
    (l.traced f c).Brings (Moves wire kind c) := by
  cases l with
  | rom chip => exact brings_silent (moves_sameBuild c fun _ => sameBuild_writeBus ..)
  | ram chip =>
    exact brings_silent (moves_sameBuild c fun f => sameBuild_operate f chip)
  -- the decoder drives wires of its own, one after the other
  | select chip =>
    refine (hf _ _ c).bind fun x first hfirst => brings_pure ?_
    exact hfirst.trans (.refl x.2)
  | release chip =>
    simp only [Listener.traced]
    refine brings_foldlM (fun c w => ?_) chip.outputs c
    refine (hf w .high c).bind fun x first hfirst => brings_pure ?_
    exact hfirst.trans (.refl x.2)
  | request made => exact brings_silent (moves_raise c made)
  | countdown => exact brings_silent (moves_countDown c)
  | script counter s =>
    simp only [Listener.traced]
    split
    · -- the script counts its call and says so before it acts
      have hcounted : Moves wire kind c [] (c.onFabric fun f =>
          (f.setCounter counter (c.memory.counter counter + 1)).report (.fired s.tag)) :=
        moves_onFabric c fun _ h => h
      intro c' log heq
      exact hcounted.trans (brings_foldlM (moves_action hf s.tag) s.actions _ c' log heq)
    · exact brings_pure (.refl c)
  | watch name level address data => exact brings_silent (moves_onFabric c fun _ h => h)

/-- To call a listener is not to drive a wire. -/
theorem moves_call (wire : WireId) (kind : Request) (w : WireId) (level : Level) (place : Nat)
    (c : Circuit) :
    (Traced.note (.call w level place c.memory)).Brings fun log _ => Moves wire kind c log c :=
  brings_note (Moves.refl c)

/-- So are the calls of all listeners on a wire, in turn. -/
theorem moves_callAll (hf : Faithful wire kind f) (w : WireId) (level : Level) :
    ∀ (ls : List Listener) (place : Nat) (c : Circuit),
      (callAll f w level place ls c).Brings (Moves wire kind c)
  | [], _, c => brings_pure (.refl c)
  | l :: ls, place, c => by
    refine (moves_call wire kind w level place c).bind fun _ called hcalled => ?_
    refine (moves_listener hf c l).bind fun c' first hfirst rest c'' hrest => ?_
    exact hcalled.trans (hfirst.trans (moves_callAll hf w level ls (place + 1) c' rest c'' hrest))

/-- The latch makes its request when it is called. -/
theorem pending_latch (c : Circuit) (hlatched : c.memory.Latched wire kind) :
    (Listener.traced f c (.request kind)).Brings fun _ c' =>
      c'.memory.Latched wire kind ∧ c'.Pending kind :=
  brings_silent ⟨hlatched, (c.panel.requests.pending_raise kind kind).mpr (.inl rfl)⟩

/-- If the latch is among those that are called, the request is pending when all have been. -/
theorem pending_callAll (hf : Faithful wire kind f) (w : WireId) (level : Level) :
    ∀ (ls : List Listener) (place : Nat) (c : Circuit), .request kind ∈ ls →
      c.memory.Latched wire kind →
      (callAll f w level place ls c).Brings fun _ c' => c'.Pending kind
  | l :: ls, place, c, hmem, hlatched => by
    refine (moves_call wire kind w level place c).bind fun _ called _ => ?_
    rcases List.mem_cons.mp hmem with rfl | hmem
    · -- those after the latch do not take the request back
      refine (pending_latch c hlatched).bind fun c' first hfirst c'' rest hrest => ?_
      exact (moves_callAll hf w level ls (place + 1) c' c'' rest hrest hfirst.1).2 (.inl hfirst.2)
    · refine (moves_listener hf c l).bind fun c' first hfirst => ?_
      exact pending_callAll hf w level ls (place + 1) c' hmem (hfirst hlatched).1

/-- However deep calls are nested, they move circuits so.  By induction on the depth. -/
theorem moves_traced? (wire : WireId) (kind : Request) : ∀ n, Faithful wire kind (traced? n)
  | 0, _, _, _ => by
    intro x log heq
    cases heq
  | n + 1, w, level, c => by
    have hf := moves_traced? wire kind n
    have hset : Moves wire kind c [] (c.onFabric (·.setLevel w level)) :=
      moves_sameBuild c fun _ => sameBuild_setLevel ..
    let listeners := (c.memory.wire w).listeners level
    have hcalls := moves_callAll hf w level listeners 0 (c.onFabric (·.setLevel w level))
    -- if it is the wire of the latch that is driven low, the latch is among the listeners
    have hlatch : (callAll (traced? n) w level 0 listeners (c.onFabric (·.setLevel w level))).Brings
        fun _ c' => c.memory.Latched wire kind → (wire, Level.low) = (w, level) →
          c'.Pending kind := by
      intro c' log heq hlatched hwire
      obtain ⟨rfl, rfl⟩ := Prod.mk.inj hwire
      exact pending_callAll hf wire .low listeners 0 _ hlatched (hset hlatched).1 c' log heq
    refine (brings_note (R := fun log _ => log = [.drive w level]) rfl).bind fun _ first hfirst => ?_
    subst hfirst
    refine (hcalls.and hlatch).bind fun c' rest hrest => brings_pure fun hlatched => ?_
    obtain ⟨hafter, hpending⟩ := hset.trans hrest.1 hlatched
    refine ⟨hafter, ?_⟩
    rw [List.append_nil]
    rintro (hbefore | hdriven)
    · exact hpending (.inl hbefore)
    · rcases List.mem_cons.mp hdriven with hwire | hdriven
      · exact hrest.2 hlatched hwire
      · exact hpending (.inr hdriven)

/-- So are calls as they are made, with the depth that there is. -/
theorem moves_driven (wire : WireId) (kind : Request) (w : WireId) (level : Level) (c : Circuit) :
    Moves wire kind c (happenings w level c) (driven w level c) := by
  cases htraced : traced? maxDepth w level c with
  | some y =>
    obtain ⟨x, log⟩ := y
    obtain ⟨hhappenings, hdrive⟩ := happenings_eq htraced
    rw [hhappenings, driven, hdrive]
    exact moves_traced? wire kind maxDepth w level c x log htraced
  | none =>
    -- a call that never comes back leaves nothing but the level
    have hdrive : drive? maxDepth w level c = none := by
      rw [← result_traced?, htraced]
      rfl
    have hhappenings : happenings w level c = [] := by
      rw [happenings, htraced]
      rfl
    rw [hhappenings, driven, drive, hdrive]
    exact moves_sameBuild c fun _ => sameBuild_setLevel ..

end Circuit

/-! ## Within a cycle -/

namespace Analysed

open Circuit

variable {wire : WireId} {kind : Request}

/-- The latch is in its place, and if the wire has been driven low in what has been noted so far, then the
    request is pending. -/
structure Heard (wire : WireId) (kind : Request) (w : World Analysed) : Prop where
  latched : w.memory.fabric.Latched wire kind
  pending : (wire, .low) ∈ drives w →
    w.panel.requests.pending kind = true

/-- What is noted of an access is the move that the access makes. -/
theorem moves_transaction (wire : WireId) (kind : Request) (what : BusAccess) (rw : Level)
    (ready : Circuit) :
    Moves wire kind ready (transaction what rw ready).happenings
      (driven ready.memory.socket.clock .high (driven ready.memory.socket.rw rw ready)) :=
  (moves_driven wire kind ready.memory.socket.rw rw ready).trans
    (moves_driven wire kind ready.memory.socket.clock .high _)

theorem Heard.noted {w : World Analysed} (h : Heard wire kind w) {c : Circuit} {t : Transaction}
    (hmoves : Moves wire kind (bare w) t.happenings c) :
    Heard wire kind (attach c (w.memory.log ++ [t])) := by
  obtain ⟨hlatched, hpending⟩ := hmoves h.latched
  refine ⟨hlatched, fun hdriven => hpending ?_⟩
  change (wire, Level.low) ∈ (w.memory.log ++ [t]).flatMap Transaction.drives at hdriven
  rw [List.flatMap_append, List.mem_append, List.flatMap_singleton] at hdriven
  rcases hdriven with hearlier | hnow
  · exact .inl (h.pending hearlier)
  · exact .inr hnow

/-- What has been heard is still so after any traffic: every access is noted, and moves the circuit as
    noted.  By induction over the accesses. -/
theorem Heard.play {α : Type} (t : Traffic α) {w : World Analysed} (h : Heard wire kind w) :
    Heard wire kind (t.play w).2 := by
  induction t generalizing w with
  | done result => exact h
  | read address next ih =>
    -- putting the address on its bus comes before the access and is no call
    have hready : Moves wire kind (bare w) [] (addressed address (bare w)) :=
      moves_sameBuild (bare w) fun _ => Fabric.sameBuild_writeBus ..
    exact ih _ (h.noted (hready.trans (moves_transaction wire kind
      (.read address (readPins address (bare w)).1) .high (addressed address (bare w)))))
  | write address value next ih =>
    have haddressed : Moves wire kind (bare w) [] (addressed address (bare w)) :=
      moves_sameBuild (bare w) fun _ => Fabric.sameBuild_writeBus ..
    have hready : Moves wire kind (bare w) [] (supplied value (addressed address (bare w))) :=
      haddressed.trans (moves_sameBuild _ fun _ => Fabric.sameBuild_writeBus ..)
    exact ih (h.noted (hready.trans (moves_transaction wire kind (.write address value) .low
      (supplied value (addressed address (bare w))))))

end Analysed

namespace Processor

variable {wire : WireId} {i : Interrupt}

/-- A request that is made during a cycle survives it, unless the cycle enters the same interrupt. -/
theorem survives (p : Processor Fabric) (hlatched : p.world.memory.Latched wire i.request)
    (hserviced : p.world.panel.requests.serviced? ≠ some i.request)
    (hdriven : (wire, .low) ∈ Analysed.drives p.analysed.cycled.2.world) :
    p.cycled.2.world.panel.requests.pending i.request = true := by
  obtain ⟨α, t, before, after, -, hkeeps, hworld⟩ := p.analysed.world_cycled
  have hstart : Analysed.Heard wire i.request (p.analysed.world.onPanel before) :=
    ⟨hlatched, fun hnothing => by cases hnothing⟩
  have hpanel : p.cycled.2.world.panel = p.analysed.cycled.2.world.panel := by
    rw [← p.cycled_analysed.2]
    rfl
  rw [hworld] at hdriven
  rw [hpanel, hworld]
  exact hkeeps _ _ hserviced ((hstart.play t).pending hdriven)

/-- When an interrupt is to be serviced, a cycle runs BRK for it. -/
theorem cycled_of_serviced (p : Processor Fabric)
    (hserviced : p.world.panel.requests.serviced? = some i.request) :
    p.cycled = p.ran (.decode 0x00) (some i) p.registers.pc := by
  unfold cycled Requests.next?
  unfold Requests.serviced? at hserviced
  generalize p.world.panel.requests = r at hserviced
  obtain ⟨nmi, irq, reset⟩ := r
  revert hserviced
  cases i <;> cases nmi <;> cases irq <;> cases reset <;> simp [Interrupt.request]

/-- The entry of an interrupt cannot fail, and so it always gets to the point where it takes back its
    request. -/
theorem taken_back_ran (p : Processor Fabric) (start : UInt16) :
    (p.ran (.decode 0x00) (some i) start).2.world.panel.requests.pending i.request = false := by
  obtain ⟨extra, hextra, -⟩ := (Instruction.succeeds_execute (i := .decode 0x00) (by decide)
    (some i) start p.registers).play p.world
  have hperform : (p.perform ((Instruction.decode 0x00).execute (some i) start)).1 = .ok extra :=
    hextra
  unfold ran
  generalize p.perform ((Instruction.decode 0x00).execute (some i) start) = performed at hperform
  obtain ⟨outcome, q⟩ := performed
  obtain rfl : outcome = .ok extra := hperform
  show (q.world.panel.requests.clear i).pending i.request = false
  rw [Bool.eq_false_iff]
  intro hpending
  exact ((q.world.panel.requests.pending_clear i i.request).mp hpending).2 rfl

/-- The cycle that enters an interrupt ends with its request taken back, whatever came in meanwhile. -/
theorem taken_back (p : Processor Fabric)
    (hserviced : p.world.panel.requests.serviced? = some i.request) :
    p.cycled.2.world.panel.requests.pending i.request = false := by
  rw [p.cycled_of_serviced hserviced]
  exact p.taken_back_ran p.registers.pc

end Processor

/-! ## On a machine -/

namespace Fabric

/-- Nothing that is done to a fabric removes the latch. -/
theorem firm_latched (wire : WireId) (kind : Request) : Firm (Latched wire kind) where
  sameBuild hfg h := h.of_sameBuild hfg
  driven w level c h := (Circuit.moves_driven wire kind w level c h).1

/-- No listener that is put on a wire removes it either, so that the machine keeps its latches whatever is
    done. -/
theorem spares_latched (wire : WireId) (kind : Request) (doing : Doing) :
    doing.Spares (Latched wire kind) := by
  cases doing with
  | listen w level l => exact fun f h => h.listen w level l
  | script w level s => exact fun f h => Latched.listen h w level _
  | deed | pulse | drive => trivial

end Fabric

namespace Machine

/-- A machine that has been built, with whatever has been put on its wires and done to it, and the next
    cycle, in which the wire of an interrupt is driven low during some access.  The request is pending when
    the cycle is over, if the cycle did not enter this interrupt; if it did, the request is not pending. -/
theorem request_survives {slots : List RomSlot} {budget : Budget} {m : Machine} {j : Journal}
    (hbuild : ((build slots budget).run.run j).1 = .ok m) (doings : List Doing) (j₁ j₂ : Journal)
    (i : Interrupt) :
    let worked := ((undertakeAll doings m).run j₁).1
    let noted := worked.processor.analysed.cycled
    let result := (worked.processor.cycle.run j₂).1
    (noted.1 = result.1 ∧ noted.2.unanalysed = result.2) ∧
    ∀ wire, worked.board.lines.lookup (inputName i.request) = some wire →
      (wire, .low) ∈ Analysed.drives noted.2.world →
      (result.2.world.panel.requests.pending i.request = true ↔
        worked.panel.requests.serviced? ≠ some i.request) := by
  intro worked noted result
  have hresult : result = worked.processor.cycled := worked.processor.fst_cycle j₂
  have hfirm := Fabric.firm_latched (wire i.request) i.request
  -- the latch has been there since the machine was built
  have hwired : (wiredFabric slots).Latched (wire i.request) i.request := by
    rw [Fabric.Latched, (latches_wiredFabric slots).onLow]
    exact List.mem_singleton_self _
  obtain ⟨hbuilt, hlabels⟩ := firm_build hfirm hbuild hwired
  obtain ⟨hlatched, hlines⟩ := firm_undertakeAll hfirm doings hbuilt
    (fun doing _ => Fabric.spares_latched _ _ doing) j₁
  rw [hresult]
  refine ⟨worked.processor.cycled_analysed, fun w hline hdriven => ?_⟩
  have hname : worked.board.lines.lookup (inputName i.request) = some (wire i.request) := by
    rw [hlines]
    cases i with
    | nmi => exact hlabels.nmi
    | irq => exact hlabels.irq
  -- the name still stands for the wire that the latch is on
  obtain rfl : w = wire i.request := Option.some.inj (hline.symm.trans hname)
  constructor
  · intro hpending hserviced
    have hfalse := worked.processor.taken_back hserviced
    rw [hpending] at hfalse
    cases hfalse
  · intro hserviced
    exact worked.processor.survives hlatched hserviced hdriven

/-- A device that drives a wire low, once, when the clock goes high and the NMI vector is on the bus. -/
def intruder (wire : WireId) : Probe where
  tag := "dev"
  limit := some 1
  condition := some (({} : Socket).address, nmiVector.toNat)
  actions := [.drive wire .low]

/-- Puts the device on the clock, and requests an NMI. -/
def intrusion (wire : WireId) : List Doing :=
  [.script ({} : Socket).clock .high (intruder wire), .deed (.request .nmi)]

/-- A machine after that. -/
def intruded (m : Machine) (wire : WireId) : Machine :=
  ((undertakeAll (intrusion wire) m).run {}).1

/-- An IRQ that comes in while an NMI is entered is pending afterwards, though the device drives its wire in
    the middle of the read of the vector. -/
theorem request_survives_crossing : ∃ m, ((build [] {}).run.run {}).1 = .ok m ∧
    (m.intruded ⟨2⟩).panel.requests.serviced? = some .nmi ∧
      ((m.intruded ⟨2⟩).processor.cycle.run {}).1.2.world.panel.requests.pending .irq = true := by
  obtain ⟨m, hbuild, hserviced, hline, hdriven⟩ : ∃ m, ((build [] {}).run.run {}).1 = .ok m ∧
      (m.intruded ⟨2⟩).panel.requests.serviced? = some .nmi ∧
        (m.intruded ⟨2⟩).board.lines.lookup (inputName .irq) = some ⟨2⟩ ∧
        ((⟨2⟩ : WireId), Level.low) ∈
          Analysed.drives (m.intruded ⟨2⟩).processor.analysed.cycled.2.world :=
    exists_of_outcome (by decide +kernel)
  refine ⟨m, hbuild, hserviced, ?_⟩
  refine ((request_survives hbuild (intrusion ⟨2⟩) {} {} .irq).2 ⟨2⟩ hline hdriven).mpr ?_
  rw [show ((undertakeAll (intrusion ⟨2⟩) m).run {}).1 = m.intruded ⟨2⟩ from rfl, hserviced]
  decide

/-- An NMI that comes in while an NMI is entered is not, although its wire has been driven low in the
    cycle. -/
theorem request_lost : ∃ m, ((build [] {}).run.run {}).1 = .ok m ∧
    (m.intruded ⟨1⟩).board.lines.lookup (inputName .nmi) = some ⟨1⟩ ∧
      ((⟨1⟩ : WireId), Level.low) ∈
        Analysed.drives (m.intruded ⟨1⟩).processor.analysed.cycled.2.world ∧
      ((m.intruded ⟨1⟩).processor.cycle.run {}).1.2.world.panel.requests.pending .nmi = false :=
  exists_of_outcome (by decide +kernel)

end Machine

end Breadboard
