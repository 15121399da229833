import Breadboard.Proofs.Analyser
import Breadboard.Proofs.Doings
/-
  Listeners that only look on.

  A passive listener reports what it sees, or says something to the panel, and leaves wires, buses and
  cells alone.  Apart from the counters of scripts and the list of what has been reported, a circuit is the
  same before and after it has been called; `Fabric.quiet` is a fabric without the two.

  `Traced.Does` says what a call does in these terms: the fabric it comes to, the wires it drives on the way,
  and what the listeners of the clock's rising edge see.  What several calls do follows from what each of
  them does (`Does.bind`), and the passive listeners of a wire add nothing but what they see
  (`does_callAll`).

  `Overheard` is a fabric that is built like another one, with passive listeners after those that are
  there.  Nothing that is done to a circuit makes it anything else.
-/
namespace Breadboard

/-! ## Passive listeners -/

namespace Fabric

/-- The fabric without the counters of scripts, and without what has been reported.  Passive listeners
    change nothing else. -/
def quiet (f : Fabric) : Fabric :=
  { f with counters := {}, events := [] }

theorem quiet_setLevel (f : Fabric) (w : WireId) (level : Level) :
    (f.setLevel w level).quiet = f.quiet.setLevel w level := rfl

section

variable {f g : Fabric} (h : g.quiet = f.quiet)
include h

/-- Fabrics that are the same when quiet have the same wires, and below the same buses and the same socket. -/
theorem wire_of_quiet (w : WireId) : g.wire w = f.wire w := by
  have hwire := congrArg (·.wire w) h
  exact hwire

theorem bus_of_quiet (b : BusId) : g.bus b = f.bus b := by
  have hbus := congrArg (·.bus b) h
  exact hbus

theorem socket_of_quiet : g.socket = f.socket := by
  have hsocket := congrArg Fabric.socket h
  exact hsocket

theorem sameBuild_of_quiet : SameBuild f g where
  onLow w := by rw [wire_of_quiet h]
  onHigh w := by rw [wire_of_quiet h]
  width b := by rw [bus_of_quiet h]
  socket := socket_of_quiet h

end

end Fabric

/-- The action looks at a bus or at a wire, and reports it. -/
def Action.Passive {ω β : Type} : Action ω β → Prop
  | .read .. | .probe .. => True
  | .drive .. | .write .. | .copy .. | .listen .. => False

/-- The listener leaves wires, buses and cells alone, whatever else it does. -/
def Listener.Passive : Listener → Prop
  | .watch .. | .request _ | .countdown => True
  | .script _ s => ∀ action ∈ s.actions, action.Passive
  | .rom _ | .ram _ | .select _ | .release _ => False

namespace Happening

/-- The calls of the listeners on a wire, with their places and with what they see, the counters and the
    reports apart. -/
def heard (wire : WireId) (level : Level) (log : List Happening) : List (Nat × Fabric) :=
  log.filterMap fun
    | .drive .. => none
    | .call w l place seen => if w = wire ∧ l = level then some (place, seen.quiet) else none

/-- What is heard of two records in a row is heard one after the other. -/
theorem heard_append (wire : WireId) (level : Level) (first rest : List Happening) :
    heard wire level (first ++ rest) = heard wire level first ++ heard wire level rest :=
  List.filterMap_append

end Happening

/-- The calls of the listener in one place of a wire's list, in all that has been noted. -/
def Transaction.calls (wire : WireId) (level : Level) (place : Nat) (log : List Transaction) :
    List Fabric :=
  log.flatMap fun t => ((Happening.heard wire level t.happenings).filter (·.1 = place)).map (·.2)

/-! ## What a call does -/

namespace Traced

variable {α β : Type}

theorem bind_some {x : Traced α} {k : α → Traced β} {a : α} {b : β} {first rest : List Happening}
    (hx : x = some (a, first)) (hk : k a = some (b, rest)) :
    (x >>= k) = some (b, first ++ rest) := by
  subst hx
  show Option.map _ (k a) = _
  rw [hk]
  rfl

/-- It comes to an end, with the fabric `f` but for what is not quiet; it drives the wires `driven`, and
    what the listeners on the wire see meanwhile is `heard`. -/
def Does (wire : WireId) (level : Level) (x : Traced Circuit) (f : Fabric)
    (driven : List (WireId × Level)) (heard : List (Nat × Fabric)) : Prop :=
  ∃ c log, x = some (c, log) ∧ c.memory.quiet = f.quiet ∧ Happening.drives log = driven ∧
    Happening.heard wire level log = heard

variable {W : WireId} {L : Level}

/-- A circuit that is handed on does nothing, if its fabric is the one in question. -/
theorem does_pure {c : Circuit} {f : Fabric} (h : c.memory.quiet = f.quiet) :
    Does W L (pure c) f [] [] :=
  ⟨c, [], rfl, h, rfl, rfl⟩

/-- So does a change that makes no difference to the quiet fabric. -/
theorem does_silent {c : Circuit} {f : Fabric} (h : c.memory.quiet = f.quiet) :
    Does W L (silent (some c)) f [] [] :=
  ⟨c, [], rfl, h, rfl, rfl⟩

/-- One call after the other: the wires driven and the calls heard of the first come before those of the
    second. -/
theorem Does.bind {x : Traced Circuit} {k : Circuit → Traced Circuit} {f g : Fabric}
    {driven driven' : List (WireId × Level)} {heard heard' : List (Nat × Fabric)}
    (h : Does W L x f driven heard)
    (hnext : ∀ c : Circuit, c.memory.quiet = f.quiet → Does W L (k c) g driven' heard') :
    Does W L (x >>= k) g (driven ++ driven') (heard ++ heard') := by
  obtain ⟨c, first, hx, hf, rfl, rfl⟩ := h
  obtain ⟨c', rest, hk, hg, rfl, rfl⟩ := hnext c hf
  exact ⟨c', first ++ rest, bind_some hx hk, hg, Happening.drives_append first rest,
    Happening.heard_append W L first rest⟩

theorem Does.note {x : Traced Circuit} {f : Fabric} {driven : List (WireId × Level)}
    {heard : List (Nat × Fabric)} (h : Does W L x f driven heard) (happening : Happening) :
    Does W L (Traced.note happening >>= fun _ => x) f (Happening.drives [happening] ++ driven)
      (Happening.heard W L [happening] ++ heard) := by
  obtain ⟨c, rest, hx, hf, rfl, rfl⟩ := h
  exact ⟨c, happening :: rest, bind_some rfl hx, hf, Happening.drives_append [happening] rest,
    Happening.heard_append W L [happening] rest⟩

end Traced

/-! ## What passive listeners do -/

namespace Circuit

open Traced

variable {W : WireId} {L : Level} {t : Tracer} {f : Fabric} {c : Circuit}

/-- A passive action drives nothing, and the fabric is the same when quiet. -/
theorem does_action {action : Action WireId BusId} (hpassive : action.Passive) (tag : String)
    (h : c.memory.quiet = f.quiet) : Does W L (action.traced t tag c) f [] [] := by
  cases action with
  | read | probe => exact does_silent h
  | drive | write | copy | listen => exact hpassive.elim

/-- The same for the actions of a script, by induction on them. -/
theorem does_actions (tag : String) : ∀ {actions : List (Action WireId BusId)} {c : Circuit},
    (∀ action ∈ actions, action.Passive) → c.memory.quiet = f.quiet →
    Does W L (actions.foldlM (fun c action => action.traced t tag c) c) f [] []
  | [], _, _, h => does_pure h
  | action :: actions, c, hpassive, h => by
    rw [List.foldlM_cons]
    refine (does_action (hpassive action List.mem_cons_self) tag h).bind fun c' h' => ?_
    exact does_actions tag (fun a ha => hpassive a (List.mem_cons_of_mem action ha)) h'

/-- Hence it is the same for every passive listener, a script that does not fire included. -/
theorem does_passive {l : Listener} (hpassive : l.Passive) (h : c.memory.quiet = f.quiet) :
    Does W L (l.traced t c) f [] [] := by
  cases l with
  | watch | request | countdown => exact does_silent h
  | script counter s =>
    simp only [Listener.traced]
    split
    · exact does_actions s.tag hpassive h
    · exact does_pure h
  | rom | ram | select | release => exact hpassive.elim

/-- What the listeners on a wire see if they all see the same: one entry for each, with its place in the
    list. -/
def chorus (wire : WireId) (level : Level) (W : WireId) (L : Level) (place count : Nat) (f : Fabric) :
    List (Nat × Fabric) :=
  if wire = W ∧ level = L then (List.range' place count).map fun k => (k, f.quiet) else []

/-- It is all of this if the wire and the level are the ones that are listened to. -/
theorem chorus_watched (place count : Nat) (f : Fabric) :
    chorus W L W L place count f = (List.range' place count).map fun k => (k, f.quiet) :=
  if_pos ⟨rfl, rfl⟩

/-- It is nothing if they are not. -/
theorem chorus_unwatched {wire : WireId} {level : Level} (h : ¬(wire = W ∧ level = L))
    (place count : Nat) (f : Fabric) : chorus wire level W L place count f = [] :=
  if_neg h

theorem chorus_nil (wire : WireId) (level : Level) (place : Nat) (f : Fabric) :
    chorus wire level W L place 0 f = [] := by
  unfold chorus
  split <;> rfl

theorem chorus_cons (wire : WireId) (level : Level) (place count : Nat) (f : Fabric) :
    chorus wire level W L place 1 f ++ chorus wire level W L (place + 1) count f =
      chorus wire level W L place (count + 1) f := by
  unfold chorus
  by_cases hwatched : wire = W ∧ level = L
  · simp [hwatched, List.range'_succ]
  · simp [hwatched]

/-- A call is heard with its place, as the fabric was when it came. -/
theorem heard_call (wire : WireId) (level : Level) (place : Nat) (h : c.memory.quiet = f.quiet) :
    Happening.heard W L [.call wire level place c.memory] =
      chorus wire level W L place 1 f := by
  unfold chorus
  by_cases hwatched : wire = W ∧ level = L
  · simp [Happening.heard, hwatched, h]
  · simp [Happening.heard, hwatched]

/-- One listener after the other, when it is known what the first one does. -/
theorem does_cons {wire : WireId} {level : Level} {place : Nat} {l : Listener}
    {ls : List Listener} {g g' : Fabric} {driven driven' : List (WireId × Level)}
    {heard heard' : List (Nat × Fabric)} (h : c.memory.quiet = f.quiet)
    (hfirst : Does W L (l.traced t c) g driven heard)
    (hrest : ∀ c' : Circuit, c'.memory.quiet = g.quiet →
      Does W L (callAll t wire level (place + 1) ls c') g' driven' heard') :
    Does W L (callAll t wire level place (l :: ls) c) g' (driven ++ driven')
      (chorus wire level W L place 1 f ++ (heard ++ heard')) := by
  rw [← heard_call wire level place h]
  exact (hfirst.bind hrest).note (.call wire level place c.memory)

/-- Passive listeners drive nothing and change nothing, and all of them see the same.  By induction on the
    list, with the quiet fabric for an invariant. -/
theorem does_callAll (wire : WireId) (level : Level) : ∀ {ls : List Listener} (place : Nat)
    {c : Circuit}, (∀ l ∈ ls, l.Passive) → c.memory.quiet = f.quiet →
    Does W L (callAll t wire level place ls c) f [] (chorus wire level W L place ls.length f)
  | [], place, c, _, h => by
    rw [List.length_nil, chorus_nil]
    exact does_pure h
  | l :: ls, place, c, hpassive, h => by
    rw [List.length_cons, ← chorus_cons wire level place ls.length]
    refine does_cons h (does_passive (hpassive l List.mem_cons_self) h) fun c' h' => ?_
    exact does_callAll wire level (place + 1) (fun l hl => hpassive l (List.mem_cons_of_mem _ hl)) h'

/-- A wire is driven, when it is known what its listeners do. -/
theorem does_drive {n : Nat} {wire : WireId} {level : Level} {ls : List Listener} {g : Fabric}
    {driven : List (WireId × Level)} {heard : List (Nat × Fabric)}
    (hls : (f.wire wire).listeners level = ls) (h : c.memory.quiet = f.quiet)
    (hcalls : ∀ c' : Circuit, c'.memory.quiet = (f.setLevel wire level).quiet →
      Does W L (callAll (traced? n) wire level 0 ls c') g driven heard) :
    Does W L (traced? (n + 1) wire level c >>= fun x => pure x.2) g ((wire, level) :: driven)
      heard := by
  have hset : (c.onFabric (·.setLevel wire level)).memory.quiet = (f.setLevel wire level).quiet := by
    rw [onFabric, Fabric.quiet_setLevel, h, Fabric.quiet_setLevel]
  obtain ⟨c', log, hlog, hg, rfl, rfl⟩ := hcalls _ hset
  have hsame : (c.memory.wire wire).listeners level = ls := by
    rw [Fabric.wire_of_quiet h]
    exact hls
  have hcalled : (callAll (traced? n) wire level 0 ls (c.onFabric (·.setLevel wire level)) >>=
      fun c' => (pure ((c.memory.wire wire).level, c') : Traced (Level × Circuit))) =
      some (((c.memory.wire wire).level, c'), log ++ []) :=
    bind_some hlog rfl
  -- the drive itself is on the log, and then what the calls have done
  have htraced : traced? (n + 1) wire level c =
      some (((c.memory.wire wire).level, c'), [.drive wire level] ++ (log ++ [])) := by
    simp only [traced?, hsame]
    exact bind_some rfl hcalled
  rw [List.append_nil] at htraced
  refine ⟨c', .drive wire level :: log, ?_, hg, rfl, rfl⟩
  rw [bind_some htraced rfl, List.append_nil]
  rfl

/-- A wire on which only passive listeners are: it is driven, and they see it. -/
theorem does_alone (n : Nat) {wire : WireId} {level : Level}
    (hpassive : ∀ l ∈ (f.wire wire).listeners level, l.Passive) (h : c.memory.quiet = f.quiet) :
    Does W L (traced? (n + 1) wire level c >>= fun x => pure x.2) (f.setLevel wire level)
      [(wire, level)]
      (chorus wire level W L 0 ((f.wire wire).listeners level).length (f.setLevel wire level)) :=
  does_drive rfl h fun _ h' => does_callAll wire level 0 hpassive h'

/-- What a call that comes to an end does is what is noted of it. -/
theorem of_does {wire : WireId} {level : Level} {driven : List (WireId × Level)}
    {heard : List (Nat × Fabric)}
    (h : Does W L (traced? maxDepth wire level c >>= fun x => pure x.2) f driven heard) :
    (Circuit.driven wire level c).memory.quiet = f.quiet ∧
      Happening.drives (happenings wire level c) = driven ∧
      Happening.heard W L (happenings wire level c) = heard := by
  obtain ⟨c', log, hbind, hf, hdrives, hheard⟩ := h
  cases htraced : traced? maxDepth wire level c with
  -- then it would not have come to an end
  | none =>
    rw [htraced] at hbind
    cases hbind
  | some y =>
    obtain ⟨x, first⟩ := y
    have hcome : (traced? maxDepth wire level c >>= fun x => pure x.2) = some (x.2, first ++ []) :=
      bind_some htraced rfl
    rw [hcome, List.append_nil] at hbind
    obtain ⟨rfl, rfl⟩ := Prod.mk.inj (Option.some.inj hbind)
    obtain ⟨hhappenings, hdrive⟩ := happenings_eq htraced
    rw [hhappenings, Circuit.driven, hdrive]
    exact ⟨hf, hdrives, hheard⟩

end Circuit

/-! ## Listeners that put no others on wires -/

/-- It puts no other listener on a wire when it is called. -/
def Listener.Settled : Listener → Prop
  | .script _ s => ∀ action ∈ s.actions, ∀ wire level script, action ≠ .listen wire level script
  | _ => True

/-- A passive listener does not, since it does nothing to wires. -/
theorem Listener.Passive.settled {l : Listener} (h : l.Passive) : l.Settled := by
  cases l with
  | script counter s =>
    intro action haction wire level script heq
    have hpassive := h action haction
    rw [heq] at hpassive
    exact hpassive
  | rom | ram | select | release | request | countdown | watch => trivial

namespace Fabric

/-- No listener of the fabric puts another one on a wire, so that it is built once and for all. -/
def Settled (f : Fabric) : Prop :=
  ∀ w level, ∀ l ∈ (f.wire w).listeners level, l.Settled

theorem Settled.of_sameBuild {f g : Fabric} (h : f.Settled) (hfg : SameBuild f g) :
    g.Settled := by
  intro w level l hl
  rw [hfg.listeners] at hl
  exact h w level l hl

end Fabric

namespace Circuit

open Fabric

/-- If it comes to an end, the circuit is built as it was.  Of computations that do not end nothing is
    said. -/
def Lasts (c : Circuit) (x : Option Circuit) : Prop :=
  ∀ c', x = some c' → SameBuild c.memory c'.memory

theorem lasts_some {c c' : Circuit} (h : SameBuild c.memory c'.memory) : Lasts c (some c') := by
  intro c'' heq
  obtain rfl := Option.some.inj heq
  exact h

/-- Two such computations in a row leave the build as it was. -/
theorem Lasts.bind {c : Circuit} {x : Option Circuit} {k : Circuit → Option Circuit}
    (h : Lasts c x) (hnext : ∀ c', SameBuild c.memory c'.memory → Lasts c' (k c')) :
    Lasts c (x.bind k) := by
  intro c'' heq
  obtain ⟨c', hx, hk⟩ := Option.bind_eq_some_iff.mp heq
  exact (h c' hx).trans (hnext c' (h c' hx) c'' hk)

/-- So does a loop of them, by induction, each step starting from a settled circuit. -/
theorem lasts_foldlM {α : Type} {f : Circuit → α → Option Circuit} : ∀ {l : List α} {c : Circuit},
    (∀ a ∈ l, ∀ c : Circuit, c.memory.Settled → Lasts c (f c a)) → c.memory.Settled →
    Lasts c (l.foldlM f c)
  | [], c, _, _ => lasts_some (.refl c.memory)
  | a :: l, c, h, hc => by
    rw [List.foldlM_cons]
    refine (h a List.mem_cons_self c hc).bind fun c' hc' => ?_
    exact lasts_foldlM (fun b hb => h b (List.mem_cons_of_mem a hb)) (hc.of_sameBuild hc')

variable {drive : Driver}

/-- A driver that leaves settled circuits as they are built. -/
def Lasting (drive : Driver) : Prop :=
  ∀ wire level (c : Circuit), c.memory.Settled → Lasts c ((drive wire level c).map (·.2))

/-- Every action of a script leaves the build as it was, but for the one that puts a listener on a wire. -/
theorem lasts_action (hdrive : Lasting drive) (tag : String) {c : Circuit}
    {action : Action WireId BusId} (hc : c.memory.Settled)
    (haction : ∀ wire level script, action ≠ .listen wire level script) :
    Lasts c (action.run drive tag c) := by
  cases action with
  -- this is the only action that can call anybody
  | drive wire level =>
    intro c' heq
    obtain ⟨x, hx, heq⟩ := Option.bind_eq_some_iff.mp heq
    have hdriven : (drive wire level c).map (·.2) = some x.2 := by
      rw [hx]
      rfl
    obtain rfl := Option.some.inj heq
    have hreported : SameBuild x.2.memory (x.2.memory.report (.previous tag x.1)) :=
      sameBuild_of_quiet rfl
    exact (hdrive wire level c hc x.2 hdriven).trans hreported
  | write bus value => exact lasts_some (sameBuild_writeBus ..)
  | copy source target => exact lasts_some (sameBuild_writeBus ..)
  | read bus name => exact lasts_some (sameBuild_of_quiet rfl)
  | probe wire name => exact lasts_some (sameBuild_of_quiet rfl)
  | listen wire level script => exact absurd rfl (haction wire level script)

theorem lasts_respond (hdrive : Lasting drive) {c : Circuit} {l : Listener}
    (hc : c.memory.Settled) (hl : l.Settled) : Lasts c (l.respond drive c) := by
  cases l with
  | rom chip => exact lasts_some (sameBuild_writeBus ..)
  | ram chip => exact lasts_some (sameBuild_operate c.memory chip)
  | select chip =>
    have hselected := hdrive
      (chip.selected (c.memory.readAddress chip.address) (c.memory.wire chip.rw).level.isHigh) .low c hc
    rw [Option.map_eq_bind] at hselected
    exact hselected
  | release chip => exact lasts_foldlM (fun w _ c hc => hdrive w .high c hc) hc
  | request kind => exact lasts_some (.refl _)
  | countdown => exact lasts_some (.refl _)
  -- a script counts and reports before it acts, if it acts at all
  | script counter s =>
    simp only [Listener.respond]
    split
    · have hcounted : SameBuild c.memory ((c.memory.setCounter counter
          (c.memory.counter counter + 1)).report (.fired s.tag)) := sameBuild_of_quiet rfl
      intro c' heq
      exact hcounted.trans (lasts_foldlM
        (fun action haction c hc => lasts_action hdrive s.tag hc (hl action haction))
        (hc.of_sameBuild hcounted) c' heq)
    · exact lasts_some (.refl _)
  | watch name level address data => exact lasts_some (sameBuild_of_quiet rfl)

/-- A settled circuit stays as it is built, however deep the calls are nested.  By induction on the depth. -/
theorem lasting_drive? : ∀ n, Lasting (drive? n)
  | 0, _, _, _, _ => by
    intro c' heq
    cases heq
  | n + 1, wire, level, c, hc => by
    have hset : SameBuild c.memory (c.memory.setLevel wire level) := sameBuild_setLevel ..
    -- the listeners that are called are those of the wire before it was driven
    have hcalls : Lasts (c.onFabric (·.setLevel wire level))
        (((c.memory.wire wire).listeners level).foldlM
          (fun c l => l.respond (drive? n) c) (c.onFabric (·.setLevel wire level))) :=
      lasts_foldlM (fun l hl c hc' => lasts_respond (lasting_drive? n) hc' (hc wire level l hl))
        (hc.of_sameBuild hset)
    intro c' heq
    obtain ⟨x, hx, rfl⟩ := Option.map_eq_some_iff.mp heq
    obtain ⟨d, hd, hx⟩ := Option.bind_eq_some_iff.mp hx
    obtain rfl := Option.some.inj hx
    exact hset.trans (hcalls d hd)

/-- The same for calls as they are made; one that never comes back leaves a level. -/
theorem sameBuild_driven (wire : WireId) (level : Level) {c : Circuit} (hc : c.memory.Settled) :
    SameBuild c.memory (driven wire level c).memory := by
  unfold driven drive
  cases hdrive : drive? maxDepth wire level c with
  | some x =>
    refine lasting_drive? maxDepth wire level c hc x.2 ?_
    rw [hdrive]
    rfl
  | none => exact sameBuild_setLevel ..

end Circuit

/-! ## Overheard fabrics -/

namespace Fabric

/-- Built like another fabric, with passive listeners after those that are there.  What the listeners that
    were there do is then the same, and the others look on. -/
structure Overheard (base f : Fabric) : Prop where
  listeners : ∀ w level, ∃ ps, (f.wire w).listeners level = (base.wire w).listeners level ++ ps ∧
    ∀ l ∈ ps, l.Passive
  width : ∀ b, (f.bus b).width = (base.bus b).width
  socket : f.socket = base.socket

namespace Overheard

variable {base f g : Fabric}

/-- A fabric with nobody new on it is overheard by nobody. -/
theorem refl (f : Fabric) : Overheard f f where
  listeners w level := ⟨[], (List.append_nil _).symm, fun l hl => by cases hl⟩
  width _ := rfl
  socket := rfl

theorem of_sameBuild (hfg : SameBuild f g) (h : Overheard base f) : Overheard base g where
  listeners w level := by
    rw [hfg.listeners]
    exact h.listeners w level
  width b := (hfg.width b).trans (h.width b)
  socket := hfg.socket.trans h.socket

/-- An overheard fabric is settled if the original is. -/
theorem settled (h : Overheard base f) (hbase : base.Settled) : f.Settled := by
  intro w level l hl
  obtain ⟨ps, hlisteners, hpassive⟩ := h.listeners w level
  rw [hlisteners, List.mem_append] at hl
  -- one of the original listeners, or one that looks on
  rcases hl with hl | hl
  · exact hbase w level l hl
  · exact (hpassive l hl).settled

/-- One more passive listener, on any wire and for any level, still makes it an overheard fabric. -/
theorem listen (h : Overheard base f) (w : WireId) (level : Level) {l : Listener}
    (hl : l.Passive) : Overheard base (f.listen w level l) where
  listeners v other := by
    obtain ⟨ps, hlisteners, hpassive⟩ := h.listeners v other
    rw [listeners_listen, hlisteners, List.append_assoc]
    refine ⟨_, rfl, fun k hk => ?_⟩
    rcases List.mem_append.mp hk with hk | hk
    · exact hpassive k hk
    · split at hk
      · obtain rfl := List.mem_singleton.mp hk
        exact hl
      · cases hk
  width := h.width
  socket := h.socket

end Overheard

/-- Whatever drives the wires of a fabric on which no listener adds others, it is built as it was. -/
theorem firm_sameBuild {base : Fabric} (hbase : base.Settled) : Firm (SameBuild base) where
  sameBuild hfg h := h.trans hfg
  driven wire level _ h := h.trans (Circuit.sameBuild_driven wire level (hbase.of_sameBuild h))

/-- Whatever drives the wires of such a fabric, it stays overheard by those who are there. -/
theorem firm_overheard {base : Fabric} (hbase : base.Settled) : Firm (Overheard base) where
  sameBuild := Overheard.of_sameBuild
  driven wire level _ h := h.of_sameBuild (Circuit.sameBuild_driven wire level (h.settled hbase))

end Fabric

/-- If it puts a listener on a wire, that is a passive one. -/
def Doing.Passive : Doing → Prop
  | .listen _ _ l => l.Passive
  | .script _ _ s => ∀ action ∈ s.actions, action.Passive
  | .deed _ | .pulse _ | .drive .. => True

/-- Passive doings leave a fabric overheard, with one listener more or with none. -/
theorem Doing.Passive.spares {doing : Doing} (h : doing.Passive) (base : Fabric) :
    doing.Spares (Fabric.Overheard base) := by
  cases doing with
  | listen w level l => exact fun f hf => hf.listen w level h
  | script w level s =>
    intro f hf
    have hcounter : Fabric.SameBuild f { f with counters := (f.counters.add 0).2 } :=
      Fabric.sameBuild_of_quiet rfl
    exact (hf.of_sameBuild hcounter).listen w level (l := .script ⟨(f.counters.add 0).1⟩ s) h
  | deed | pulse | drive => trivial

namespace Machine

/-- A machine has nothing but chips and latches on its wires, and none of them puts a listener on a wire. -/
theorem settled_wiredFabric (slots : List RomSlot) : (wiredFabric slots).Settled := by
  intro w level l hl
  rw [listeners_wiredFabric] at hl
  obtain ⟨c, hc, rfl⟩ := List.mem_map.mp hl
  -- a listener on the finished board is that of a chip or the latch of an interrupt
  rcases List.mem_append.mp (List.mem_filter.mp hc).1 with hc | hc
  · obtain ⟨d, -, hc⟩ := List.mem_flatMap.mp hc
    cases d with
    | rom chip | ram chip =>
      obtain rfl := List.mem_singleton.mp hc
      trivial
    | decoder chip =>
      rcases List.mem_cons.mp hc with rfl | hc
      · trivial
      · obtain rfl := List.mem_singleton.mp hc
        trivial
  · simp only [latches, List.mem_cons, List.not_mem_nil, or_false] at hc
    rcases hc with rfl | rfl | rfl <;> trivial

end Machine

end Breadboard
