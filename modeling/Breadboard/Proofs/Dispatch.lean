import Breadboard.Circuit.Dispatch
/-
  Driving wires, one call within another.

  How far calls nest does not show in what comes of them: `drive?_of_le` says that allowing a greater
  depth changes no answer, so a call that comes to an end at some depth comes to the same end in
  `drive`.  And what a circuit does depends on its fabric only: two circuits that differ in their
  panels make the same calls (`drive_follow`), because listeners write to the panel and never read what
  they wrote.  Both are cases of one induction over the depth, `drive?_follow`.
-/
namespace Breadboard

namespace Circuit

/-- Circuits with the same fabric, whose panels are related in a way that listeners keep. -/
structure Companions (R : Circuit → Circuit → Prop) : Prop where
  memory : ∀ {c d}, R c d → c.memory = d.memory
  onFabric : ∀ {c d}, R c d → ∀ f, R (c.onFabric f) (d.onFabric f)
  raise : ∀ {c d}, R c d → ∀ kind, R (c.onPanel (·.raise kind)) (d.onPanel (·.raise kind))
  countDown : ∀ {c d}, R c d → R (c.onPanel (·.countDown)) (d.onPanel (·.countDown))

/-- Equal circuits are companions, so the rules below hold of a circuit and itself. -/
theorem companions_eq : Companions Eq where
  memory h := by rw [h]
  onFabric h _ := by rw [h]
  raise h _ := by rw [h]
  countDown h := by rw [h]

theorem Companions.flip {R : Circuit → Circuit → Prop} (hR : Companions R) :
    Companions fun c d => R d c where
  memory h := (hR.memory h).symm
  onFabric h f := hR.onFabric h f
  raise h kind := hR.raise h kind
  countDown h := hR.countDown h

/-- Whenever the first computation comes to an end, the second comes to a related one. -/
def Leads {α β : Type} (R : α → β → Prop) (x : Option α) (y : Option β) : Prop :=
  ∀ a, x = some a → ∃ b, y = some b ∧ R a b

/-- The same level, and related circuits: what two calls have to come to. -/
def SameCall (R : Circuit → Circuit → Prop) (x y : Level × Circuit) : Prop :=
  x.1 = y.1 ∧ R x.2 y.2

/-- Where there is an answer on both sides, the answers have to be related. -/
theorem leads_some {α β : Type} {R : α → β → Prop} {a : α} {b : β} (h : R a b) :
    Leads R (some a) (some b) := by
  intro a' ha
  obtain rfl : a = a' := Option.some.inj ha
  exact ⟨b, rfl, h⟩

/-- The rule for one computation after another; where the first has no end, neither has the whole. -/
theorem Leads.bind {α β γ δ : Type} {R : α → β → Prop} {S : γ → δ → Prop} {x : Option α}
    {y : Option β} {f : α → Option γ} {g : β → Option δ} (h : Leads R x y)
    (hnext : ∀ a b, R a b → Leads S (f a) (g b)) : Leads S (x.bind f) (y.bind g) := by
  intro c hc
  obtain ⟨a, ha, hfa⟩ := Option.bind_eq_some_iff.mp hc
  obtain ⟨b, hb, hab⟩ := h a ha
  obtain ⟨d, hd, hcd⟩ := hnext a b hab c hfa
  exact ⟨d, Option.bind_eq_some_iff.mpr ⟨b, hb, hd⟩, hcd⟩

/-- The rule for going through a list, by recursion on the list. -/
theorem leads_foldlM {α β γ : Type} {R : β → γ → Prop} {f : β → α → Option β}
    {g : γ → α → Option γ} (h : ∀ a b c, R b c → Leads R (f b a) (g c a)) :
    ∀ (l : List α) {b : β} {c : γ}, R b c → Leads R (l.foldlM f b) (l.foldlM g c)
  | [], _, _, hbc => leads_some hbc
  | a :: l, b, c, hbc => by
    rw [List.foldlM_cons, List.foldlM_cons]
    exact (h a b c hbc).bind fun _ _ => leads_foldlM h l

/-! ## Same fabric, same calls -/

variable {R : Circuit → Circuit → Prop} {f g : Driver}

/-- Companions do a script's action alike, if they answer its calls alike. -/
theorem leads_action (hR : Companions R)
    (hfg : ∀ wire level {c d}, R c d → Leads (SameCall R) (f wire level c) (g wire level d))
    (tag : String) (action : Action WireId BusId) {c d : Circuit} (h : R c d) :
    Leads R (action.run f tag c) (action.run g tag d) := by
  cases action with
  | drive wire level =>
    refine (hfg wire level h).bind ?_
    rintro ⟨previous, c'⟩ ⟨previous', d'⟩ ⟨hlevel, hafter⟩
    obtain rfl : previous = previous' := hlevel
    exact leads_some (hR.onFabric hafter _)
  | write bus value => exact leads_some (hR.onFabric h _)
  | copy source target => exact leads_some (hR.onFabric h _)
  | read bus name => exact leads_some (hR.onFabric h _)
  | probe wire name => exact leads_some (hR.onFabric h _)
  | listen wire level script => exact leads_some (hR.onFabric h _)

/-- Companions answer a listener alike, if they answer its calls alike.  What a listener looks at, and what
    it changes, is the same on both sides. -/
theorem leads_respond (hR : Companions R)
    (hfg : ∀ wire level {c d}, R c d → Leads (SameCall R) (f wire level c) (g wire level d))
    (l : Listener) {c d : Circuit} (h : R c d) : Leads R (l.respond f c) (l.respond g d) := by
  have hmemory := hR.memory h
  cases l with
  | rom chip => exact leads_some (hR.onFabric h _)
  | ram chip => exact leads_some (hR.onFabric h _)
  | select chip =>
    simp only [Listener.respond, hmemory]
    exact (hfg _ _ h).bind fun _ _ hcall => leads_some hcall.2
  | release chip =>
    have hcall : ∀ wire c d, R c d →
        Leads R ((f wire .high c).map (·.2)) ((g wire .high d).map (·.2)) := by
      intro wire c d hcd
      simp only [Option.map_eq_bind]
      exact (hfg wire .high hcd).bind fun _ _ hafter => leads_some hafter.2
    exact leads_foldlM hcall chip.outputs h
  | request kind => exact leads_some (hR.raise h kind)
  | countdown => exact leads_some (hR.countDown h)
  | script counter s =>
    simp only [Listener.respond, hmemory]
    -- whether a script does anything depends on the fabric alone
    split
    · exact leads_foldlM (fun action _ _ hcd => leads_action hR hfg s.tag action hcd) s.actions
        (hR.onFabric h _)
    · exact leads_some h
  | watch name level address data => exact leads_some (hR.onFabric h _)

/-- Companions make the same calls, and one that is allowed at least the same depth comes to the same
    end.  By induction on the depth. -/
theorem drive?_follow (hR : Companions R) :
    ∀ {n m : Nat}, n ≤ m → ∀ wire level {c d : Circuit}, R c d →
      Leads (SameCall R) (drive? n wire level c) (drive? m wire level d)
  | 0, _, _, _, _, _, _, _ => by intro x hx; cases hx
  | n + 1, 0, hnm, _, _, _, _, _ => absurd hnm (Nat.not_succ_le_zero n)
  | n + 1, m + 1, hnm, wire, level, c, d, h => by
    have ih := fun wire level {c d} (h : R c d) =>
      drive?_follow hR (Nat.le_of_succ_le_succ hnm) wire level h
    simp only [drive?, hR.memory h]
    exact (leads_foldlM (fun l _ _ hcd => leads_respond hR ih l hcd) _ (hR.onFabric h _)).bind
      fun _ _ hafter => leads_some ⟨rfl, hafter⟩

/-- A greater depth changes no answer: where calls come to their end, following them further finds the same
    end. -/
theorem drive?_of_le {n m : Nat} (hnm : n ≤ m) {wire : WireId} {level : Level} {c : Circuit}
    {x : Level × Circuit} (h : drive? n wire level c = some x) : drive? m wire level c = some x := by
  obtain ⟨y, hy, hlevel, hcircuit⟩ := drive?_follow companions_eq hnm wire level rfl x h
  rw [hy, Prod.ext hlevel hcircuit]

/-- A call that ends at some depth ends so in `drive`.  So a proof may choose the depth that suits it. -/
theorem drive_eq {n : Nat} (hn : n ≤ maxDepth) {wire : WireId} {level : Level} {c : Circuit}
    {x : Level × Circuit} (h : drive? n wire level c = some x) : drive wire level c = x := by
  rw [drive, drive?_of_le hn h, Option.getD_some]

/-- Companions answer a call alike, and stay companions.  If the calls have no end, both sides just set the
    level. -/
theorem drive_follow (hR : Companions R) (wire : WireId) (level : Level) {c d : Circuit}
    (h : R c d) : SameCall R (drive wire level c) (drive wire level d) := by
  have hforth := drive?_follow hR (Nat.le_refl maxDepth) wire level h
  have hback := drive?_follow hR.flip (Nat.le_refl maxDepth) wire level h
  unfold drive
  cases hc : drive? maxDepth wire level c with
  | some x =>
    obtain ⟨y, hy, hxy⟩ := hforth x hc
    rw [hy]
    exact hxy
  | none =>
    cases hd : drive? maxDepth wire level d with
    | some y =>
      -- if `d` came to an end at this depth, then so would `c`, by the same induction the other way
      obtain ⟨x, hx, _⟩ := hback y hd
      rw [hc] at hx
      cases hx
    | none =>
      rw [Option.getD_none, Option.getD_none, hR.memory h]
      exact ⟨rfl, hR.onFabric h (·.setLevel wire level)⟩

/-- The same, for those who do not ask what the level was. -/
theorem driven_follow (hR : Companions R) (wire : WireId) (level : Level) {c d : Circuit}
    (h : R c d) : R (driven wire level c) (driven wire level d) :=
  (drive_follow hR wire level h).2

end Circuit

end Breadboard
