import Breadboard.Proofs.Dispatch
/-
  Dispatch under re-entrancy: what the calls of a nest do, told by a chronicle of them.

  A listener may drive the wire that it listens to, and may let others listen to it, so the level and the
  list change under the call that is going through it.  What each call does is best said of everything that
  happens, in the order in which it happens.  `Circuit.chronicled?` dispatches as `drive?` does and keeps
  such a chronicle: calls begin and finish, listeners are called and are registered, and each entry goes
  with the fabric as it is at that moment.  A call is known by its number, the place in the chronicle where
  it began.

  `Lawful` is what holds of a chronicle.  Between its parts there is no talk of recursion or of what a
  listener does: what a call runs is determined by what has been registered before it began (`heard`), and
  the level of a wire by the call on it that began last (`held`), at any depth.  The proof is by induction on
  the depth; `Orderly` says of a stretch of the chronicle what is needed to put it behind another one, or
  inside a call.
-/
namespace Breadboard

/-! ## Chronicles -/

namespace Chronicle

/-- What may be told of a call.  Only the beginning and a registration say where they are; the others say
    which call they are about. -/
inductive Entry where
  /-- A wire is driven: its level has been set, and nothing has been called yet. -/
  | begins (wire : WireId) (level : Level)
  /-- The call with this number is about to call a listener. -/
  | runs (call : Nat) (listener : Listener)
  /-- A listener has been registered. -/
  | registers (wire : WireId) (level : Level) (listener : Listener)
  /-- The call with this number is about to return this level. -/
  | finishes (call : Nat) (answer : Level)

/-- The call that an entry is about, if it is about one that has begun before. -/
def Entry.call? : Entry → Option Nat
  | .runs call _ | .finishes call _ => some call
  | .begins .. | .registers .. => none

end Chronicle

/-- An entry of the chronicle, and the fabric as it is when the entry is made. -/
structure Moment where
  entry : Chronicle.Entry
  seen : Fabric

/-- What happens, in the order in which it happens. -/
abbrev Chronicle := List Moment

namespace Chronicle

/-- The listeners that a call runs, in the order in which it does. -/
def runsOf (call : Nat) (log : Chronicle) : List Listener :=
  log.filterMap fun m =>
    match m.entry with
    | .runs other listener => if other = call then some listener else none
    | _ => none

/-- The levels that a call returns, of which there should be one. -/
def answersOf (call : Nat) (log : Chronicle) : List Level :=
  log.filterMap fun m =>
    match m.entry with
    | .finishes other answer => if other = call then some answer else none
    | _ => none

/-- The listeners that are registered on a wire for a level, in order. -/
def registered (wire : WireId) (level : Level) (log : Chronicle) : List Listener :=
  log.filterMap fun m =>
    match m.entry with
    | .registers other level' listener =>
      if other = wire ∧ level' = level then some listener else none
    | _ => none

/-- The levels that a wire is driven to, one for each call on it. -/
def begun (wire : WireId) (log : Chronicle) : List Level :=
  log.filterMap fun m =>
    match m.entry with
    | .begins other level => if other = wire then some level else none
    | _ => none

section

variable (start : Fabric) (wire : WireId) (level : Level) (past : Chronicle)

/-- The listeners of a wire for a level, after what is past: those of the start, and then those that have
    been registered. -/
def heard : List Listener :=
  (start.wire wire).listeners level ++ registered wire level past

/-- The level of a wire, after what is past: that of the call on it which began last, or else that of the
    start. -/
def held : Level :=
  (begun wire past).getLast?.getD (start.wire wire).level

end

/-- A fabric is as the chronicle says, in the levels of its wires and in the lists of those who listen. -/
structure Describes (start : Fabric) (past : Chronicle) (f : Fabric) : Prop where
  level : ∀ wire, (f.wire wire).level = held start wire past
  listeners : ∀ wire level, (f.wire wire).listeners level = heard start wire level past

/-- What becomes of a call that begins when `past` is past, told by what comes after its beginning: it runs
    the listeners that it finds registered, each once and in their order and no others, it returns the
    level that the wire had before, and then it runs nothing more. -/
structure Complete (start : Fabric) (call : Nat) (wire : WireId) (level : Level)
    (past after : Chronicle) : Prop where
  runs : runsOf call after = heard start wire level past
  answers : answersOf call after = [held start wire past]
  closes : ∀ inside answer seen rest, after = inside ++ ⟨.finishes call answer, seen⟩ :: rest →
    runsOf call rest = []

/-- What holds of the chronicle of anything that is done to a circuit from outside. -/
structure Lawful (start : Fabric) (log : Chronicle) (final : Fabric) : Prop where
  /-- At any moment, lists have grown at their ends by what has been registered, and a wire has the level
      of the call on it that began last. -/
  described : ∀ before m after, log = before ++ m :: after → Describes start (before ++ [m]) m.seen
  /-- So it is when everything has returned. -/
  ends : Describes start log final
  /-- Nothing is run or returned but by a call that has begun. -/
  begun : ∀ before m after call, log = before ++ m :: after → m.entry.call? = some call →
    ∃ earlier wire level seen meanwhile,
      before = earlier ++ ⟨.begins wire level, seen⟩ :: meanwhile ∧ call = earlier.length
  /-- Every call comes to its end, in its way. -/
  complete : ∀ before wire level seen after, log = before ++ ⟨.begins wire level, seen⟩ :: after →
    Complete start before.length wire level before after

end Chronicle

/-! ## Keeping a chronicle -/

/-- A computation that may have no end, and that adds to a chronicle as it goes along. -/
abbrev Chronicled := StateT Chronicle Option

/-- How a circuit's wires are driven from within, with a chronicle. -/
abbrev Chronicler := WireId → Level → Circuit → Chronicled (Level × Circuit)

/-- Something happens, in a circuit that is like this at that moment. -/
def Chronicled.note (entry : Chronicle.Entry) (c : Circuit) : Chronicled Unit :=
  modify (· ++ [⟨entry, c.memory⟩])

/-- The listener that a script becomes. -/
def Fabric.newListener (f : Fabric) (s : Probe) : Listener :=
  .script ⟨(f.counters.add 0).1⟩ s

/-- What a script does when it is called; only driving and registering are more than it says itself. -/
def Action.chronicled (drive : Chronicler) (tag : String) (c : Circuit) :
    Action WireId BusId → Chronicled Circuit
  | .drive wire level => do
    let (previous, c) ← drive wire level c
    return Circuit.onFabric c (·.report (.previous tag previous))
  | .listen wire level script => do
    let after := Circuit.onFabric c (·.listenScript wire level script)
    Chronicled.note (.registers wire level (c.memory.newListener script)) after
    return after
  | action => StateT.lift (action.run (fun _ _ _ => none) tag c)

/-- What a listener does when it is called, with every drive and every registration told. -/
def Listener.chronicled (drive : Chronicler) (c : Circuit) : Listener → Chronicled Circuit
  | .select chip => do
    let f := c.memory
    let wire := chip.selected (f.readAddress chip.address) (f.wire chip.rw).level.isHigh
    return (← drive wire .low c).2
  | .release chip =>
    chip.outputs.foldlM (fun c wire => return (← drive wire .high c).2) c
  | .script counter s =>
    let calls := c.memory.counter counter
    if Probe.due s c.memory calls then
      let c := Circuit.onFabric c fun f =>
        (f.setCounter counter (calls + 1)).report (.fired s.tag)
      s.actions.foldlM (fun c action => action.chronicled drive s.tag c) c
    else return c
  | l => StateT.lift (l.respond (fun _ _ _ => none) c)

namespace Circuit

/-- Calls listeners one after the other, on behalf of a call; each of them is told of before it is called. -/
def callEach (drive : Chronicler) (call : Nat) : List Listener → Circuit → Chronicled Circuit
  | [], c => return c
  | l :: ls, c => do
    Chronicled.note (.runs call l) c
    let c ← l.chronicled drive c
    callEach drive call ls c

/-- Drives a wire as `drive?` does, with a chronicle.  The number of the call is how much has been told
    before it. -/
def chronicled? : Nat → Chronicler
  | 0, _, _, _ => failure
  | depth + 1, wire, level, c => do
    let call := (← get).length
    let before := c.memory.wire wire
    let c := onFabric c (·.setLevel wire level)
    Chronicled.note (.begins wire level) c
    let c ← callEach (chronicled? depth) call (before.listeners level) c
    let answer := before.level
    Chronicled.note (.finishes call answer) c
    return (answer, c)

end Circuit

namespace Chronicle

variable {α β : Type}

/-! ## What an entry says -/

variable {start f g : Fabric} {past log a b : Chronicle} {m : Moment} {call : Nat} {wire : WireId}
  {level : Level}

/-- What a chronicle says of a call or a wire, it says stretch by stretch. -/
theorem runsOf_append : runsOf call (a ++ b) = runsOf call a ++ runsOf call b :=
  List.filterMap_append

theorem answersOf_append : answersOf call (a ++ b) = answersOf call a ++ answersOf call b :=
  List.filterMap_append

theorem registered_append :
    registered wire level (a ++ b) = registered wire level a ++ registered wire level b :=
  List.filterMap_append

theorem begun_append : begun wire (a ++ b) = begun wire a ++ begun wire b :=
  List.filterMap_append

/-- A stretch that is not about a call has no listeners that it runs. -/
theorem runsOf_eq_nil (h : ∀ m ∈ a, m.entry.call? ≠ some call) : runsOf call a = [] := by
  refine List.filterMap_eq_nil_iff.mpr fun m hm => ?_
  have hne := h m hm
  obtain ⟨entry, seen⟩ := m
  cases entry with
  | runs other l =>
    have hother : other ≠ call := fun heq => hne (congrArg some heq)
    exact if_neg hother
  | begins | registers | finishes => rfl

theorem answersOf_eq_nil (h : ∀ m ∈ a, m.entry.call? ≠ some call) : answersOf call a = [] := by
  refine List.filterMap_eq_nil_iff.mpr fun m hm => ?_
  have hne := h m hm
  obtain ⟨entry, seen⟩ := m
  cases entry with
  | finishes other answer =>
    have hother : other ≠ call := fun heq => hne (congrArg some heq)
    exact if_neg hother
  | begins | registers | runs => rfl

/-- What is about calls changes neither levels nor lists, so the fabric is still as the chronicle says. -/
theorem Describes.about (h : Describes start past f) (hm : m.entry.call? ≠ none) :
    Describes start (past ++ [m]) f := by
  obtain ⟨entry, seen⟩ := m
  cases entry with
  | begins | registers => exact absurd rfl hm
  | runs | finishes =>
    refine ⟨fun w => ?_, fun w l => ?_⟩
    · rw [h.level w, held, held, begun_append]
      simp [begun]
    · rw [h.listeners w l, heard, heard, registered_append]
      simp [registered]

/-- Only the wires are described, so that buses, cells, counters and reports may change unnoticed. -/
theorem Describes.of_wires (h : Describes start past f) (hwires : g.wires = f.wires) :
    Describes start past g := by
  have hwire : ∀ w, g.wire w = f.wire w := fun w => congrArg (·.get w.index) hwires
  exact ⟨fun w => hwire w ▸ h.level w, fun w l => hwire w ▸ h.listeners w l⟩

/-- A call that begins sets the level of its wire, and no list changes. -/
theorem Describes.begins (h : Describes start past f) (wire : WireId) (level : Level) (seen : Fabric) :
    Describes start (past ++ [⟨.begins wire level, seen⟩]) (f.setLevel wire level) := by
  refine ⟨fun w => ?_, fun w l => ?_⟩
  · rw [Fabric.wire_setLevel, held, begun_append]
    by_cases hw : w = wire
    · subst hw
      simp [begun]
    · have hw' : wire ≠ w := fun heq => hw heq.symm
      rw [if_neg hw, h.level w, held]
      simp [begun, hw']
  · have hsame : ((f.setLevel wire level).wire w).listeners l = (f.wire w).listeners l := by
      rw [Fabric.wire_setLevel]
      by_cases hw : w = wire
      · subst hw
        rw [if_pos rfl]
        cases l <;> rfl
      · rw [if_neg hw]
    rw [hsame, h.listeners w l, heard, heard, registered_append]
    simp [registered]

/-- A registration makes one list grow at its end, and the others stay as they are. -/
theorem Describes.registers (h : Describes start past f) (wire : WireId) (level : Level) (l : Listener)
    (seen : Fabric) :
    Describes start (past ++ [⟨.registers wire level l, seen⟩]) (f.listen wire level l) := by
  refine ⟨fun w => ?_, fun w l' => ?_⟩
  · have hsame : ((f.listen wire level l).wire w).level = (f.wire w).level := by
      rw [Fabric.wire_listen]
      by_cases hw : w = wire
      · subst hw
        rw [if_pos rfl]
        cases level <;> rfl
      · rw [if_neg hw]
    rw [hsame, h.level w, held, held, begun_append]
    simp [begun]
  · rw [Fabric.wire_listen, heard, registered_append, ← List.append_assoc]
    change _ = heard start w l' past ++ _
    by_cases hw : w = wire
    · subst hw
      rw [if_pos rfl, ← h.listeners w l']
      -- on the wire itself the list for the other level stays as it is, too
      cases level <;> cases l' <;> simp [Wire.listen, Wire.listeners, registered]
    · have hw' : wire ≠ w := fun heq => hw heq.symm
      rw [if_neg hw, h.listeners w l']
      simp [registered, hw']

/-! ## Stretches of a chronicle -/

/-- A stretch `new` that comes after `log`, and within the call `outer` if there is one.  It is about its
    own calls, which all come to their end in it, and perhaps about the call that it is in. -/
structure Orderly (start : Fabric) (outer : Option Nat) (log new : Chronicle) : Prop where
  described : ∀ before m after, new = before ++ m :: after →
    Describes start (log ++ before ++ [m]) m.seen
  begun : ∀ before m after call, new = before ++ m :: after → m.entry.call? = some call →
    outer = some call ∨ ∃ earlier wire level seen meanwhile,
      before = earlier ++ ⟨.begins wire level, seen⟩ :: meanwhile ∧ call = (log ++ earlier).length
  complete : ∀ before wire level seen after, new = before ++ ⟨.begins wire level, seen⟩ :: after →
    Complete start (log ++ before).length wire level (log ++ before) after

/-- Where something stands in two stretches: in the first of them, or in the second. -/
theorem split_append {γ : Type} {a b before after : List γ} {m : γ}
    (h : a ++ b = before ++ m :: after) :
    (∃ rest, a = before ++ m :: rest ∧ after = rest ++ b) ∨
      ∃ between, before = a ++ between ∧ b = between ++ m :: after := by
  rcases List.append_eq_append_iff.mp h with ⟨between, hbefore, hb⟩ | ⟨rest, ha, hafter⟩
  · exact .inr ⟨between, hbefore, hb⟩
  · cases rest with
    | nil =>
      refine .inr ⟨[], ?_, hafter.symm⟩
      rw [ha, List.append_nil, List.append_nil]
    | cons m' rest =>
      obtain ⟨rfl, rfl⟩ : m' = m ∧ rest ++ b = after := by
        rw [List.cons_append] at hafter
        exact ⟨(List.cons.inj hafter).1.symm, (List.cons.inj hafter).2.symm⟩
      exact .inl ⟨rest, ha, rfl⟩

variable {outer : Option Nat}

/-- Nothing at all is orderly. -/
theorem orderly_nil (start : Fabric) (outer : Option Nat) (log : Chronicle) :
    Orderly start outer log [] where
  described before m after h := by simp at h
  begun before m after call h := by simp at h
  complete before wire level seen after h := by simp at h

/-- A stretch that is not within a call can be put inside one. -/
theorem Orderly.inside (h : Orderly start none log a) : Orderly start outer log a where
  described := h.described
  begun before m after call hsplit hcall := by
    rcases h.begun before m after call hsplit hcall with hnone | hbegun
    · cases hnone
    · exact .inr hbegun
  complete := h.complete

/-- A stretch is not about calls that began before it, but for the one that it is in. -/
theorem Orderly.not_about (h : Orderly start outer log a) (hlt : call < log.length)
    (houter : outer ≠ some call) : ∀ m ∈ a, m.entry.call? ≠ some call := by
  intro m hm hcall
  obtain ⟨before, after, hsplit⟩ := List.append_of_mem hm
  rcases h.begun before m after call hsplit hcall with hsome | ⟨earlier, -, -, -, -, -, rfl⟩
  · exact houter hsome
  · rw [List.length_append] at hlt
    omega

/-- What is not about a call can follow it, and the call is still complete. -/
theorem Complete.append (h : Complete start call wire level past a)
    (hb : ∀ m ∈ b, m.entry.call? ≠ some call) : Complete start call wire level past (a ++ b) where
  runs := by rw [runsOf_append, h.runs, runsOf_eq_nil hb, List.append_nil]
  answers := by rw [answersOf_append, h.answers, answersOf_eq_nil hb, List.append_nil]
  closes inside answer seen rest hsplit := by
    rcases split_append hsplit with ⟨rest', ha, rfl⟩ | ⟨between, rfl, hb'⟩
    · rw [runsOf_append, h.closes inside answer seen rest' ha, runsOf_eq_nil hb]
      rfl
    · refine absurd rfl (hb ⟨.finishes call answer, seen⟩ ?_)
      rw [hb']
      exact List.mem_append_right _ List.mem_cons_self

/-- One stretch after the other is orderly, provided that the call they are in has begun before. -/
theorem Orderly.append (ha : Orderly start outer log a) (hb : Orderly start outer (log ++ a) b)
    (houter : ∀ call, outer = some call → call < log.length) :
    Orderly start outer log (a ++ b) where
  described before m after h := by
    -- each thing that is said of the whole is said of a place in the first stretch or in the second
    rcases split_append h with ⟨rest, hsplit, -⟩ | ⟨between, rfl, hsplit⟩
    · exact ha.described before m rest hsplit
    · have hdescribed := hb.described between m after hsplit
      rwa [List.append_assoc log a between] at hdescribed
  begun before m after call h hcall := by
    rcases split_append h with ⟨rest, hsplit, -⟩ | ⟨between, rfl, hsplit⟩
    · exact ha.begun before m rest call hsplit hcall
    · rcases hb.begun between m after call hsplit hcall with
        hsome | ⟨earlier, w, l, seen, meanwhile, rfl, rfl⟩
      · exact .inl hsome
      · refine .inr ⟨a ++ earlier, w, l, seen, meanwhile, ?_, ?_⟩
        · rw [List.append_assoc]
        · rw [List.append_assoc]
  complete before w l seen after h := by
    rcases split_append h with ⟨rest, hsplit, rfl⟩ | ⟨between, rfl, hsplit⟩
    · -- a call of the first stretch began before the second one
      refine (ha.complete before w l seen rest hsplit).append (hb.not_about ?_ ?_)
      · rw [hsplit]
        simp only [List.length_append, List.length_cons]
        omega
      · intro hsome
        have hlt := houter _ hsome
        rw [List.length_append] at hlt
        omega
    · have hcomplete := hb.complete between w l seen after hsplit
      rwa [List.append_assoc log a between] at hcomplete

/-- There is one place only in a list of one. -/
theorem split_single {γ : Type} {a m : γ} {before after : List γ} (h : [a] = before ++ m :: after) :
    before = [] ∧ m = a ∧ after = [] := by
  cases before with
  | nil => simpa [eq_comm] using h
  | cons x before => simp at h

/-- An entry of the call that it is in is orderly within that call. -/
theorem orderly_about (h : Describes start (log ++ [m]) m.seen) (hcall : m.entry.call? = some call) :
    Orderly start (some call) log [m] where
  described before m' after hsplit := by
    obtain ⟨rfl, rfl, -⟩ := split_single hsplit
    rwa [List.append_nil]
  begun before m' after call' hsplit hcall' := by
    obtain ⟨-, rfl, -⟩ := split_single hsplit
    exact .inl (hcall.symm.trans hcall')
  complete before w l seen after hsplit := by
    obtain ⟨-, rfl, -⟩ := split_single hsplit
    cases hcall

/-- An entry that is about no call, and begins none, is orderly by itself. -/
theorem orderly_silent (h : Describes start (log ++ [m]) m.seen)
    (hm : ∀ wire level, m.entry ≠ .begins wire level) (hcall : m.entry.call? = none) :
    Orderly start none log [m] where
  described before m' after hsplit := by
    obtain ⟨rfl, rfl, -⟩ := split_single hsplit
    rwa [List.append_nil]
  begun before m' after call' hsplit hcall' := by
    obtain ⟨-, rfl, -⟩ := split_single hsplit
    rw [hcall] at hcall'
    cases hcall'
  complete before w l seen after hsplit := by
    obtain ⟨-, rfl, -⟩ := split_single hsplit
    exact absurd rfl (hm w l)

/-- A call is complete when it has run what it found and has returned what it found. -/
theorem complete_call {closing : Moment} {body : Chronicle}
    (hclosing : closing.entry = .finishes call (held start wire past))
    (hruns : runsOf call body = heard start wire level past) (hanswers : answersOf call body = []) :
    Complete start call wire level past (body ++ [closing]) := by
  obtain ⟨entry, last⟩ := closing
  obtain rfl : entry = .finishes call (held start wire past) := hclosing
  refine ⟨?_, ?_, fun inside answer seen rest hsplit => ?_⟩
  · rw [runsOf_append, hruns]
    simp [runsOf]
  · rw [answersOf_append, hanswers]
    simp [answersOf]
  · rcases split_append hsplit with ⟨rest', hbody, -⟩ | ⟨between, rfl, hlast⟩
    · -- nothing has been returned before
      rw [hbody, answersOf_append] at hanswers
      simp [answersOf] at hanswers
    · obtain ⟨-, -, rfl⟩ := split_single hlast
      rfl

/-- A whole call is orderly: its beginning, what is within it, and its end. -/
theorem orderly_call {opening closing : Moment} {body : Chronicle}
    (hopening : opening.entry = .begins wire level)
    (hclosing : closing.entry = .finishes log.length (held start wire log))
    (hfirst : Describes start (log ++ [opening]) opening.seen)
    (hbody : Orderly start (some log.length) (log ++ [opening]) body)
    (hruns : runsOf log.length body = heard start wire level log)
    (hanswers : answersOf log.length body = [])
    (hlast : Describes start (log ++ [opening] ++ body ++ [closing]) closing.seen) :
    Orderly start none log ([opening] ++ body ++ [closing]) where
  described before m after h := by
    rcases split_append h with ⟨rest, hinner, -⟩ | ⟨between, rfl, hsplit⟩
    · rcases split_append hinner with ⟨rest', hsplit, -⟩ | ⟨between, rfl, hsplit⟩
      · obtain ⟨rfl, rfl, -⟩ := split_single hsplit
        rwa [List.append_nil]
      · have hdescribed := hbody.described between m rest hsplit
        rwa [List.append_assoc log] at hdescribed
    · obtain ⟨rfl, rfl, -⟩ := split_single hsplit
      rwa [List.append_nil, ← List.append_assoc log]
  begun before m after call h hcall := by
    obtain ⟨entry, first⟩ := opening
    obtain rfl : entry = .begins wire level := hopening
    refine .inr ?_
    rcases split_append h with ⟨rest, hinner, -⟩ | ⟨between, rfl, hsplit⟩
    · rcases split_append hinner with ⟨rest', hsplit, -⟩ | ⟨between, rfl, hsplit⟩
      · obtain ⟨-, rfl, -⟩ := split_single hsplit
        cases hcall
      · rcases hbody.begun between m rest call hsplit hcall with
          hsome | ⟨earlier, w, l, seen, meanwhile, rfl, rfl⟩
        · -- it is about the call itself
          refine ⟨[], wire, level, first, between, rfl, ?_⟩
          rw [List.append_nil]
          exact (Option.some.inj hsome).symm
        · refine ⟨[⟨.begins wire level, first⟩] ++ earlier, w, l, seen, meanwhile, ?_, ?_⟩
          · rw [List.append_assoc]
          · rw [List.append_assoc]
    · obtain ⟨rfl, rfl, -⟩ := split_single hsplit
      rw [hclosing] at hcall
      refine ⟨[], wire, level, first, body, ?_, ?_⟩
      · rw [List.append_nil]
        rfl
      · rw [List.append_nil]
        exact (Option.some.inj hcall).symm
  complete before w l seen after h := by
    rcases split_append h with ⟨rest, hinner, rfl⟩ | ⟨between, rfl, hsplit⟩
    · rcases split_append hinner with ⟨rest', hsplit, rfl⟩ | ⟨between, rfl, hsplit⟩
      · obtain ⟨rfl, rfl, rfl⟩ := split_single hsplit
        obtain ⟨rfl, rfl⟩ : w = wire ∧ l = level := by
          injection hopening with hw hl
          exact ⟨hw, hl⟩
        rw [List.append_nil]
        exact complete_call hclosing hruns hanswers
      · have hcomplete := hbody.complete between w l seen rest hsplit
        rw [List.append_assoc log] at hcomplete
        refine hcomplete.append fun m hm hcall => ?_
        obtain rfl := List.mem_singleton.mp hm
        -- the call began before everything that is within it
        rw [hclosing] at hcall
        have hlength := Option.some.inj hcall
        simp only [List.length_append, List.length_cons, List.length_nil] at hlength
        omega
    · obtain ⟨-, rfl, -⟩ := split_single hsplit
      cases hclosing

/-! ## Computations that keep a chronicle -/

/-- `x` does what `y` does with a circuit `c`, and adds to the chronicle an orderly account of it. -/
def Records (start : Fabric) (circuit : α → Circuit) (c : Circuit) (x : Chronicled α) (y : Option α) :
    Prop :=
  ∀ log a, Describes start log c.memory → y = some a →
    ∃ new, x.run log = some (a, log ++ new) ∧ Orderly start none log new ∧
      Describes start (log ++ new) (circuit a).memory

variable {circuit : α → Circuit} {circuit' : β → Circuit} {c : Circuit} {x : Chronicled α}
  {y : Option α}

/-- What leaves the wires as they are has nothing to tell, whatever else it does. -/
theorem records_lift (h : ∀ a, y = some a → (circuit a).memory.wires = c.memory.wires) :
    Records start circuit c (StateT.lift y) y := by
  intro log a hlog hy
  refine ⟨[], ?_, orderly_nil start none log, ?_⟩
  · subst hy
    rw [List.append_nil]
    rfl
  · rw [List.append_nil]
    exact hlog.of_wires (h a hy)

theorem records_pure {a : α} (h : (circuit a).memory.wires = c.memory.wires) :
    Records start circuit c (pure a) (some a) := by
  refine records_lift fun a' ha => ?_
  obtain rfl := Option.some.inj ha
  exact h

/-- What a chronicle tells depends on the wires that it starts from, and on nothing else of the fabric. -/
theorem Records.of_wires {c' : Circuit} (hx : Records start circuit c' x y)
    (hwires : c'.memory.wires = c.memory.wires) : Records start circuit c x y :=
  fun log a hlog hy => hx log a (hlog.of_wires hwires) hy

/-- One computation after another is recorded by one account after another. -/
theorem Records.bind {f : α → Chronicled β} {g : α → Option β} (hx : Records start circuit c x y)
    (hf : ∀ a, Records start circuit' (circuit a) (f a) (g a)) :
    Records start circuit' c (x >>= f) (y.bind g) := by
  intro log b hlog hb
  obtain ⟨a, ha, hga⟩ := Option.bind_eq_some_iff.mp hb
  obtain ⟨first, hfirst, horderly, hmid⟩ := hx log a hlog ha
  obtain ⟨second, hsecond, horderly', hend⟩ := hf a (log ++ first) b hmid hga
  refine ⟨first ++ second, ?_, horderly.append horderly' (fun call hcall => nomatch hcall), ?_⟩
  · rw [StateT.run_bind, hfirst, ← List.append_assoc]
    exact hsecond
  · rwa [← List.append_assoc]

/-- A loop is recorded by the accounts of its steps, by induction on the list. -/
theorem records_foldlM {γ : Type} {f : Circuit → γ → Chronicled Circuit}
    {g : Circuit → γ → Option Circuit} (h : ∀ c a, Records start id c (f c a) (g c a)) :
    ∀ (l : List γ) (c : Circuit), Records start id c (l.foldlM f c) (l.foldlM g c)
  | [], _ => records_pure rfl
  | a :: l, c => by
    rw [List.foldlM_cons, List.foldlM_cons]
    exact (h c a).bind fun c' => records_foldlM h l c'

/-- A registration is told when it has been made, with the listener at the end of its list. -/
theorem records_listen (wire : WireId) (level : Level) (s : Probe) :
    Records start id c
      (do
        let after := c.onFabric (·.listenScript wire level s)
        Chronicled.note (.registers wire level (c.memory.newListener s)) after
        return after)
      (some (c.onFabric (·.listenScript wire level s))) := by
  intro log a hlog ha
  obtain rfl := Option.some.inj ha
  have hafter := (hlog.of_wires (g := { c.memory with counters := (c.memory.counters.add 0).2 })
    rfl).registers wire level (c.memory.newListener s) (c.memory.listenScript wire level s)
  refine ⟨[⟨.registers wire level (c.memory.newListener s), c.memory.listenScript wire level s⟩],
    rfl, ?_, hafter⟩
  exact orderly_silent hafter (fun _ _ h => nomatch h) rfl

/-- A driver that keeps a chronicle of what another driver does. -/
def Keeps (start : Fabric) (d : Chronicler) (g : Driver) : Prop :=
  ∀ wire level c, Records start (·.2) c (d wire level c) (g wire level c)

variable {d : Chronicler} {g : Driver}

/-- Every action of a script is recorded.  Driving is, because the driver is; a registration is told; and
    the others leave the wires alone. -/
theorem records_action (hd : Keeps start d g) (tag : String) (c : Circuit)
    (action : Action WireId BusId) :
    Records start id c (action.chronicled d tag c) (action.run g tag c) := by
  cases action with
  | drive wire level => exact (hd wire level c).bind fun _ => records_pure rfl
  | listen wire level s => exact records_listen wire level s
  | write | copy | read | probe =>
    refine records_lift fun a ha => ?_
    obtain rfl := Option.some.inj ha
    rfl

/-- So is the call of every listener, by cases on what kind of listener it is. -/
theorem records_listener (hd : Keeps start d g) (l : Listener) (c : Circuit) :
    Records start id c (l.chronicled d c) (l.respond g c) := by
  cases l with
  | select chip => exact (hd _ .low c).bind fun _ => records_pure rfl
  | release chip =>
    have hcall : ∀ c wire, Records start id c (return (← d wire .high c).2)
        ((g wire .high c).map (·.2)) := by
      intro c wire
      rw [Option.map_eq_bind]
      exact (hd wire .high c).bind fun _ => records_pure rfl
    exact records_foldlM hcall chip.outputs c
  | script counter s =>
    simp only [Listener.chronicled, Listener.respond]
    split
    · have hactions := records_foldlM (fun c action => records_action hd s.tag c action) s.actions
        (c.onFabric fun f =>
          (f.setCounter counter (c.memory.counter counter + 1)).report (.fired s.tag))
      exact hactions.of_wires rfl
    · exact records_pure rfl
  | ram chip =>
    refine records_lift fun a ha => ?_
    obtain rfl := Option.some.inj ha
    simp only [id, Circuit.onFabric]
    split <;> rfl
  | rom | request | countdown | watch =>
    refine records_lift fun a ha => ?_
    obtain rfl := Option.some.inj ha
    rfl

/-- What it comes to when there is a listener to be called: it is told of the call, and then the others
    follow. -/
theorem run_callEach_cons (d : Chronicler) (call : Nat) (l : Listener) (ls : List Listener) (c : Circuit)
    (log : Chronicle) :
    (Circuit.callEach d call (l :: ls) c).run log =
      ((l.chronicled d c).run (log ++ [⟨.runs call l, c.memory⟩])).bind fun (c, log) =>
        (Circuit.callEach d call ls c).run log :=
  rfl

/-- What it comes to when a wire is driven: a beginning, the listeners that are found then, and an end. -/
theorem run_chronicled? (n : Nat) (wire : WireId) (level : Level) (c : Circuit) (log : Chronicle) :
    (Circuit.chronicled? (n + 1) wire level c).run log =
      ((Circuit.callEach (Circuit.chronicled? n) log.length ((c.memory.wire wire).listeners level)
        (c.onFabric (·.setLevel wire level))).run
          (log ++ [⟨.begins wire level, c.memory.setLevel wire level⟩])).bind fun (after, log') =>
        some (((c.memory.wire wire).level, after),
          log' ++ [⟨.finishes log.length (c.memory.wire wire).level, after.memory⟩]) :=
  rfl

/-- A call goes through its list: each listener once, in order, and nothing else on its behalf.  By
    induction on the list, which is the one that the call has found, whatever is registered meanwhile. -/
theorem callEach_orderly (hd : Keeps start d g) :
    ∀ (ls : List Listener) (c c' : Circuit) (log : Chronicle), call < log.length →
      Describes start log c.memory → ls.foldlM (fun c l => l.respond g c) c = some c' →
      ∃ new, (Circuit.callEach d call ls c).run log = some (c', log ++ new) ∧
        Orderly start (some call) log new ∧ Describes start (log ++ new) c'.memory ∧
        runsOf call new = ls ∧ answersOf call new = []
  | [], c, c', log, _, hlog, hc => by
    obtain rfl := Option.some.inj hc
    refine ⟨[], ?_, orderly_nil start _ log, ?_, rfl, rfl⟩
    · rw [List.append_nil]
      rfl
    · rwa [List.append_nil]
  | l :: ls, c, c', log, hcall, hlog, hc => by
    rw [List.foldlM_cons] at hc
    obtain ⟨mid, hmid, hrest⟩ := Option.bind_eq_some_iff.mp hc
    have hfirst : Describes start (log ++ [⟨.runs call l, c.memory⟩]) c.memory :=
      hlog.about (fun h => nomatch h)
    have hheard := orderly_about hfirst rfl
    obtain ⟨inner, hinner, horderly, hdescribed⟩ :=
      records_listener hd l c (log ++ [⟨.runs call l, c.memory⟩]) mid hfirst hmid
    have hlater : call < (log ++ [(⟨.runs call l, c.memory⟩ : Moment)] ++ inner).length := by
      simp only [List.length_append]
      omega
    obtain ⟨new, hnew, horderly', hend, hruns, hanswers⟩ :=
      callEach_orderly hd ls mid c' _ hlater hdescribed hrest
    have hsilent : ∀ m ∈ inner, m.entry.call? ≠ some call :=
      horderly.not_about (by rw [List.length_append]; omega) (fun h => nomatch h)
    -- the call of the first listener, what happens inside it, and the calls of the others
    refine ⟨[⟨.runs call l, c.memory⟩] ++ inner ++ new, ?_, ?_, ?_, ?_, ?_⟩
    · rw [run_callEach_cons, hinner, ← List.append_assoc, ← List.append_assoc]
      exact hnew
    · have hboth := hheard.append horderly.inside fun other hother => by
        obtain rfl := Option.some.inj hother
        exact hcall
      rw [List.append_assoc] at horderly'
      exact hboth.append horderly' fun other hother => by
        obtain rfl := Option.some.inj hother
        exact hcall
    · rwa [← List.append_assoc, ← List.append_assoc]
    · rw [runsOf_append, runsOf_append, runsOf_eq_nil hsilent, hruns]
      simp [runsOf]
    · rw [answersOf_append, answersOf_append, answersOf_eq_nil hsilent, hanswers]
      rfl

/-- What a circuit does when a wire is driven is told by its chronicle.  By induction on the depth: the
    calls that the listeners make are told by the chronicle of a smaller depth. -/
theorem keeps_chronicled (start : Fabric) :
    ∀ n, Keeps start (Circuit.chronicled? n) (Circuit.drive? n)
  | 0, _, _, _, _, _, _, hnone => nomatch hnone
  | n + 1, wire, level, c, log, (answer, c'), hlog, hdrive => by
    obtain ⟨after, hafter, hpair⟩ := Option.bind_eq_some_iff.mp hdrive
    obtain ⟨rfl, rfl⟩ := Prod.mk.inj (Option.some.inj hpair)
    have hfirst := hlog.begins wire level (c.memory.setLevel wire level)
    have hlater : log.length <
        (log ++ [(⟨.begins wire level, c.memory.setLevel wire level⟩ : Moment)]).length := by
      simp
    obtain ⟨body, hbody, horderly, hdescribed, hruns, hanswers⟩ :=
      callEach_orderly (keeps_chronicled start n) ((c.memory.wire wire).listeners level)
        (c.onFabric (·.setLevel wire level)) after _ hlater hfirst hafter
    have hlast := hdescribed.about
      (m := ⟨.finishes log.length (c.memory.wire wire).level, after.memory⟩) (fun h => nomatch h)
    refine ⟨_, ?_, orderly_call rfl ?_ hfirst horderly ?_ hanswers hlast, ?_⟩
    · rw [run_chronicled?, hbody, ← List.append_assoc, ← List.append_assoc]
      rfl
    · rw [hlog.level]
    · rw [hruns, hlog.listeners]
    · rwa [← List.append_assoc, ← List.append_assoc]

/-- What is orderly from the start, and goes with the fabric at its end, is lawful. -/
theorem Orderly.lawful {log : Chronicle} {final : Fabric} (h : Orderly start none [] log)
    (hends : Describes start log final) : Lawful start log final where
  described := h.described
  ends := hends
  begun before m after call hsplit hcall := by
    rcases h.begun before m after call hsplit hcall with hnone | hbegun
    · cases hnone
    · exact hbegun
  complete := h.complete

/-- At the start nothing is past, and the fabric is as it is. -/
theorem describes_start (start : Fabric) : Describes start [] start where
  level _ := rfl
  listeners w l := (List.append_nil ((start.wire w).listeners l)).symm

end Chronicle

namespace Circuit

variable (n : Nat) (tag : String)

/-- What is done to a circuit from outside, one thing after the other, each with its own depth of calls. -/
def performs (session : List (Action WireId BusId)) (c : Circuit) : Option Circuit :=
  session.foldlM (fun c action => action.run (drive? n) tag c) c

/-- The same, with a chronicle of all of it. -/
def chronicles (session : List (Action WireId BusId)) (c : Circuit) : Chronicled Circuit :=
  session.foldlM (fun c action => action.chronicled (chronicled? n) tag c) c

/-- Dispatch keeps its laws under re-entrancy.  Whatever circuit it is, and whatever is done to it from
    outside, if the calls come to an end then their chronicle leads to the same circuit and is lawful. -/
theorem dispatch_lawful (session : List (Action WireId BusId)) (c c' : Circuit)
    (h : performs n tag session c = some c') :
    ∃ log, (chronicles n tag session c).run [] = some (c', log) ∧
      Chronicle.Lawful c.memory log c'.memory := by
  have hkeeps := Chronicle.keeps_chronicled c.memory n
  have hsession := Chronicle.records_foldlM
    (fun c action => Chronicle.records_action hkeeps tag c action) session c
  obtain ⟨log, hrun, horderly, hends⟩ := hsession [] c' (Chronicle.describes_start c.memory) h
  exact ⟨log, hrun, horderly.lawful hends⟩

/-- A script lets another one listen to its own wire, drives this wire low again, and then high. -/
def restless : Circuit :=
  let other : Probe := { tag := "other", actions := [] }
  let first : Probe :=
    { tag := "first", limit := some 1,
      actions := [.listen ⟨0⟩ .low other, .drive ⟨0⟩ .low, .drive ⟨0⟩ .high] }
  { memory := ({} : Fabric).listenScript ⟨0⟩ .low first }

/-- The call from outside has the number 0 and runs the first script only; the call within it that begins
    after the registration has the number 3 and runs both; and the wire is left high. -/
theorem dispatch_lawful_restless :
    ∃ c' log, performs 3 "" [.drive ⟨0⟩ .low] restless = some c' ∧
      (chronicles 3 "" [.drive ⟨0⟩ .low] restless).run [] = some (c', log) ∧
      Chronicle.Lawful restless.memory log c'.memory ∧
      (Chronicle.runsOf 0 log).length = 1 ∧ (Chronicle.runsOf 3 log).length = 2 ∧
      (c'.memory.wire ⟨0⟩).level = .high := by
  have hsome : (performs 3 "" [.drive ⟨0⟩ .low] restless).isSome := by rfl
  obtain ⟨c', hc'⟩ := Option.isSome_iff_exists.mp hsome
  obtain ⟨log, hrun, hlawful⟩ := dispatch_lawful 3 "" [.drive ⟨0⟩ .low] restless c' hc'
  have hseen : ((chronicles 3 "" [.drive ⟨0⟩ .low] restless).run []).map (fun (c, log) =>
      ((Chronicle.runsOf 0 log).length, (Chronicle.runsOf 3 log).length,
        (c.memory.wire ⟨0⟩).level)) = some (1, 2, .high) := by rfl
  rw [hrun] at hseen
  obtain ⟨houter, hrest⟩ := Prod.mk.inj (Option.some.inj hseen)
  obtain ⟨hinner, hlevel⟩ := Prod.mk.inj hrest
  exact ⟨c', log, hc', hrun, hlawful, houter, hinner, hlevel⟩

end Circuit

end Breadboard
