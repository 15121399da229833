import Mathlib.Algebra.GroupWithZero.Nat
import Breadboard.Log.Journal
/-
  The limiter counts every message once.

  As long as no second goes by, a window forgets nothing, so it remembers as many messages as it has let
  through, and it has reported just if it has refused a message (`Tallies`).  Judging one message keeps this
  up (`Tallies.judge`), and so does whatever else happens to a journal in between (`tallied_meetAll`): what
  one category asks for leaves the windows of the others alone, and the limit is looked at only when a
  message is judged.  The refused messages are those that have been reported and those still held back,
  because each verdict moves the count from one side to the other.
-/
namespace Breadboard

/-! ## Verdicts -/

namespace Verdict

/-- How many messages have passed.  It is this number that the limit is about, whatever else has been
    answered. -/
def allowed (verdicts : List Verdict) : Nat :=
  verdicts.countP (·.passes)

/-- How many messages have been refused, whether they have been reported already or not. -/
def refusals (verdicts : List Verdict) : Nat :=
  verdicts.countP (!·.passes)

/-- How many refused messages all reports together have covered.  A report that comes along with a message
    that passes counts like any other. -/
def covered (verdicts : List Verdict) : Nat :=
  (verdicts.filterMap (·.report)).sum

variable (verdicts : List Verdict)

/-- One more verdict counts in the quota just if its message has passed. -/
theorem allowed_snoc (v : Verdict) :
    allowed (verdicts ++ [v]) = allowed verdicts + if v.passes then 1 else 0 := by
  simp [allowed, List.countP_cons]

/-- One more verdict counts among the refusals just if its message has not passed. -/
theorem refusals_snoc (v : Verdict) :
    refusals (verdicts ++ [v]) = refusals verdicts + if v.passes then 0 else 1 := by
  cases hv : v.passes <;> simp [refusals, hv]

/-- One more verdict covers what is in its report, and nothing if there is none. -/
theorem covered_snoc (v : Verdict) :
    covered (verdicts ++ [v]) = covered verdicts + v.report.getD 0 := by
  cases hv : v.report <;> simp [covered, hv]

end Verdict

/-! ## A window within a second -/

namespace LogWindow

open Verdict

/-- A window that was new at `start`, after these verdicts.  It has forgotten nothing. -/
structure Tallies (start : Nat) (before : List Verdict) (w : LogWindow) : Prop where
  size : w.passed.size = allowed before
  conserved : refusals before = covered before + w.heldBack
  unreported : w.reported = none ↔ refusals before = 0
  passedSince : ∀ time ∈ w.passed, start ≤ time
  reportedSince : ∀ time ∈ w.reported, start ≤ time

variable {start now : Nat} {before : List Verdict} {w : LogWindow}

/-- A new window remembers nothing, and there is nothing to remember: the counting starts here. -/
theorem tallies_new : Tallies start [] {} where
  size := rfl
  conserved := rfl
  unreported := ⟨fun _ => rfl, fun _ => rfl⟩
  passedSince _ h := by simp at h
  reportedSince _ h := by simp at h

namespace Tallies

/-- Within a second no entry is old enough to be thrown away, since the oldest is not older than the
    window. -/
theorem forget (h : Tallies start before w) (hnow : now < start + second) : w.forget now = w := by
  unfold LogWindow.forget
  cases hfirst : w.passed[0]? with
  | none => rfl
  | some time =>
    have hsince := h.passedSince time (Array.mem_of_getElem? hfirst)
    have hfresh : ¬second < now - time := by omega
    simp [stale, hfresh]

/-- Within a second there is no second report of refusals, unless a message passes. -/
theorem due (h : Tallies start before w) (hnow : now < start + second) :
    w.reported.all (second ≤ now - ·) = decide (refusals before = 0) := by
  have hunreported := h.unreported
  cases hreported : w.reported with
  | none => simp [hunreported.mp hreported]
  | some time =>
    have hsince := h.reportedSince time hreported
    -- a report that is remembered has covered a refusal, and it is not a second old
    have hrefused : refusals before ≠ 0 := fun hnone => by
      rw [hunreported.mpr hnone] at hreported
      cases hreported
    have hearly : ¬second ≤ now - time := by unfold second at hnow ⊢; omega
    simp [hrefused, hearly]

/-- A message that passes takes along the report of all that is held back. -/
theorem pass (h : Tallies start before w) (hstart : start ≤ now) :
    (w.pass now).1 = ⟨true, if w.heldBack = 0 then none else some w.heldBack⟩ ∧
      Tallies start (before ++ [(w.pass now).1]) (w.pass now).2 := by
  have hsince : ∀ time ∈ w.passed.push now, start ≤ time := by
    intro time htime
    rcases Array.mem_push.mp htime with htime | rfl
    · exact h.passedSince time htime
    · exact hstart
  have hconserved := h.conserved
  unfold LogWindow.pass
  by_cases hheld : w.heldBack = 0
  -- nothing is held back, so there is nothing to report
  · rw [if_pos hheld, if_pos hheld]
    refine ⟨rfl, ?_, ?_, ?_, hsince, h.reportedSince⟩
    · rw [Array.size_push, h.size, allowed_snoc]
      rfl
    · rw [refusals_snoc, covered_snoc]
      exact hconserved
    · rw [refusals_snoc]
      exact h.unreported
  · rw [if_neg hheld, if_neg hheld]
    refine ⟨rfl, ?_, ?_, ?_, hsince, ?_⟩
    · rw [Array.size_push, h.size, allowed_snoc]
      rfl
    · rw [refusals_snoc, covered_snoc]
      exact hconserved
    · -- something is held back, so there has been a refusal
      have hrefused : refusals before ≠ 0 := by omega
      rw [refusals_snoc]
      exact ⟨fun hnone => (nomatch hnone), fun hzero => absurd hzero hrefused⟩
    · exact fun time htime => (Option.mem_some.mp htime) ▸ hstart

/-- A message that is refused is reported if it is the first, and held back otherwise. -/
theorem refuse (h : Tallies start before w) (hstart : start ≤ now) (hnow : now < start + second) :
    (w.refuse now).1 = ⟨false, if refusals before = 0 then some 1 else none⟩ ∧
      Tallies start (before ++ [(w.refuse now).1]) (w.refuse now).2 := by
  have hconserved := h.conserved
  unfold LogWindow.refuse
  simp only [h.due hnow, decide_eq_true_eq]
  by_cases hfirst : refusals before = 0
  · rw [if_pos hfirst, if_pos hfirst]
    have hheld : w.heldBack = 0 := by omega
    refine ⟨by rw [hheld], ?_, ?_, ?_, h.passedSince, ?_⟩
    · rw [allowed_snoc]
      exact h.size
    · rw [refusals_snoc, covered_snoc]
      -- the message joins those that are held back, and is covered with them
      show refusals before + 1 = covered before + (w.heldBack + 1) + 0
      omega
    · rw [refusals_snoc]
      exact ⟨fun hnone => (nomatch hnone), fun hzero => absurd hzero (Nat.succ_ne_zero _)⟩
    · exact fun time htime => (Option.mem_some.mp htime) ▸ hstart
  · rw [if_neg hfirst, if_neg hfirst]
    refine ⟨rfl, ?_, ?_, ?_, h.passedSince, h.reportedSince⟩
    · rw [allowed_snoc]
      exact h.size
    · rw [refusals_snoc, covered_snoc]
      -- the message is held back, and no report covers it yet
      show refusals before + 1 = covered before + 0 + (w.heldBack + 1)
      omega
    · rw [refusals_snoc]
      exact ⟨fun hnone => absurd (h.unreported.mp hnone) hfirst,
        fun hzero => absurd hzero (Nat.succ_ne_zero _)⟩

end Tallies

/-- What a window answers after these verdicts, said without its entries: the quota is counted from the
    verdicts alone. -/
def answer (limit : Nat) (before : List Verdict) (w : LogWindow) : Verdict :=
  if allowed before < limit then ⟨true, if w.heldBack = 0 then none else some w.heldBack⟩
  else ⟨false, if refusals before = 0 then some 1 else none⟩

/-- Judging one message: the answer is the one that the count asks for, and the count goes on.  This is the
    step from which the rest of the module follows. -/
theorem Tallies.judge (h : Tallies start before w) (limit : Nat) (hstart : start ≤ now)
    (hnow : now < start + second) :
    (w.judge limit now).1 = answer limit before w ∧
      Tallies start (before ++ [(w.judge limit now).1]) (w.judge limit now).2 := by
  unfold LogWindow.judge answer
  simp only [h.forget hnow, h.size]
  by_cases hroom : allowed before < limit
  · rw [if_pos hroom, if_pos hroom]
    exact h.pass hstart
  · rw [if_neg hroom, if_neg hroom]
    exact h.refuse hstart hnow

end LogWindow

/-! ## What happens to a journal -/

/-- What can happen to a journal: a message that asks to pass, a new limit, or time that goes by. -/
inductive LogEvent where
  | ask (category : LogCategory)
  | setLimit (limit : Nat)
  | wait (nanos : Nat)

namespace LogEvent

/-- The time that goes by with an event, in nanoseconds.  Only waiting takes time. -/
def nanos : LogEvent → Nat
  | .wait nanos => nanos
  | _ => 0

/-- Whether it is of any interest to a category: the messages of the others are not. -/
def concerns (category : LogCategory) : LogEvent → Bool
  | .ask other => other = category
  | _ => true

end LogEvent

/-- The verdict on a message, together with the category that the message belongs to. -/
structure Ruling where
  category : LogCategory
  verdict : Verdict

/-- The verdicts on the messages of one category, in the order in which they were given. -/
def verdictsOn (category : LogCategory) (rulings : List Ruling) : List Verdict :=
  rulings.filterMap fun r => if r.category = category then some r.verdict else none

/-- The verdicts of a longer history are those of its two parts, one after the other. -/
theorem verdictsOn_append (category : LogCategory) (first second : List Ruling) :
    verdictsOn category (first ++ second) = verdictsOn category first ++ verdictsOn category second :=
  List.filterMap_append

/-- A single ruling is a verdict on its own category and on no other. -/
theorem verdictsOn_single (category other : LogCategory) (v : Verdict) :
    verdictsOn category [⟨other, v⟩] = if other = category then [v] else [] := by
  by_cases hother : other = category <;> simp [verdictsOn, hother]

namespace Journal

/-- What one event does to a journal, and the rulings that come of it: one for a message, and none for
    anything else. -/
def meet (j : Journal) : LogEvent → List Ruling × Journal
  | .ask category => ([⟨category, (j.judge category).1⟩], (j.judge category).2)
  | .setLimit limit => ([], { j with limit })
  | .wait nanos => ([], j.wait nanos)

/-- One event after the other, and all rulings in their order. -/
def meetAll : List LogEvent → Journal → List Ruling × Journal
  | [], j => ([], j)
  | event :: events, j =>
    let later := meetAll events (j.meet event).2
    ((j.meet event).1 ++ later.1, later.2)

/-- How much time goes by in all, over a list of events. -/
def elapsed (events : List LogEvent) : Nat :=
  (events.map (·.nanos)).sum

/-- The clock of a journal moves by just the time of the event. -/
theorem now_meet (j : Journal) (event : LogEvent) : (j.meet event).2.now = j.now + event.nanos := by
  cases event <;> rfl

/-- Over a list of events it moves by the sum of them, by induction on the list. -/
theorem now_meetAll (events : List LogEvent) (j : Journal) :
    (meetAll events j).2.now = j.now + elapsed events := by
  induction events generalizing j with
  | nil => rfl
  | cons event events ih =>
    rw [meetAll, ih, now_meet, elapsed, elapsed, List.map_cons, List.sum_cons, Nat.add_assoc]

/-! ## Counting -/

/-- A journal whose windows were new at `start`, after these rulings: each window has counted the verdicts
    of its own category, and only these. -/
structure Tallied (start : Nat) (rulings : List Ruling) (j : Journal) : Prop where
  started : start ≤ j.now
  windows : ∀ category, LogWindow.Tallies start (verdictsOn category rulings) (j.windows.get category)

variable {start : Nat} {rulings : List Ruling} {j : Journal}

/-- A journal with a new limiter has nothing to count yet. -/
theorem tallied_new (h : j.windows = .const {}) : Tallied j.now [] j where
  started := Nat.le_refl _
  windows category := by
    rw [h, PerCategory.get_const]
    exact LogWindow.tallies_new

/-- Whatever happens, every window keeps its count, for nobody asks any window but that of the message. -/
theorem Tallied.meet (h : Tallied start rulings j) (event : LogEvent)
    (hnow : (j.meet event).2.now < start + second) :
    Tallied start (rulings ++ (j.meet event).1) (j.meet event).2 := by
  rw [now_meet] at hnow
  refine ⟨?_, fun category => ?_⟩
  · rw [now_meet]
    exact Nat.le_add_right_of_le h.started
  · cases event with
    | setLimit limit => simpa [Journal.meet] using h.windows category
    | wait nanos => simpa [Journal.meet, Journal.wait] using h.windows category
    | ask asking =>
      -- a message is judged by its own window, and the others are not looked at
      have hjudge := (h.windows asking).judge j.limit h.started hnow
      show LogWindow.Tallies start _ ((j.windows.set asking _).get category)
      rw [verdictsOn_append, Journal.meet, verdictsOn_single, PerCategory.get_set]
      by_cases hasking : asking = category
      · subst hasking
        rw [if_pos rfl, if_pos rfl]
        exact hjudge.2
      · rw [if_neg hasking, if_neg (Ne.symm hasking), List.append_nil]
        exact h.windows category

/-- Nor do any number of events disturb the counts, as long as all of them happen within the second.  The
    induction is on the events; the time that is left is handed on from step to step. -/
theorem tallied_meetAll (events : List LogEvent) (h : Tallied start rulings j)
    (hnow : j.now + elapsed events < start + second) :
    Tallied start (rulings ++ (meetAll events j).1) (meetAll events j).2 := by
  induction events generalizing rulings j with
  | nil => simpa [meetAll] using h
  | cons event events ih =>
    rw [elapsed, List.map_cons, List.sum_cons, ← Nat.add_assoc, ← now_meet] at hnow
    -- the clock after the first event is not past the clock after all of them
    have hfirst := h.meet event (Nat.lt_of_le_of_lt (Nat.le_add_right ..) hnow)
    rw [meetAll, ← List.append_assoc]
    exact ih hfirst hnow

/-! ## One category and the others -/

/-- All that matters to one category: two journals that agree in this may differ in the windows of the
    others, and in what they have written. -/
structure SameFor (category : LogCategory) (j k : Journal) : Prop where
  limit : j.limit = k.limit
  now : j.now = k.now
  window : j.windows.get category = k.windows.get category

variable {category : LogCategory} {k : Journal}

/-- Whoever agrees in all that matters gives the same verdict. -/
theorem SameFor.judge (h : SameFor category j k) : (j.judge category).1 = (k.judge category).1 := by
  unfold Journal.judge
  rw [h.limit, h.now, h.window]

/-- What concerns the category has the same effect on both journals, and they agree again afterwards. -/
theorem SameFor.meet (h : SameFor category j k) {event : LogEvent} (hevent : event.concerns category) :
    verdictsOn category (j.meet event).1 = verdictsOn category (k.meet event).1 ∧
      SameFor category (j.meet event).2 (k.meet event).2 := by
  cases event with
  | setLimit limit => exact ⟨rfl, rfl, h.now, h.window⟩
  | wait nanos => exact ⟨rfl, h.limit, congrArg (· + nanos) h.now, h.window⟩
  | ask asking =>
    obtain rfl : asking = category := of_decide_eq_true hevent
    refine ⟨?_, h.limit, h.now, ?_⟩
    · rw [Journal.meet, Journal.meet, h.judge]
    · show (j.windows.set asking _).get asking = (k.windows.set asking _).get asking
      rw [PerCategory.get_set, PerCategory.get_set, if_pos rfl, if_pos rfl, h.limit, h.now, h.window]

/-- What does not concern it leaves everything that matters to it as it is. -/
theorem SameFor.pass (h : SameFor category j k) {event : LogEvent}
    (hevent : ¬event.concerns category) :
    verdictsOn category (j.meet event).1 = [] ∧ SameFor category (j.meet event).2 k := by
  cases event with
  | setLimit limit => exact absurd rfl hevent
  | wait nanos => exact absurd rfl hevent
  | ask asking =>
    have hasking : asking ≠ category := fun heq => hevent (decide_eq_true heq)
    refine ⟨?_, h.limit, h.now, ?_⟩
    · rw [Journal.meet, verdictsOn_single, if_neg hasking]
    · show (j.windows.set asking _).get category = _
      rw [PerCategory.get_set, if_neg hasking.symm, h.window]

/-- Without the messages of the others, a category gets the same verdicts.  The induction is on the events,
    and each of them either concerns the category or is left out on one side. -/
theorem sameFor_meetAll (events : List LogEvent) (h : SameFor category j k) :
    verdictsOn category (meetAll events j).1 =
        verdictsOn category (meetAll (events.filter (·.concerns category)) k).1 ∧
      SameFor category (meetAll events j).2 (meetAll (events.filter (·.concerns category)) k).2 := by
  induction events generalizing j k with
  | nil => exact ⟨rfl, h⟩
  | cons event events ih =>
    by_cases hevent : event.concerns category = true
    · obtain ⟨hverdicts, hmet⟩ := h.meet hevent
      obtain ⟨hlater, hall⟩ := ih hmet
      rw [List.filter_cons_of_pos hevent, meetAll, meetAll, verdictsOn_append, verdictsOn_append]
      exact ⟨by rw [hverdicts, hlater], hall⟩
    · obtain ⟨hverdicts, hmet⟩ := h.pass hevent
      obtain ⟨hlater, hall⟩ := ih hmet
      rw [List.filter_cons_of_neg hevent, meetAll, verdictsOn_append, hverdicts, List.nil_append]
      exact ⟨hlater, hall⟩

/-! ## Messages -/

/-- What becomes of a message that is offered: whether it is put into words, and what it leaves in the
    journal. -/
structure Offers (j : Journal) (category : LogCategory) (level : LogLevel) (text : Unit → String) :
    Prop where
  /-- It is put into words just if it is wanted and passes. -/
  spoken : (j.offer category level text).1 = (j.wants category level && (j.judge category).1.passes)
  /-- If it is not, it does not matter what its words would have been. -/
  unspoken : (j.offer category level text).1 = false →
    ∀ other, j.offer category level other = j.offer category level text
  /-- A message that is not wanted takes up no room. -/
  unwanted : j.wants category level = false → (j.offer category level text).2 = j
  /-- One that is wanted is judged.  It is written if it passes, above the report that comes with its
      verdict. -/
  wanted : j.wants category level = true →
    (j.offer category level text).2 = { (j.judge category).2 with
      entries := (if (j.judge category).1.passes then [.message category level (text ())] else []) ++
        (j.judge category).1.report.toList.map (.dropped category) ++ j.entries }

/-- A message that its category does not want is turned away before the limiter has seen it. -/
theorem offer_of_unwanted {level : LogLevel} (h : j.wants category level = false)
    (text : Unit → String) : j.offer category level text = (false, j) := by
  unfold offer
  rw [h]
  rfl

/-- One that is wanted goes through the limiter, and the journal has grown by what the verdict says. -/
theorem offer_of_wanted {level : LogLevel} (h : j.wants category level = true)
    (text : Unit → String) : j.offer category level text = ((j.judge category).1.passes,
      { (j.judge category).2 with
        entries := (if (j.judge category).1.passes then [.message category level (text ())] else []) ++
          (j.judge category).1.report.toList.map (.dropped category) ++ j.entries }) := by
  unfold offer
  rw [if_pos h]
  -- of the journal that comes of judging, only the windows are new
  have hentries : (j.judge category).2.entries = j.entries := rfl
  generalize j.judge category = judged at hentries
  obtain ⟨⟨passes, report⟩, judged⟩ := judged
  rw [← hentries]
  cases passes <;> cases report <;> rfl

/-- Every offer is of this kind, by cases on whether the message is wanted at all. -/
theorem offers (j : Journal) (category : LogCategory) (level : LogLevel) (text : Unit → String) :
    Offers j category level text := by
  cases hwants : j.wants category level with
  | false =>
    have hoffer := fun text => offer_of_unwanted hwants text
    constructor
    case spoken => rw [hoffer, hwants]; rfl
    case unspoken => exact fun _ other => (hoffer other).trans (hoffer text).symm
    case unwanted => exact fun _ => by rw [hoffer]
    case wanted => exact fun hwanted => absurd (hwants.symm.trans hwanted) (by decide)
  | true =>
    have hoffer := fun text => offer_of_wanted hwants text
    constructor
    case spoken => rw [hoffer, hwants]; rfl
    case unspoken =>
      intro hunspoken other
      -- it was wanted, so it can only be the verdict that has kept it back
      have hrefused : (j.judge category).1.passes = false := by rwa [hoffer text] at hunspoken
      rw [hoffer other, hoffer text, hrefused]
      rfl
    case unwanted => exact fun hunwanted => absurd (hwants.symm.trans hunwanted) (by decide)
    case wanted => exact fun _ => by rw [hoffer]

/-- What a limiter answers to the next message of a category, after these verdicts on the earlier ones. -/
structure Fair (category : LogCategory) (before : List Verdict) (j : Journal) : Prop where
  /-- It passes just if fewer than the limit have passed. -/
  quota : (j.judge category).1.passes = true ↔ Verdict.allowed before < j.limit
  /-- The refused messages are those that have been reported, and those that are held back. -/
  conserved : Verdict.refusals before =
    Verdict.covered before + (j.windows.get category).heldBack
  /-- The first refusal is reported at once, and no other is. -/
  refused : (j.judge category).1.passes = false →
    (j.judge category).1.report = if Verdict.refusals before = 0 then some 1 else none
  /-- A message that passes brings to light all that is held back. -/
  passed : (j.judge category).1.passes = true → (j.judge category).1.report =
    if (j.windows.get category).heldBack = 0 then none else some (j.windows.get category).heldBack

/-- A journal that has counted right answers right, by cases on whether there is room under the limit. -/
theorem Tallied.fair (h : Tallied start rulings j) (hnow : j.now < start + second)
    (category : LogCategory) : Fair category (verdictsOn category rulings) j := by
  have hwindow := h.windows category
  have hanswer : (j.judge category).1 = _ := (hwindow.judge j.limit h.started hnow).1
  rw [LogWindow.answer] at hanswer
  by_cases hroom : Verdict.allowed (verdictsOn category rulings) < j.limit
  · rw [if_pos hroom] at hanswer
    constructor
    case quota => simp [hanswer, hroom]
    case conserved => exact hwindow.conserved
    case refused => simp [hanswer]
    case passed => simp [hanswer]
  · rw [if_neg hroom] at hanswer
    constructor
    case quota => simp [hanswer, hroom]
    case conserved => exact hwindow.conserved
    case refused => simp [hanswer]
    case passed => simp [hanswer]

/-- Within a second every message counts once.  Whatever has happened to a journal with a new limiter, in any
    order and to any category, the next message of a category gets what is its due; the messages of the
    others make no difference to it; and only messages that are wanted are counted. -/
theorem counts_once (j : Journal) (hnew : j.windows = .const {}) (events : List LogEvent)
    (hwithin : elapsed events < second) (category : LogCategory) :
    Fair category (verdictsOn category (meetAll events j).1) (meetAll events j).2 ∧
    (verdictsOn category (meetAll events j).1 =
        verdictsOn category (meetAll (events.filter (·.concerns category)) j).1 ∧
      (meetAll events j).2.windows.get category =
        (meetAll (events.filter (·.concerns category)) j).2.windows.get category) ∧
    ∀ (k : Journal) (level : LogLevel) (text : Unit → String), Offers k category level text := by
  have hnow : j.now + elapsed events < j.now + second := Nat.add_lt_add_left hwithin _
  have htallied := tallied_meetAll events (tallied_new hnew) hnow
  rw [← now_meetAll] at hnow
  have hself : SameFor category j j := ⟨rfl, rfl, rfl⟩
  obtain ⟨hverdicts, hsame⟩ := sameFor_meetAll events hself
  refine ⟨htallied.fair hnow category, ⟨hverdicts, hsame.window⟩, fun k level text => ?_⟩
  exact k.offers category level text

/-- Two messages pass, the third is reported, the fourth held back, and a higher limit brings it to light. -/
theorem counts_once_raising :
    let j : Journal := { limit := 2 }
    let events : List LogEvent :=
      [.ask .cpu, .ask .signals, .ask .cpu, .wait 1000, .ask .cpu, .ask .cpu, .setLimit 3]
    j.windows = .const {} ∧ elapsed events < second ∧
    Fair .cpu [⟨true, none⟩, ⟨true, none⟩, ⟨false, some 1⟩, ⟨false, none⟩] (meetAll events j).2 ∧
    ((meetAll events j).2.judge .cpu).1 = ⟨true, some 1⟩ := by
  have hverdicts : verdictsOn .cpu (meetAll [.ask .cpu, .ask .signals, .ask .cpu, .wait 1000, .ask .cpu,
      .ask .cpu, .setLimit 3] { limit := 2 }).1 =
      [⟨true, none⟩, ⟨true, none⟩, ⟨false, some 1⟩, ⟨false, none⟩] := by decide
  refine ⟨rfl, by decide, ?_, by decide⟩
  rw [← hverdicts]
  exact (counts_once { limit := 2 } rfl _ (by decide) .cpu).1

end Journal

end Breadboard
