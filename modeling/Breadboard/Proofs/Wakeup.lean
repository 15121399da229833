import Breadboard.Pacing.Desk
import Breadboard.Proofs.Credit
/-
  No wake-up is lost.

  One thread waits for leave to execute, by the steps of a `Waiter`; any number of others grant, stop,
  pause and resume meanwhile.  Such a call does two things one after the other: it changes what it is
  about, and then it fills the wake-up slot, unless it is a pause.  Everything else may happen between the
  two.  There is only one slot, so several calls may fill it before the thread empties it, and the thread
  may empty it for a call that concerns something else than what it went to sleep for.

  What saves the waiter is that emptying the slot comes before looking.  The invariant `Sound` follows the
  thread through a round: whatever it has already looked at in vain and that would be different by now was
  changed by a call that has filled the slot since, or is about to.  So a thread that sleeps before an
  empty slot, with no call under way, has nothing to wake up for.
-/
namespace Breadboard

/-! ## Calls in two halves -/

namespace Panel

/-- Fills the wake-up slot, whoever has it to fill. -/
def release (p : Panel) : Panel :=
  { p with budget := p.budget.wake }

/-- There is no reason to hold the thread: it is to end, or it may go on. -/
def Due (p : Panel) : Prop :=
  p.control.stopped = true ∨ p.control.paused = false ∧ 1 ≤ p.budget.credit.toInt

/-- When nothing is due: there is no stop, and a pause or the want of credit holds the thread. -/
theorem not_due_iff (p : Panel) : ¬p.Due ↔
    p.control.stopped = false ∧ (p.control.paused = true ∨ p.budget.credit.toInt < 1) := by
  unfold Due
  cases p.control.stopped <;> cases p.control.paused <;> simp

end Panel

namespace DeskAction

/-- The first half of a call: what it changes.  The slot is filled in the second half, and other things may
    happen in between. -/
def update (panel : Panel) : DeskAction → Panel
  | .grant quantum =>
    { panel with
      budget := { panel.budget.grant quantum with released := panel.budget.released } }
  | .wake => panel
  | .stop => { panel with control := { panel.control with stopped := true } }
  | .pause => panel.pause
  | .resume => { panel with control := { panel.control with paused := false } }

/-- Whether there is a second half: a pause is nothing to wake up for. -/
def releases : DeskAction → Bool
  | .pause => false
  | _ => true

/-- A call that nothing comes in between of is one half after the other. -/
theorem apply_eq (action : DeskAction) (panel : Panel) :
    action.apply panel =
      if action.releases then (action.update panel).release else action.update panel := by
  cases action <;> rfl

end DeskAction

/-! ## The thread and the calls -/

/-- A thread that waits for leave, and what goes on around it.  Calls are cut in two, because nothing holds
    the others up between their halves. -/
structure Vigil where
  panel : Panel
  waiter : Waiter := .checkStop
  /-- The calls that have made their change and have not filled the slot yet. -/
  underway : List DeskAction := []
  /-- The panels that the thread has looked at since it last began with the stop, the first one first. -/
  seen : List Panel := []

namespace Vigil

/-- What the thread will have seen of this round when it has made its next step. -/
def looked (v : Vigil) : List Panel :=
  match v.waiter with
  | .checkStop => [v.panel]
  | .checkPause | .checkCredit => v.seen ++ [v.panel]
  | .asleep | .awake | .answered _ => v.seen

/-- A call makes its change; if it is one that wakes, it stays under way until it has filled the slot. -/
def begin (v : Vigil) (action : DeskAction) : Vigil :=
  { v with
    panel := action.update v.panel
    underway := if action.releases then action :: v.underway else v.underway }

/-- A call that is under way fills the slot, and is done. -/
def finish (v : Vigil) (action : DeskAction) : Vigil :=
  { v with panel := v.panel.release, underway := v.underway.erase action }

/-- One thing that happens next, a step of the thread or a half of somebody's call. -/
inductive Step (v : Vigil) : Vigil → Prop where
  | thread {waiter panel} (h : v.waiter.step? v.panel = some (waiter, panel)) :
    Step v { v with waiter, panel, seen := v.looked }
  | begin (action : DeskAction) : Step v (v.begin action)
  | finish (action : DeskAction) (h : action ∈ v.underway) : Step v (v.finish action)
  /-- With its answer the thread goes away, charges what it has executed, and comes back for more. -/
  | again {leave} (cycles : Nat) (h : v.waiter = .answered leave) :
    Step v { v with waiter := .checkStop, panel := v.panel.charge cycles }

/-- Whatever may have happened since the thread first asked, with any panel to begin with. -/
inductive Reachable : Vigil → Prop where
  | start (panel : Panel) : Reachable { panel }
  | step {v v'} (h : Reachable v) (hstep : Step v v') : Reachable v'

/-! ## What holds at all times -/

/-- The slot is full, or a call will fill it: in either case a sleeper will be woken. -/
def Pending (v : Vigil) : Prop :=
  v.panel.budget.released = true ∨ v.underway ≠ []

/-- What is known of the panel and of the round, by where the thread is.  Stops are not taken back, but
    what has been looked at may have changed since: then a release is pending. -/
def Sound (v : Vigil) : Prop :=
  match v.waiter with
  | .checkStop | .awake => True
  | .checkPause =>
    (v.panel.control.stopped = true → v.Pending) ∧
      ∃ a, v.seen = [a] ∧ a.control.stopped = false
  | .checkCredit =>
    (v.panel.control.stopped = true → v.Pending) ∧
      ∃ a b, v.seen = [a, b] ∧ a.control.stopped = false ∧ b.control.paused = false
  | .asleep => v.panel.Due → v.Pending
  | .answered true =>
    ∃ a b c, v.seen = [a, b, c] ∧ a.control.stopped = false ∧ b.control.paused = false ∧
      1 ≤ c.budget.credit.toInt
  | .answered false =>
    v.panel.control.stopped = true ∧ ∃ a, v.seen = [a] ∧ a.control.stopped = true

variable {v v' : Vigil}

/-! ## What a call keeps -/

theorem pending_begin (action : DeskAction) (h : v.Pending) : (v.begin action).Pending := by
  rcases h with hslot | hcalls
  · left
    cases action <;> exact hslot
  · right
    unfold begin
    split
    · exact List.cons_ne_nil _ _
    · exact hcalls

/-- A call with a second half will fill the slot, whatever it changes. -/
theorem pending_of_releases {action : DeskAction} (h : action.releases = true) :
    (v.begin action).Pending := by
  right
  simp [begin, h]

/-- A call that finishes has filled the slot. -/
theorem pending_finish (action : DeskAction) : (v.finish action).Pending :=
  .inl rfl

/-- Only a stop sets the stop, and a stop is a call that wakes. -/
theorem stopped_begin {action : DeskAction}
    (h : (v.begin action).panel.control.stopped = true) :
    v.panel.control.stopped = true ∨ action.releases = true := by
  cases action with
  | pause => exact .inl h
  | grant | wake | stop | resume => exact .inr rfl

/-- No call takes a stop back, a resume included. -/
theorem stays_stopped (action : DeskAction) (h : v.panel.control.stopped = true) :
    (v.begin action).panel.control.stopped = true := by
  cases action <;> first | exact h | rfl

/-- A call that gives the thread a reason to wake up is one that will fill the slot. -/
theorem due_begin {action : DeskAction} (h : (v.begin action).panel.Due) :
    v.panel.Due ∨ action.releases = true := by
  cases action with
  | pause =>
    -- a pause holds the thread, so there can only be a reason that was there before
    rcases h with hstopped | ⟨hpaused, -⟩
    · exact .inl (.inl hstopped)
    · cases hpaused
  | grant | wake | stop | resume => exact .inr rfl

/-- If what there was to wait for was pending, it is pending after a call's first half. -/
theorem pending_step {before after : Prop} {action : DeskAction} (h : before → v.Pending)
    (hafter : after → before ∨ action.releases = true) : after → (v.begin action).Pending := by
  intro ha
  rcases hafter ha with hbefore | hreleases
  · exact pending_begin action (h hbefore)
  · exact pending_of_releases hreleases

/-! ## Every step keeps it -/

/-- The invariant survives the first half of any call: whatever the call makes due, it brings the wake-up
    for it along. -/
theorem sound_begin (action : DeskAction) (h : v.Sound) : (v.begin action).Sound := by
  have hwaiter : (v.begin action).waiter = v.waiter := rfl
  unfold Sound at h ⊢
  rw [hwaiter]
  split at h
  · trivial
  · trivial
  · exact ⟨pending_step h.1 stopped_begin, h.2⟩
  · exact ⟨pending_step h.1 stopped_begin, h.2⟩
  · exact pending_step h due_begin
  · exact h
  · exact ⟨stays_stopped action h.1, h.2⟩

/-- The invariant survives the second half: a full slot can only help. -/
theorem sound_finish (action : DeskAction) (h : v.Sound) : (v.finish action).Sound := by
  have hwaiter : (v.finish action).waiter = v.waiter := rfl
  unfold Sound at h ⊢
  rw [hwaiter]
  split at h
  · trivial
  · trivial
  · exact ⟨fun _ => pending_finish action, h.2⟩
  · exact ⟨fun _ => pending_finish action, h.2⟩
  · exact fun _ => pending_finish action
  · exact h
  · exact h

/-- The invariant survives each step of the thread.  The hard case is falling asleep, where what has been
    looked at must not have become due without a wake-up. -/
theorem sound_thread {waiter : Waiter} {panel : Panel}
    (hstep : v.waiter.step? v.panel = some (waiter, panel)) (h : v.Sound) :
    Sound { v with waiter, panel, seen := v.looked } := by
  obtain ⟨before, w, underway, seen⟩ := v
  cases w with
  | checkStop =>
    obtain ⟨rfl, rfl⟩ := Prod.mk.inj (Option.some.inj hstep)
    by_cases hstopped : before.control.stopped = true
    · simp only [hstopped, if_true]
      exact ⟨hstopped, before, rfl, hstopped⟩
    · simp only [hstopped]
      exact ⟨fun h => absurd h hstopped, before, rfl, by simpa using hstopped⟩
  | checkPause =>
    obtain ⟨rfl, rfl⟩ := Prod.mk.inj (Option.some.inj hstep)
    obtain ⟨hstop, a, rfl, ha⟩ := h
    by_cases hpaused : before.control.paused = true
    · -- as long as the pause is on, only a stop is worth waking up for
      simp only [hpaused, if_true]
      rintro (hstopped | ⟨hresumed, -⟩)
      · exact hstop hstopped
      · rw [hpaused] at hresumed
        cases hresumed
    -- not paused at this moment, which is the second of the three that an answer needs
    · simp only [hpaused]
      exact ⟨hstop, a, before, rfl, ha, by simpa using hpaused⟩
  | checkCredit =>
    obtain ⟨rfl, rfl⟩ := Prod.mk.inj (Option.some.inj hstep)
    obtain ⟨hstop, a, b, rfl, ha, hb⟩ := h
    by_cases hcredit : before.budget.affordable = true
    -- the answer is a yes, and the three moments are those of this round
    · simp only [hcredit, if_true]
      exact ⟨a, b, before, rfl, ha, hb, before.budget.affordable_iff.mp hcredit⟩
    · simp only [hcredit]
      rintro (hstopped | ⟨-, hdue⟩)
      · exact hstop hstopped
      · exact absurd (before.budget.affordable_iff.mpr hdue) hcredit
  | asleep =>
    simp only [Waiter.step?] at hstep
    split at hstep
    · obtain ⟨rfl, rfl⟩ := Prod.mk.inj (Option.some.inj hstep)
      trivial
    · cases hstep
  | awake =>
    obtain ⟨rfl, rfl⟩ := Prod.mk.inj (Option.some.inj hstep)
    trivial
  | answered leave => cases hstep

/-- So it survives whatever happens next. -/
theorem sound_step (hstep : Step v v') (h : v.Sound) : v'.Sound := by
  cases hstep with
  | thread hthread => exact sound_thread hthread h
  | begin action => exact sound_begin action h
  | finish action hmem => exact sound_finish action h
  | again cycles hanswered => trivial

/-- And it holds of everything that can happen, by induction on how it came about. -/
theorem sound_of_reachable (h : Reachable v) : v.Sound := by
  induction h with
  | start panel => trivial
  | step _ hstep ih => exact sound_step hstep ih

/-! ## What follows for the thread -/

@[simp] theorem steps_answered (n : Nat) (leave : Bool) (panel : Panel) :
    (Waiter.answered leave).steps n panel = (.answered leave, panel) := by
  cases n <;> rfl

variable {panel : Panel}

/-- One look at everything is enough for an answer, if there is a reason to give one. -/
theorem answers_checkStop (h : panel.Due) (n : Nat) :
    (Waiter.checkStop.steps (n + 3) panel).1.answer?.isSome = true := by
  by_cases hstopped : panel.control.stopped = true
  · simp [Waiter.steps, Waiter.step?, hstopped, Waiter.answer?]
  · obtain ⟨hpaused, hcredit⟩ := h.resolve_left hstopped
    have haffordable := panel.budget.affordable_iff.mpr hcredit
    simp [Waiter.steps, Waiter.step?, hstopped, hpaused, haffordable, Waiter.answer?]

/-- A sleeper before a full slot wakes up and looks at everything again. -/
theorem answers_asleep (h : panel.Due) (hslot : panel.budget.released = true) (n : Nat) :
    (Waiter.asleep.steps (n + 5) panel).1.answer?.isSome = true := by
  have hdue : Panel.Due { panel with budget := { panel.budget with released := false } } := h
  simp only [Waiter.steps, Waiter.step?, hslot, if_true]
  exact answers_checkStop hdue n

/-- A thread that has passed the stop goes to sleep at worst, and then the slot is full. -/
theorem answers_checkCredit (h : panel.Due)
    (hstop : panel.control.stopped = true → panel.budget.released = true) (n : Nat) :
    (Waiter.checkCredit.steps (n + 6) panel).1.answer?.isSome = true := by
  simp only [Waiter.steps, Waiter.step?]
  by_cases haffordable : panel.budget.affordable = true
  · simp [haffordable, Waiter.answer?]
  · have hstopped : panel.control.stopped = true :=
      h.resolve_right fun ⟨_, hcredit⟩ =>
        haffordable (panel.budget.affordable_iff.mpr hcredit)
    rw [if_neg haffordable]
    exact answers_asleep h (hstop hstopped) n

/-- A thread about to look at the pause gets its answer after one more round at the most, if something is
    due. -/
theorem answers_checkPause (h : panel.Due)
    (hstop : panel.control.stopped = true → panel.budget.released = true) (n : Nat) :
    (Waiter.checkPause.steps (n + 7) panel).1.answer?.isSome = true := by
  have hstep : Waiter.checkPause.steps (n + 7) panel =
      Waiter.steps (n + 6) (if panel.control.paused then .asleep else .checkCredit) panel := rfl
  rw [hstep]
  by_cases hpaused : panel.control.paused = true
  · have hstopped : panel.control.stopped = true :=
      h.resolve_right fun ⟨hresumed, _⟩ => by simp [hpaused] at hresumed
    rw [if_pos hpaused]
    exact answers_asleep h (hstop hstopped) (n + 1)
  · rw [if_neg hpaused]
    exact answers_checkCredit h hstop n

/-- When no call is under way, what is pending is in the slot. -/
theorem released_of_pending (hcalls : v.underway = []) (h : v.Pending) :
    v.panel.budget.released = true :=
  h.resolve_right fun hne => hne hcalls

/-- Wherever the thread is, left alone it comes to an answer if there is a reason to give one. -/
theorem Sound.answers (h : v.Sound) (hcalls : v.underway = []) (hdue : v.panel.Due) :
    (v.waiter.settle v.panel).1.answer?.isSome = true := by
  have hslot := released_of_pending hcalls
  obtain ⟨panel, waiter, underway, seen⟩ := v
  cases waiter with
  | checkStop => exact answers_checkStop hdue 7
  | checkPause => exact answers_checkPause hdue (fun hstopped => hslot (h.1 hstopped)) 3
  | checkCredit => exact answers_checkCredit hdue (fun hstopped => hslot (h.1 hstopped)) 4
  | asleep => exact answers_asleep hdue (hslot (h hdue)) 5
  | awake =>
    have hemptied : Panel.Due { panel with budget := { panel.budget with released := false } } :=
      hdue
    exact answers_checkStop hemptied 6
  | answered leave => rfl

/-- A sleeper before an empty slot, with no call under way, has nothing to wake up for. -/
theorem Sound.not_due (h : v.Sound) (hasleep : v.waiter = .asleep)
    (hslot : v.panel.budget.released = false) (hcalls : v.underway = []) : ¬v.panel.Due := by
  intro hdue
  unfold Sound at h
  rw [hasleep] at h
  have hfull := released_of_pending hcalls (h hdue)
  rw [hslot] at hfull
  cases hfull

/-- No wake-up is lost.  A thread that sleeps before an empty slot, with no call under way, has not been
    stopped, and it is paused or out of credit; and when there is a reason for an answer and no call
    is under way, the thread alone comes to one, wherever it is.  Leave is given only after a round that saw
    no stop, then no pause, then credit; the order to end only after a stop, which lasts. -/
theorem no_lost_wakeup (h : Reachable v) :
    (v.waiter = .asleep → v.panel.budget.released = false → v.underway = [] →
      v.panel.control.stopped = false ∧
        (v.panel.control.paused = true ∨ v.panel.budget.credit.toInt < 1)) ∧
    (v.underway = [] → v.panel.Due → (v.waiter.settle v.panel).1.answer?.isSome = true) ∧
    (v.waiter = .answered true → ∃ a b c, v.seen = [a, b, c] ∧ a.control.stopped = false ∧
      b.control.paused = false ∧ 1 ≤ c.budget.credit.toInt) ∧
    (v.waiter = .answered false →
      v.panel.control.stopped = true ∧ ∃ a, v.seen = [a] ∧ a.control.stopped = true) := by
  -- each part is what soundness says of the place where the waiter is
  have hsound := sound_of_reachable h
  refine ⟨?_, hsound.answers, ?_, ?_⟩
  · intro hasleep hslot hcalls
    exact v.panel.not_due_iff.mp (hsound.not_due hasleep hslot hcalls)
  · intro hanswered
    unfold Sound at hsound
    rw [hanswered] at hsound
    exact hsound
  · intro hanswered
    unfold Sound at hsound
    rw [hanswered] at hsound
    exact hsound

/-- A thread that went to sleep for want of credit, and everything it looked at then. -/
def dozing : Vigil where
  panel := {}
  waiter := .asleep
  seen := [{}, {}, {}]

/-- A thread can come to sleep in this way, with nobody calling: it takes three looks. -/
theorem reachable_dozing : Reachable dozing :=
  .step (.step (.step (.start {}) (.thread rfl)) (.thread rfl)) (.thread rfl)

/-- Then came a grant, a pause and a resume, and the two releases have become one. -/
def roused : Vigil :=
  { dozing with panel := { budget := { credit := 5, grants := 1, released := true } } }

/-- The grant makes its change first and fills the slot last, after the resume has. -/
theorem reachable_roused : Reachable roused := by
  have hchanged :=
    ((reachable_dozing.step (.begin (.grant 5))).step (.begin .pause)).step (.begin .resume)
  exact (hchanged.step (.finish .resume (by decide))).step (.finish (.grant 5) (by decide))

/-- Before the grant the thread has nothing to wake up for, and after it the one release wakes it up. -/
theorem no_lost_wakeup_merged :
    (Reachable dozing ∧ (dozing.panel.control.paused = true ∨ dozing.panel.budget.credit.toInt < 1)) ∧
      Reachable roused ∧ (roused.waiter.settle roused.panel).1.answer?.isSome = true :=
  ⟨⟨reachable_dozing, ((no_lost_wakeup reachable_dozing).1 rfl rfl rfl).2⟩,
    reachable_roused, (no_lost_wakeup reachable_roused).2.1 rfl (.inr ⟨rfl, by decide⟩)⟩

end Vigil

end Breadboard
