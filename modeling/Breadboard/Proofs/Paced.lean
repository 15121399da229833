import Breadboard.Machine.Run
import Breadboard.Pacing.Desk
import Breadboard.Proofs.Course
import Breadboard.Proofs.Credit
/-
  Pacing decides when a processor goes on, and never what it does.

  A `Schedule` says what is done at the panel after each instruction: requests are made, quanta are
  granted, the run is stopped, paused or resumed.  A processor that is run under a schedule does what it
  would do if it were just stepped under the requests of that schedule, and if two schedules make the same
  requests, then of two runs one is the beginning of the other.  Nothing depends on the rest.

  The relation between the two sides is `SameTask` with an attendant: the same memory, the same requests
  now, and the same requests to come.  It is a simulation for every memory that does not look at the
  pacing itself, circuits among them, so that all this holds of machines too.
-/
namespace Breadboard

/-! ## Schedules -/

/-- Something that is done at the panel between two instructions: an input is requested, or something is
    done at the desk. -/
inductive Act where
  | request (kind : Request)
  | desk (action : DeskAction)

namespace Act

/-- The panel after it.  A request goes to the latch, and everything else to what the desk has to say about
    the panel. -/
def apply (panel : Panel) : Act → Panel
  | .request kind => panel.raise kind
  | .desk action => action.apply panel

/-- Whether it is a request, which is the only kind of act that the processor itself can ever notice. -/
def isRequest : Act → Bool
  | .request _ => true
  | .desk _ => false

/-- What an act does to the latched requests alone.  Nothing that is done at the desk gets that far. -/
def latch (requests : Requests) : Act → Requests
  | .request kind => requests.raise kind
  | .desk _ => requests

/-- The latch after an act depends on the latch before it and on nothing else of the panel. -/
theorem requests_apply (panel : Panel) (act : Act) :
    (act.apply panel).requests = act.latch panel.requests := by
  cases act with
  | request kind => rfl
  | desk action => cases action <;> rfl

/-- The same for all acts of a moment, one after the other, by induction over them. -/
theorem requests_foldl (acts : List Act) (panel : Panel) :
    (acts.foldl apply panel).requests = acts.foldl latch panel.requests := by
  induction acts generalizing panel with
  | nil => rfl
  | cons act acts ih =>
    rw [List.foldl_cons, List.foldl_cons, ih, requests_apply]

/-- Acts at the desk may be left out without any difference to the latch, so that only requests count for
    requests. -/
theorem latch_filter (acts : List Act) (requests : Requests) :
    (acts.filter isRequest).foldl latch requests = acts.foldl latch requests := by
  induction acts generalizing requests with
  | nil => rfl
  | cons act acts ih => cases act <;> exact ih _

end Act

/-- What is done at the panel after each instruction, the first one having number 0.  A schedule says when,
    counting instructions, and never why. -/
abbrev Schedule := Nat → List Act

namespace Schedule

/-- The attendant that keeps to a schedule: it counts the instructions that have ended, and does what the
    schedule has for the one that just did. -/
def act (s : Schedule) (count : Nat) (panel : Panel) : Nat × Panel :=
  (count + 1, (s count).foldl Act.apply panel)

/-- The requests of a schedule, each after the same instruction as before, with everything done at the desk
    left out. -/
def requests (s : Schedule) : Schedule :=
  fun count => (s count).filter Act.isRequest

/-- Leaving out what is done at the desk a second time changes nothing, so that the steps of a run have a
    schedule of their own to go by. -/
theorem requests_requests (s : Schedule) : s.requests.requests = s.requests := by
  funext count
  simp [requests, List.filter_filter]

/-- Schedules with the same requests leave the same requests behind after the same instruction, whatever
    else they do at the panel. -/
theorem requests_act {s t : Schedule} (hst : s.requests = t.requests) (count : Nat)
    {panel panel' : Panel} (h : panel.requests = panel'.requests) :
    (s.act count panel).2.requests = (t.act count panel').2.requests := by
  have hcount : (s count).filter Act.isRequest = (t count).filter Act.isRequest :=
    congrFun hst count
  simp only [act, Act.requests_foldl]
  rw [← Act.latch_filter, hcount, Act.latch_filter, h]

end Schedule

namespace Processor

variable {μ : Type}

/-- A processor under a schedule: the same registers and world, with an attendant beside the memory who has
    counted no instruction yet. -/
def under (p : Processor μ) (s : Schedule) : Processor (Attended Nat μ) where
  registers := p.registers
  world := Attended.attend p.world 0 s.act

/-- What can be told of a processor without looking at the pacing: the registers, the memory and the
    pending requests. -/
def architecture {σ : Type} (p : Processor (Attended σ μ)) : Registers × μ × Requests :=
  (p.registers, p.world.memory.memory, p.world.panel.requests)

/-- What is done at the desk while the processor is held, as the wait of a run loop takes it: a new panel,
    or none if nobody ever comes. -/
def attentive (meanwhile : Panel → Option (List DeskAction)) (panel : Panel) : Option Panel :=
  (meanwhile panel).map (·.foldl DeskAction.apply panel)

end Processor

/-! ## The pacing cannot be seen -/

/-- The same task, now and in what is to come: equal memories and requests, equal counts of instructions,
    and attendants that keep to the schedules `s` and `t`. -/
structure World.SameFuture {μ : Type} (s t : Schedule) (w v : World (Attended Nat μ)) : Prop where
  bare : (Attended.bare w).SameTask (Attended.bare v)
  count : w.memory.state = v.memory.state
  left : w.memory.act = s.act
  right : v.memory.act = t.act

section

variable {μ : Type} [Memory μ] [Oblivious μ]

/-- Worlds with the same future answer every access alike and have the same future afterwards, provided that
    the schedules make the same requests.  The rest of what they do can be seen in the panel only. -/
theorem simulation_sameFuture {s t : Schedule} (hst : s.requests = t.requests) :
    Simulation (@World.SameFuture μ s t) where
  -- reads and writes go straight through the attendant to the memory behind it
  read h address := by
    obtain ⟨hbyte, hafter⟩ := Oblivious.simulation.read h.bare address
    exact ⟨hbyte, ⟨hafter.memory, hafter.requests⟩, h.count, h.left, h.right⟩
  write h address value := by
    have hafter := Oblivious.simulation.write h.bare address value
    exact ⟨⟨hafter.memory, hafter.requests⟩, h.count, h.left, h.right⟩
  endCycle {w v} h := by
    -- the schedules get their turn here, after the memory behind the attendant
    have hafter := Oblivious.simulation.endCycle h.bare
    simp only [Memory.endCycle, h.left, h.right, ← h.count]
    exact ⟨⟨hafter.memory, Schedule.requests_act hst _ hafter.requests⟩, rfl, rfl, rfl⟩
  requests h := h.bare.requests
  withRequests h _ := ⟨⟨h.bare.memory, rfl⟩, h.count, h.left, h.right⟩
  charge h _ := ⟨⟨h.bare.memory, h.bare.requests⟩, h.count, h.left, h.right⟩

end

/-- Nothing done at the desk touches the requests, by cases on the actions. -/
theorem requests_desk (actions : List DeskAction) (panel : Panel) :
    (actions.foldl DeskAction.apply panel).requests = panel.requests := by
  induction actions generalizing panel with
  | nil => rfl
  | cons action actions ih =>
    rw [List.foldl_cons, ih]
    cases action <;> rfl

/-- Hence the requests that wait while a processor is held are still there, and no others, when it goes on. -/
theorem requests_attentive {meanwhile : Panel → Option (List DeskAction)} {panel panel' : Panel}
    (h : Processor.attentive meanwhile panel = some panel') : panel'.requests = panel.requests := by
  obtain ⟨actions, _, rfl⟩ := Option.map_eq_some_iff.mp h
  exact requests_desk actions panel

/-- A panel says to go exactly when it is neither stopped nor paused and there is credit for at least one
    cycle. -/
theorem Panel.order_eq_go_iff (p : Panel) : p.order = .go ↔
    p.control.stopped = false ∧ p.control.paused = false ∧ 1 ≤ p.budget.credit.toInt := by
  rw [← p.budget.affordable_iff]
  unfold Panel.order
  cases p.control.stopped <;> cases p.control.paused <;> cases p.budget.affordable <;> decide

namespace Processor

variable {μ : Type} [Memory μ]

/-- A run that finds itself stopped at its first look is over with it, in the very state it was called in. -/
theorem course_stopped {asleep : Panel → Option Panel} {fuel : Nat} {p : Processor μ}
    (hfuel : 1 ≤ fuel) (h : p.world.panel.control.stopped = true) :
    p.course asleep fuel = { ending := .stopped, final := p } := by
  obtain ⟨n, rfl⟩ := Nat.exists_eq_add_of_le' hfuel
  have horder : p.world.panel.order = .halt := by rw [Panel.order, if_pos h]
  rw [course, horder]

/-- What a run shows is what the steps that it follows show, for any view of a state that does not tell
    related states apart. -/
theorem Follows.map_history {α : Type} {view : Processor μ → α} {R : World μ → World μ → Prop}
    {c : Course μ} {q : Processor μ} (h : Follows R c q)
    (hview : ∀ p q, Alike R p q → view p = view q) :
    c.history.map view = (q.orbit c.started.length).map view := by
  -- related states have equal views, so the relation of the histories becomes an equation
  have hsame := h.history.imp hview
  rw [← List.forall₂_eq_eq_eq, List.forall₂_map_left_iff, List.forall₂_map_right_iff]
  exact hsame

/-- Of two runs that follow the same steps, one shows the beginning of what the other shows. -/
theorem prefix_of_follows {α : Type} {view : Processor μ → α} {R S : World μ → World μ → Prop}
    {c c' : Course μ} {q : Processor μ} (h : Follows R c q) (h' : Follows S c' q)
    (hview : ∀ p q, Alike R p q → view p = view q) (hview' : ∀ p q, Alike S p q → view p = view q) :
    c.history.map view <+: c'.history.map view ∨ c'.history.map view <+: c.history.map view := by
  rw [h.map_history hview, h'.map_history hview']
  -- the run that started fewer instructions shows the beginning
  rcases Nat.le_total c.started.length c'.started.length with hle | hle
  · exact .inl ((q.orbit_prefix hle).map view)
  · exact .inr ((q.orbit_prefix hle).map view)

omit [Memory μ] in
/-- Processors that are alike with the same future have the same architectural state; the relation allows
    for no more than different panels. -/
theorem architecture_alike {s t : Schedule} (p q : Processor (Attended Nat μ))
    (h : Alike (World.SameFuture s t) p q) : p.architecture = q.architecture := by
  have hmemory : p.world.memory.memory = q.world.memory.memory := h.world.bare.memory
  have hrequests : p.world.panel.requests = q.world.panel.requests := h.world.bare.requests
  rw [architecture, architecture, h.registers, hmemory, hrequests]

/-- A run under a schedule follows the steps of the same processor under the requests of that schedule,
    whatever is done while it is held.  This is where pacing drops out: the steps know of no desk, no credit
    and no wait. -/
theorem follows_under [Oblivious μ] {p p' : Processor μ} (hregisters : p'.registers = p.registers)
    (htask : p'.world.SameTask p.world) {s t : Schedule} (hst : s.requests = t.requests)
    (meanwhile : Panel → Option (List DeskAction)) (fuel : Nat) :
    Follows (World.SameFuture s t) ((p'.under s).course (attentive meanwhile) fuel)
      (p.under t) := by
  refine course_follows (simulation_sameFuture hst) (fun {w v panel} h hpanel => ?_) fuel
    ⟨hregisters, ⟨⟨htask.memory, htask.requests⟩, rfl, rfl, rfl⟩⟩
  exact ⟨⟨h.bare.memory, (requests_attentive hpanel).trans h.bare.requests⟩, h.count, h.left, h.right⟩

end Processor

/-! ## Machines -/

namespace Machine

/-- What a run that began with the counter at `start` reports of its course: the cycles it took if it was
    stopped, or the fault it ended on. -/
def report (start : UInt64) (c : Processor.Course Fabric) : Except MachineError RunOutcome :=
  match c.ending with
  | .stopped => .ok (.stopped (c.final.registers.cycles - start))
  | .failed fault => .error (.fault fault)
  | .stuck | .outOfFuel => .ok .unfinished

/-- The course of a run with this quantum: the first quantum is granted before the first look, and each tick
    grants another. -/
def courseAt (m : Machine) (quantum : Int64) (fuel : Nat) : Processor.Course Fabric :=
  (m.processor.onPanel (·.grant quantum)).course (tick quantum) fuel

/-- A machine whose pace is refused does not run at all, and is handed back with the reason. -/
theorem run_refused (m : Machine) {pace : Pace} {reason : PaceError} {j : Journal}
    (h : (pace.start.run j).1 = .error reason) (fuel : Nat) :
    ((m.run pace fuel).run j).1 = (.error (.pace reason), m) := by
  rw [run, fst_bind h]
  rfl

/-- A machine whose pace is accepted runs the course for its quantum, and reports what that comes to.  From
    here on the journal plays no part. -/
theorem run_started (m : Machine) {pace : Pace} {quantum : Int64} {j : Journal}
    (h : (pace.start.run j).1 = .ok quantum) (fuel : Nat) :
    ((m.run pace fuel).run j).1 = (report m.registers.cycles (m.courseAt quantum fuel),
      m.withProcessor (m.courseAt quantum fuel).final) := by
  rw [run, fst_bind h]
  simp only
  rw [fst_bind (Processor.fst_runLoop (tick quantum) fuel _ _)]
  rfl

/-- A paced run of a machine follows the machine's unpaced steps: grants and ticks are acts at the desk,
    which the processor does not see. -/
theorem follows_courseAt (m : Machine) (quantum : Int64) (fuel : Nat) :
    Processor.Follows World.SameTask (m.courseAt quantum fuel) m.processor := by
  refine Processor.course_follows Oblivious.simulation (fun {w v panel} h hpanel => ?_) fuel
    ⟨rfl, ⟨rfl, rfl⟩⟩
  -- while it is held a machine only gets grants, and none if it is paused
  unfold tick at hpanel
  split at hpanel
  · cases hpanel
  · obtain rfl : w.panel.grant quantum = panel := Option.some.inj hpanel
    exact ⟨h.memory, h.requests⟩

/-- A run that has been stopped before it begins does no more than to take the first grant, and reports no
    cycles. -/
theorem run_stopped {m : Machine} (hstopped : m.panel.control.stopped = true) {pace : Pace}
    {quantum : Int64} {j : Journal} (h : (pace.start.run j).1 = .ok quantum) {fuel : Nat}
    (hfuel : 1 ≤ fuel) :
    ((m.run pace fuel).run j).1 = (.ok (.stopped 0), m.onPanel (·.grant quantum)) := by
  rw [m.run_started h, courseAt, Processor.course_stopped hfuel hstopped]
  refine Prod.ext ?_ rfl
  exact congrArg (fun cycles => Except.ok (RunOutcome.stopped cycles)) (UInt64.sub_self _)

/-- A run that is started comes to what some number of steps comes to: the same registers and world, the
    cycles these steps are charged if it is stopped, and their fault if it fails. -/
theorem run_eq_steps (m : Machine) {pace : Pace} {quantum : Int64} {j : Journal}
    (h : (pace.start.run j).1 = .ok quantum) (fuel : Nat) :
    ∃ n, let steps := m.processor.advanced n
      let after := ((m.run pace fuel).run j).1
      after.2.registers = steps.2.registers ∧ after.2.processor.world.SameTask steps.2.world ∧
      (∀ cycles, after.1 = .ok (.stopped cycles) →
        steps.1.fault = none ∧ cycles = UInt64.ofNat steps.1.charged) ∧
      (∀ fault, after.1 = .error (.fault fault) → steps.1.fault = some fault) := by
  have hfollows := m.follows_courseAt quantum fuel
  rw [m.run_started h]
  generalize m.courseAt quantum fuel = c at hfollows
  refine ⟨c.started.length, hfollows.final.registers, hfollows.final.world, ?_, ?_⟩
  · intro cycles hcycles
    have hfault := hfollows.fault
    unfold report at hcycles
    cases hending : c.ending with
    | stopped =>
      rw [hending] at hcycles hfault
      obtain rfl := RunOutcome.stopped.inj (Except.ok.inj hcycles)
      refine ⟨hfault, ?_⟩
      -- the report is a difference of counters, and the counter counts the charges of the steps
      rw [hfollows.final.registers, Processor.cycles_advanced, UInt64.add_comm]
      exact UInt64.add_sub_cancel _ _
    | _ =>
      rw [hending] at hcycles
      cases hcycles
  · intro fault hreport
    have hfault := hfollows.fault
    unfold report at hreport
    cases hending : c.ending with
    | failed fault' =>
      rw [hending] at hreport hfault
      obtain rfl := MachineError.fault.inj (Except.error.inj hreport)
      exact hfault
    | _ =>
      rw [hending] at hreport
      cases hreport

end Machine

/-! ## All runs -/

/-- A run under a schedule is what comes of stepping under the schedule's requests.  It ends as the steps
    end, in the state and with the charge that they come to; it starts nothing when it may not; and the
    states it goes through are the first ones of a sequence that does not depend on the pacing.  The same
    goes for machines at a pace, and a machine whose pace is refused is left as it was. -/
theorem pacing_unseen {μ : Type} [Memory μ] [Oblivious μ] (p : Processor μ) (s : Schedule)
    (meanwhile : Panel → Option (List DeskAction)) (fuel : Nat) :
    let run := (p.under s).course (Processor.attentive meanwhile) fuel
    (∀ j, (((p.under s).runLoop (Processor.attentive meanwhile) fuel).run j).1 =
      (run.ending, run.final)) ∧
    (∀ j,
      let steps :=
        (((p.under s.requests).advanceFor Processor.step none run.started.length {}).run j).1
      steps.1.fault = run.ending.fault? ∧
      steps.1.ran + (if run.ending.fault?.isSome then 1 else 0) = run.started.length ∧
      run.final.architecture = steps.2.architecture ∧
      run.final.registers.cycles - p.registers.cycles = UInt64.ofNat steps.1.charged) ∧
    (∀ q ∈ run.started, q.world.panel.control.stopped = false ∧
      q.world.panel.control.paused = false ∧ 1 ≤ q.world.panel.budget.credit.toInt) ∧
    (p.world.panel.control.stopped = true → 1 ≤ fuel →
      run.ending = .stopped ∧ run.final = p.under s ∧ run.started = []) ∧
    (∀ (p' : Processor μ) (s' : Schedule) (meanwhile' : Panel → Option (List DeskAction))
        (fuel' : Nat), p'.registers = p.registers → p'.world.SameTask p.world →
        s'.requests = s.requests →
      let run' := (p'.under s').course (Processor.attentive meanwhile') fuel'
      run.history.map Processor.architecture <+: run'.history.map Processor.architecture ∨
        run'.history.map Processor.architecture <+: run.history.map Processor.architecture) ∧
    (∀ (m : Machine) (pace : Pace) (j : Journal),
      (∀ reason, (pace.start.run j).1 = .error reason →
        ((m.run pace fuel).run j).1 = (.error (.pace reason), m)) ∧
      (∀ quantum, (pace.start.run j).1 = .ok quantum →
        (m.panel.control.stopped = true → 1 ≤ fuel →
          ((m.run pace fuel).run j).1 = (.ok (.stopped 0), m.onPanel (·.grant quantum))) ∧
        ∃ n, let steps := ((m.processor.advanceFor Processor.step none n {}).run j).1
          let after := ((m.run pace fuel).run j).1
          after.2.registers = steps.2.registers ∧ after.2.processor.world.SameTask steps.2.world ∧
          (∀ cycles, after.1 = .ok (.stopped cycles) →
            steps.1.fault = none ∧ cycles = UInt64.ofNat steps.1.charged) ∧
          (∀ fault, after.1 = .error (.fault fault) → steps.1.fault = some fault))) := by
  -- everything below is read off the one fact that the run follows the steps under the requests
  have hsame : p.world.SameTask p.world := ⟨rfl, rfl⟩
  have hfollows := Processor.follows_under rfl hsame s.requests_requests.symm meanwhile fuel
  refine ⟨Processor.fst_runLoop _ fuel (p.under s), fun j => ?_, fun q hq => ?_, ?_, ?_, ?_⟩
  · have hsteps := Processor.fst_advanceFor
      ((p.under s).course (Processor.attentive meanwhile) fuel).started.length
      (p.under s.requests) {} j rfl
    simp only [Nat.zero_add] at hsteps
    rw [hsteps]
    refine ⟨hfollows.fault, hfollows.ran, Processor.architecture_alike _ _ hfollows.final, ?_⟩
    rw [hfollows.final.registers, Processor.cycles_advanced, UInt64.add_comm]
    exact UInt64.add_sub_cancel _ _
  · exact (Panel.order_eq_go_iff _).mp (Processor.order_started _ fuel (p.under s) q hq)
  · intro hstopped hfuel
    rw [Processor.course_stopped (p := p.under s) hfuel hstopped]
    exact ⟨rfl, rfl, rfl⟩
  · intro p' s' meanwhile' fuel' hregisters htask hrequests
    -- both runs follow the same steps, so that each is a beginning of these
    have hfollows' := Processor.follows_under hregisters htask
      (hrequests.trans s.requests_requests.symm) meanwhile' fuel'
    exact Processor.prefix_of_follows hfollows hfollows' Processor.architecture_alike
      Processor.architecture_alike
  · intro m pace j
    refine ⟨fun reason h => m.run_refused h fuel, fun quantum h =>
      ⟨fun hstopped hfuel => m.run_stopped hstopped h hfuel, ?_⟩⟩
    obtain ⟨n, hafter⟩ := m.run_eq_steps h fuel
    refine ⟨n, ?_⟩
    have hsteps := Processor.fst_advanceFor n m.processor {} j rfl
    simp only [Nat.zero_add] at hsteps
    rw [hsteps]
    exact hafter

/-- On a blank memory, with an NMI after the first instruction: once with a stop after the second, and
    once with more credit and nothing to stop it. -/
theorem pacing_unseen_twice :
    let p : Processor Flat := { world := { memory := {}, panel := { budget := { credit := 1 } } } }
    let p' : Processor Flat := { world := { memory := {}, panel := { budget := { credit := 40 } } } }
    let s : Schedule := fun count =>
      if count = 0 then [.request .nmi, .desk (.grant 9)] else [.desk .stop]
    let s' : Schedule := fun count => if count = 0 then [.request .nmi] else []
    let asleep := Processor.attentive fun _ => none
    let run := (p.under s).course asleep 3
    let run' := (p'.under s').course asleep 5
    (∀ j, (((p.under s).runLoop asleep 3).run j).1 = (run.ending, run.final)) ∧
    (∀ q ∈ run.started, q.world.panel.control.stopped = false ∧
      q.world.panel.control.paused = false ∧ 1 ≤ q.world.panel.budget.credit.toInt) ∧
    (run.history.map Processor.architecture <+: run'.history.map Processor.architecture ∨
      run'.history.map Processor.architecture <+: run.history.map Processor.architecture) := by
  intro p p' s s' asleep run run'
  obtain ⟨hloop, _, hstarted, _, htwo, _⟩ := pacing_unseen p s (fun _ => none) 3
  have hrequests : s'.requests = s.requests := by
    funext count
    show (s' count).filter Act.isRequest = (s count).filter Act.isRequest
    by_cases hfirst : count = 0
    · simp only [s, s', if_pos hfirst]
      rfl
    · simp only [s, s', if_neg hfirst]
      rfl
  exact ⟨hloop, hstarted, htwo p' s' (fun _ => none) 5 rfl ⟨rfl, rfl⟩ hrequests⟩

end Breadboard
