import Mathlib.Data.List.Forall2
import Breadboard.Cpu.Processor
import Breadboard.Proofs.Timeless
import Breadboard.Proofs.Simulation
/-
  The course of a paced run, step by step.

  `course` is `runLoop` with a record of where each instruction was started; `advanced` is what comes of
  stepping a number of times without asking anybody.  `Follows` compares the two: as many steps as the run
  has started instructions, with the same outcomes, through the same states.  It holds for every run
  (`course_follows`), by induction on the fuel: when the loop goes on it does what `step` does, and while it
  holds, only the panel changes, in ways that the relation between the two sides does not see.

  The states of a stepper form one sequence (`orbit`), of which every run passes through a first part.
-/
namespace Breadboard

variable {μ ν : Type} [Memory μ] [Memory ν]

/-- The fault that ended a run, if it was one that did. -/
def Ending.fault? : Ending → Option Fault
  | .failed fault => some fault
  | _ => none

namespace Processor

/-! ## Stepping -/

/-- What comes of `advanceFor step none`, counted from nothing: a stepper that takes no notice of the
    panel. -/
def advanced : Nat → Processor μ → Tally × Processor μ
  | 0, p => ({}, p)
  | n + 1, p =>
    match p.stepped with
    | (.error fault, q) => ({ fault := some fault }, q)
    | (.ok cycles, q) =>
      let (tally, last) := advanced n q
      ({ tally with ran := tally.ran + 1, charged := cycles + tally.charged }, last)

/-- What has been counted before is added to what the plain form counts; a tally with a fault in it has come
    to its end. -/
theorem fst_advanceFor (n : Nat) (p : Processor μ) (tally : Tally) (j : Journal)
    (h : tally.fault = none) :
    ((advanceFor step none n tally p).run j).1 =
      ({ (p.advanced n).1 with
          ran := tally.ran + (p.advanced n).1.ran
          charged := tally.charged + (p.advanced n).1.charged }, (p.advanced n).2) := by
  induction n generalizing p tally j with
  | zero =>
    obtain ⟨ran, charged, fault⟩ := tally
    obtain rfl : fault = none := h
    rfl
  | succ n ih =>
    simp only [advanceFor, advanced, reduceCtorEq, if_false]
    rw [fst_bind (p.fst_step j)]
    rcases p.stepped with ⟨fault | cycles, q⟩
    · rfl
    -- the tally so far goes into the rest of the run, and comes out again as a sum
    · refine (ih q { tally with ran := tally.ran + 1, charged := tally.charged + cycles } _ h).trans ?_
      simp only [Nat.add_assoc, Nat.add_comm 1]

/-- The counter counts what all the steps were charged, modulo the size of its word. -/
theorem cycles_advanced (n : Nat) (p : Processor μ) : (p.advanced n).2.registers.cycles =
    p.registers.cycles + UInt64.ofNat (p.advanced n).1.charged := by
  induction n generalizing p with
  | zero => exact (UInt64.add_zero _).symm
  | succ n ih =>
    have hstep := p.cycles_stepped
    unfold advanced
    rcases hrun : p.stepped with ⟨outcome, q⟩
    rw [hrun] at hstep
    cases outcome with
    | error fault => exact hstep
    | ok cycles =>
      have hrest := ih q
      -- the counter may wrap around; the sum of the charges wraps with it
      have hfirst : q.registers.cycles = p.registers.cycles + UInt64.ofNat cycles := hstep
      rw [hfirst, UInt64.add_assoc, ← UInt64.ofNat_add] at hrest
      exact hrest

/-- The states that a stepper comes through, the first one included.  A failed step is the last. -/
def orbit : Nat → Processor μ → List (Processor μ)
  | 0, p => [p]
  | n + 1, p =>
    match p.stepped with
    | (.error _, q) => [p, q]
    | (.ok _, q) => p :: orbit n q

/-- Stepping on only adds to the end, so a longer stepping begins like a shorter one. -/
theorem orbit_prefix {n m : Nat} (h : n ≤ m) (p : Processor μ) : p.orbit n <+: p.orbit m := by
  induction n generalizing m p with
  -- no further than here, and everything begins with where one is
  | zero =>
    cases m with
    | zero => exact List.prefix_rfl
    | succ m =>
      unfold orbit
      rcases p.stepped with ⟨fault | cycles, q⟩
      · exact ⟨[q], rfl⟩
      · exact ⟨q.orbit m, rfl⟩
  | succ n ih =>
    cases m with
    | zero => exact absurd h (Nat.not_succ_le_zero n)
    | succ m =>
      unfold orbit
      rcases p.stepped with ⟨fault | cycles, q⟩
      · exact List.prefix_rfl
      · exact (List.prefix_cons_inj p).mpr (ih (Nat.le_of_succ_le_succ h) q)

/-! ## Running -/

/-- A run, and the processor as it was each time an instruction was started. -/
structure Course (μ : Type) where
  ending : Ending
  final : Processor μ
  started : List (Processor μ) := []

/-- What comes of `runLoop`, and what was started on the way.  It is the same recursion, with a list beside
    it. -/
def course (asleep : Panel → Option Panel) : Nat → Processor μ → Course μ
  | 0, p => { ending := .outOfFuel, final := p }
  | fuel + 1, p =>
    match p.world.panel.order with
    | .halt => { ending := .stopped, final := p }
    | .hold =>
      match asleep p.world.panel with
      | none => { ending := .stuck, final := p }
      | some panel => course asleep fuel (p.onPanel fun _ => panel)
    | .go =>
      match p.stepped with
      | (.ok _, q) =>
        let rest := course asleep fuel q
        { rest with started := p :: rest.started }
      | (.error fault, q) => { ending := .failed fault, final := q, started := [p] }

/-- The states of a run, from the first to the last; where the processor slept, its state is listed once. -/
def Course.history (c : Course μ) : List (Processor μ) :=
  c.started ++ [c.final]

variable (asleep : Panel → Option Panel)

/-- A run comes to the same under every journal, with the list of what was started left out. -/
theorem fst_runLoop (fuel : Nat) (p : Processor μ) (j : Journal) :
    ((p.runLoop asleep fuel).run j).1 =
      ((p.course asleep fuel).ending, (p.course asleep fuel).final) := by
  induction fuel generalizing p j with
  | zero => rfl
  | succ fuel ih =>
    unfold runLoop course
    cases p.world.panel.order with
    | halt => rfl
    | hold =>
      cases asleep p.world.panel with
      | none => rfl
      | some panel => exact ih _ j
    | go =>
      simp only
      -- what the step reports may be different, what it comes to may not
      rw [fst_bind (p.fst_step j)]
      rcases p.stepped with ⟨fault | cycles, q⟩
      · rfl
      · exact ih q _

/-- An instruction is started only if the panel says so: by induction on the fuel, one order at a time. -/
theorem order_started (fuel : Nat) (p : Processor μ) :
    ∀ q ∈ (p.course asleep fuel).started, q.world.panel.order = .go := by
  induction fuel generalizing p with
  | zero => exact fun _ hq => nomatch hq
  | succ fuel ih =>
    unfold course
    cases horder : p.world.panel.order with
    | halt => exact fun _ hq => nomatch hq
    | hold =>
      cases asleep p.world.panel with
      | none => exact fun _ hq => nomatch hq
      | some panel => exact ih _
    | go =>
      rcases p.stepped with ⟨fault | cycles, q⟩
      -- the instruction that fails has been started like any other
      · intro p' hp'
        rw [List.mem_singleton.mp hp', horder]
      · intro p' hp'
        rcases List.mem_cons.mp hp' with rfl | hp'
        · exact horder
        · exact ih q p' hp'

/-! ## A run follows the steps -/

/-- A run against as many steps as it has started instructions: the same states in the same order, up to a
    relation between the worlds. -/
structure Follows (R : World μ → World ν → Prop) (c : Course μ) (q : Processor ν) : Prop where
  fault : (q.advanced c.started.length).1.fault = c.ending.fault?
  ran : (q.advanced c.started.length).1.ran + (if c.ending.fault?.isSome then 1 else 0) =
    c.started.length
  final : Alike R c.final (q.advanced c.started.length).2
  history : List.Forall₂ (Alike R) c.history (q.orbit c.started.length)

variable {R : World μ → World ν → Prop} {asleep}

omit [Memory μ] in
/-- A run that starts nothing is in step with a stepper that makes no step. -/
theorem follows_nothing {c : Course μ} {q : Processor ν} (hstarted : c.started = [])
    (hfault : c.ending.fault? = none) (h : Alike R c.final q) : Follows R c q := by
  obtain ⟨ending, final, started⟩ := c
  obtain rfl : started = [] := hstarted
  have hfault : ending.fault? = none := hfault
  refine ⟨hfault.symm, ?_, h, .cons h .nil⟩
  show 0 + (if ending.fault?.isSome then 1 else 0) = 0
  rw [hfault]
  rfl

omit [Memory μ] in
/-- An instruction fails on both sides, and that is the end on both. -/
theorem follows_fault {p p' : Processor μ} {q q' : Processor ν} {fault : Fault} (h : Alike R p q)
    (hq : q.stepped = (.error fault, q')) (hafter : Alike R p' q') :
    Follows R { ending := .failed fault, final := p', started := [p] } q := by
  have hadvanced : q.advanced 1 = ({ fault := some fault }, q') := by rw [advanced, hq]
  have horbit : q.orbit 1 = [q, q'] := by rw [orbit, hq]
  refine ⟨congrArg (·.1.fault) hadvanced, congrArg (·.1.ran + 1) hadvanced, ?_, ?_⟩
  · show Alike R p' (q.advanced 1).2
    rw [hadvanced]
    exact hafter
  · show List.Forall₂ (Alike R) [p, p'] (q.orbit 1)
    rw [horbit]
    exact .cons h (.cons hafter .nil)

omit [Memory μ] in
/-- An instruction succeeds on both sides, and the rest of the run follows the rest of the steps. -/
theorem Follows.step {rest : Course μ} {p : Processor μ} {q q' : Processor ν} {cycles : Nat}
    (hrest : Follows R rest q') (h : Alike R p q) (hq : q.stepped = (.ok cycles, q')) :
    Follows R { rest with started := p :: rest.started } q := by
  let n := rest.started.length
  have hadvanced : q.advanced (n + 1) =
      ({ (q'.advanced n).1 with
          ran := (q'.advanced n).1.ran + 1, charged := cycles + (q'.advanced n).1.charged },
        (q'.advanced n).2) := by
    rw [advanced, hq]
  have horbit : q.orbit (n + 1) = q :: q'.orbit n := by rw [orbit, hq]
  refine ⟨(congrArg (·.1.fault) hadvanced).trans hrest.fault, ?_, ?_, ?_⟩
  -- an instruction that ends the run with a fault is started, but it has not run
  · have hran : (q'.advanced n).1.ran + (if rest.ending.fault?.isSome then 1 else 0) = n := hrest.ran
    show (q.advanced (n + 1)).1.ran + _ = n + 1
    rw [hadvanced]
    show (q'.advanced n).1.ran + 1 + (if rest.ending.fault?.isSome then 1 else 0) = n + 1
    omega
  · show Alike R rest.final (q.advanced (n + 1)).2
    rw [hadvanced]
    exact hrest.final
  · show List.Forall₂ (Alike R) (p :: rest.history) (q.orbit (n + 1))
    rw [horbit]
    exact .cons h hrest.history

/-- If what happens to the panel while the processor is held cannot be seen from the other side, then the
    run follows the steps. -/
theorem course_follows (sim : Simulation R)
    (hasleep : ∀ {w v panel}, R w v → asleep w.panel = some panel →
      R (w.onPanel fun _ => panel) v) :
    ∀ (fuel : Nat) {p : Processor μ} {q : Processor ν}, Alike R p q →
      Follows R (p.course asleep fuel) q
  | 0, p, q, h => follows_nothing rfl rfl h
  | fuel + 1, p, q, h => by
    obtain ⟨houtcome, hafter⟩ := Simulation.stepped sim h
    unfold course
    cases p.world.panel.order with
    | halt => exact follows_nothing rfl rfl h
    | hold =>
      -- nothing is started, so the other side waits where it is
      cases hpanel : asleep p.world.panel with
      | none => exact follows_nothing rfl rfl h
      | some panel =>
        exact course_follows sim hasleep fuel ⟨h.registers, hasleep h.world hpanel⟩
    | go =>
      rcases hp : p.stepped with ⟨outcome, p'⟩
      rcases hq : q.stepped with ⟨outcome', q'⟩
      rw [hp, hq] at houtcome hafter
      obtain rfl : outcome = outcome' := houtcome
      cases outcome with
      | error fault => exact follows_fault h hq hafter
      | ok cycles => exact (course_follows sim hasleep fuel hafter).step h hq

end Processor

end Breadboard
