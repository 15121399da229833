import Breadboard.Proofs.Unreported
/-
  Two worlds that no processor can tell apart.

  A relation between the worlds of two processors is a simulation if related worlds answer every access
  alike and stay related: under every access, at the end of a clock cycle, and under what a processor
  itself does to its panel, which is to set the requests and to charge.  The requests have to be equal,
  because a processor looks at them; nothing is said about the rest of the panel, because it does not.

  An instruction is bus traffic and register work.  So the one induction is `BusSimulation.play`, over
  traffic; all that follows it says that whatever is made of traffic keeps a simulation too, up to
  `Simulation.stepped`: processors with the same registers in related worlds do the same, with the same
  outcome, for as long as they run.
-/
namespace Breadboard

variable {μ ν α : Type} [Memory μ] [Memory ν]

namespace World

/-- Changes the panel of a world, without a processor in it. -/
def onPanel (w : World μ) (f : Panel → Panel) : World μ :=
  { w with panel := f w.panel }

/-- Puts requests in place of those that are pending; this is what powering up and entering an interrupt do
    to the panel. -/
def withRequests (w : World μ) (requests : Requests) : World μ :=
  w.onPanel fun panel => { panel with requests }

end World

/-- Related worlds answer accesses alike, and stay related.  Nothing is said about clock cycles or panels. -/
structure BusSimulation (R : World μ → World ν → Prop) : Prop where
  read : ∀ {w v}, R w v → ∀ address,
    (Memory.read address w).1 = (Memory.read address v).1 ∧
      R (Memory.read address w).2 (Memory.read address v).2
  write : ∀ {w v}, R w v → ∀ address value,
    R (Memory.write address value w) (Memory.write address value v)

/-- Related worlds cannot be told apart by processors that are plugged into them. -/
structure Simulation (R : World μ → World ν → Prop) : Prop extends BusSimulation R where
  endCycle : ∀ {w v}, R w v → R (Memory.endCycle w) (Memory.endCycle v)
  requests : ∀ {w v}, R w v → w.panel.requests = v.panel.requests
  withRequests : ∀ {w v}, R w v → ∀ requests, R (w.withRequests requests) (v.withRequests requests)
  charge : ∀ {w v}, R w v → ∀ cycles, R (w.onPanel (·.charge cycles)) (v.onPanel (·.charge cycles))

/-- Bus traffic brings the same result in related worlds, and leaves them related. -/
theorem BusSimulation.play {R : World μ → World ν → Prop} (sim : BusSimulation R) (t : Traffic α)
    {w : World μ} {v : World ν} (h : R w v) :
    (t.play w).1 = (t.play v).1 ∧ R (t.play w).2 (t.play v).2 := by
  induction t generalizing w v with
  | done result => exact ⟨rfl, h⟩
  | read address next ih =>
    -- what the traffic goes on to depends on the byte, so it has to be the same byte
    obtain ⟨hbyte, hafter⟩ := sim.read h address
    have hnext := ih (Memory.read address w).1 hafter
    simp only [Traffic.play]
    rw [← hbyte]
    exact hnext
  | write address value next ih => exact ih (sim.write h address value)

namespace Processor

/-- The same registers, in related worlds.  The worlds may be of different kinds. -/
structure Alike (R : World μ → World ν → Prop) (p : Processor μ) (q : Processor ν) : Prop where
  registers : p.registers = q.registers
  world : R p.world q.world

/-- The same outcome, and processors that are alike: one may be put in place of the other in what follows. -/
structure SameEnd (R : World μ → World ν → Prop) (x : Except Fault Nat × Processor μ)
    (y : Except Fault Nat × Processor ν) : Prop where
  outcome : x.1 = y.1
  alike : Alike R x.2 y.2

end Processor

namespace Simulation

open Processor

variable {R : World μ → World ν → Prop} {p : Processor μ} {q : Processor ν}

/-- A microprogram does the same on both sides, faults included. -/
theorem perform (sim : BusSimulation R) (h : Alike R p q) (m : Micro α) :
    (p.perform m).1 = (q.perform m).1 ∧ Alike R (p.perform m).2 (q.perform m).2 := by
  obtain ⟨hresult, hworld⟩ := sim.play (m p.registers) h.world
  rw [h.registers] at hresult hworld
  simp only [Processor.perform, h.registers]
  exact ⟨congrArg (·.1) hresult, congrArg (·.2) hresult, hworld⟩

omit [Memory μ] [Memory ν] in
/-- A change of the registers that depends on nothing but the registers is the same on both sides. -/
theorem changed (h : Alike R p q) (f : Registers → Registers) :
    Alike R { p with registers := f p.registers } { q with registers := f q.registers } :=
  ⟨congrArg f h.registers, h.world⟩

theorem cleared (sim : Simulation R) (h : Alike R p q) : Alike R p.cleared q.cleared :=
  ⟨by simp only [Processor.cleared, h.registers], sim.withRequests h.world {}⟩

/-- Powering up does the same on both sides: the vector is read in related worlds, so it is the same
    vector. -/
theorem poweredUp (sim : Simulation R) (h : Alike R p q) : Alike R p.poweredUp q.poweredUp :=
  (perform sim.toBusSimulation (cleared sim h) bootstrap).2

theorem charged (sim : Simulation R) (h : Alike R p q) (cycles : Nat) :
    Alike R (p.charge cycles) (q.charge cycles) :=
  ⟨by simp only [Processor.charge, h.registers], sim.charge h.world cycles⟩

/-- The request is taken back on both sides, and it is the same request. -/
theorem answered (sim : Simulation R) (h : Alike R p q) (servicing : Option Interrupt) :
    Alike R (p.answer servicing) (q.answer servicing) := by
  cases servicing with
  | none => exact h
  | some interrupt =>
    refine ⟨h.registers, ?_⟩
    -- both sides put back what is left of the requests of `p`, which are those of `q` as well
    have hworld := sim.withRequests h.world (p.world.panel.requests.clear interrupt)
    have hrequests := sim.requests h.world
    simp only [World.withRequests, World.onPanel] at hworld
    simp only [Processor.answer, Processor.onPanel, ← hrequests]
    exact hworld

theorem fetched (sim : Simulation R) (h : Alike R p q) :
    p.fetchOpcode.1 = q.fetchOpcode.1 ∧ Alike R p.fetchOpcode.2 q.fetchOpcode.2 := by
  obtain ⟨hopcode, hworld⟩ := sim.read h.world p.registers.pc
  simp only [Processor.fetchOpcode, ← h.registers]
  exact ⟨hopcode, rfl, hworld⟩

/-- An instruction does the same on both sides.  If it fails it fails on both, and both go back to where it
    started. -/
theorem ran (sim : Simulation R) (h : Alike R p q) (i : Instruction) (servicing : Option Interrupt)
    (start : UInt16) : SameEnd R (p.ran i servicing start) (q.ran i servicing start) := by
  obtain ⟨hresult, hafter⟩ := perform sim.toBusSimulation h (i.execute servicing start)
  unfold Processor.ran
  rcases hp : p.perform (i.execute servicing start) with ⟨result, p'⟩
  rcases hq : q.perform (i.execute servicing start) with ⟨result', q'⟩
  rw [hp, hq] at hresult hafter
  obtain rfl : result = result' := hresult
  cases result with
  | error fault => exact ⟨rfl, changed hafter fun r => { r with pc := start }⟩
  | ok extra => exact ⟨rfl, charged sim (answered sim hafter servicing) _⟩

/-- A cycle does the same on both sides: both look at the same requests, and so they do the same kind of
    thing. -/
theorem cycled (sim : Simulation R) (h : Alike R p q) : SameEnd R p.cycled q.cycled := by
  have hrequests := sim.requests h.world
  unfold Processor.cycled
  rw [← hrequests, ← h.registers]
  by_cases hreset : p.world.panel.requests.reset = true
  · rw [if_pos hreset, if_pos hreset]
    exact ⟨rfl, charged sim (poweredUp sim h) _⟩
  · rw [if_neg hreset, if_neg hreset]
    cases p.world.panel.requests.next? with
    | some interrupt => exact ran sim h _ _ _
    | none =>
      -- the same opcode, so the same instruction
      obtain ⟨hopcode, hafter⟩ := fetched sim h
      simp only [← hopcode]
      exact ran sim hafter _ _ _

/-- A step does the same on both sides.  Everything that is proved of two worlds with this holds of as many
    steps as one likes. -/
theorem stepped (sim : Simulation R) (h : Alike R p q) : SameEnd R p.stepped q.stepped := by
  obtain ⟨houtcome, hafter⟩ := cycled sim h
  unfold Processor.stepped
  rcases hp : p.cycled with ⟨outcome, p'⟩
  rcases hq : q.cycled with ⟨outcome', q'⟩
  rw [hp, hq] at houtcome hafter
  obtain rfl : outcome = outcome' := houtcome
  cases outcome with
  | error fault => exact ⟨rfl, hafter⟩
  | ok cycles => exact ⟨rfl, hafter.registers, sim.endCycle hafter.world⟩

end Simulation

end Breadboard
