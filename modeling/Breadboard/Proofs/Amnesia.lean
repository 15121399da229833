import Breadboard.Proofs.Unreported
import Breadboard.Proofs.Nesting
import Breadboard.Proofs.Oblivious
import Breadboard.Proofs.Timeless
/-
  A reset leaves nothing behind of what was before.

  Two processors that share nothing but the contents of their memories are reset.  From then on they
  answer alike for as long as they are asked, and what is in them stays the same, apart from the cycle
  counters, which stay as far apart as they were, and the budgets.

  The relation that carries this is `Alike`, between one processor and the other with its counter put
  forward (`Processor.ahead`).  Putting the counter forward commutes with everything that a processor does,
  because no instruction knows the time; and of processors that are alike, one does what the other does.
-/
namespace Breadboard

variable {μ α : Type} [Memory μ]

/-! ## Another time -/

namespace Processor

/-- The same processor, so many cycles later: only its counter has been put forward, and may have wrapped
    around. -/
def ahead (offset : UInt64) (p : Processor μ) : Processor μ :=
  { p with registers := p.registers.withCycles (p.registers.cycles + offset) }

variable (p : Processor μ) (offset : UInt64)

/-- A timeless microprogram does the same at any time, and takes the counter along as it was. -/
theorem perform_ahead {m : Micro α} (h : m.Timeless) :
    (p.ahead offset).perform m = ((p.perform m).1, (p.perform m).2.ahead offset) := by
  have hcycles : (p.perform m).2.registers.cycles = p.registers.cycles := p.cycles_perform h
  -- the microprogram does not look at the counter, so it makes the same traffic
  have hplay : (m (p.registers.withCycles (p.registers.cycles + offset))).play p.world =
      (((m p.registers).play p.world).1.map id (·.withCycles (p.registers.cycles + offset)),
        ((m p.registers).play p.world).2) := by
    rw [h p.registers (p.registers.cycles + offset)]
    exact Traffic.play_bind _ _ _
  have hperform : (p.ahead offset).perform m = ((p.perform m).1,
      { (p.perform m).2 with
        registers := (p.perform m).2.registers.withCycles (p.registers.cycles + offset) }) := by
    unfold perform ahead
    dsimp only
    rw [hplay]
    rfl
  -- nor does it count, so the offset is still the same behind it
  rw [hperform, ← hcycles]
  rfl

/-- So does every instruction, whether it fails or succeeds, since none of them is told the time. -/
theorem performed_ahead (i : Instruction) (servicing : Option Interrupt) (start : UInt16) :
    (p.ahead offset).performed i servicing start =
      ((p.performed i servicing start).1, (p.performed i servicing start).2.ahead offset) := by
  unfold performed
  rw [p.perform_ahead offset (i.timeless_execute servicing start)]
  rcases p.perform (i.execute servicing start) with ⟨fault | extra, q⟩
  · rfl
  · cases servicing <;> rfl

/-- So does the work of a cycle, be it a reset, an interrupt or an instruction. -/
theorem worked_ahead : (p.ahead offset).worked = (p.worked.1, p.worked.2.ahead offset) := by
  unfold worked
  -- the panel decides what is done, and it is the same one
  have hpanel : (p.ahead offset).world.panel = p.world.panel := rfl
  rw [hpanel]
  split
  · have hbootstrap := p.cleared.perform_ahead offset timeless_bootstrap
    exact congrArg (fun x => (Except.ok resetCycles, x.2)) hbootstrap
  · cases p.world.panel.requests.next? with
    | some interrupt => exact p.performed_ahead offset _ _ _
    | none => exact p.fetchOpcode.2.performed_ahead offset _ _ _

/-- What a cycle does, it does at any time. -/
theorem cycled_ahead : (p.ahead offset).cycled = (p.cycled.1, p.cycled.2.ahead offset) := by
  rw [cycled_eq, cycled_eq, p.worked_ahead offset]
  rcases p.worked with ⟨fault | cycles, q⟩
  · rfl
  · have hlater : q.registers.cycles + offset + UInt64.ofNat cycles =
        q.registers.cycles + UInt64.ofNat cycles + offset := by
      rw [UInt64.add_assoc, UInt64.add_comm offset, ← UInt64.add_assoc]
    simp only [settled, charge, ahead, Registers.withCycles, onPanel, hlater]

/-! ## Two processors -/

/-- One processor is as the other would be later: the same registers but for the counter, the same memory
    and the same requests. -/
abbrev Echoes (offset : UInt64) (p q : Processor μ) : Prop :=
  Alike World.SameTask (p.ahead offset) q

variable [Oblivious μ] {p q : Processor μ} {offset : UInt64}

/-- Whatever is asked of both, the cycles come out alike, and neither gets away from the other. -/
theorem Echoes.served (h : Echoes offset p q) (call : Call) :
    (p.served call).1.outcomes = (q.served call).1.outcomes ∧
      Echoes offset (p.served call).2 (q.served call).2 := by
  obtain ⟨hregisters, hmemory, hrequests⟩ := h
  cases call with
  | request kind => exact ⟨rfl, hregisters, hmemory, congrArg (·.raise kind) hrequests⟩
  | grant quantum => exact ⟨rfl, hregisters, hmemory, hrequests⟩
  | takeExecuted => exact ⟨rfl, hregisters, hmemory, hrequests⟩
  | cycle =>
    -- first the two that agree in everything, and then the offset of the counter
    have hcycled := Oblivious.simulation.cycled ⟨hregisters, hmemory, hrequests⟩
    rw [p.cycled_ahead offset] at hcycled
    obtain ⟨houtcome, halike⟩ := hcycled
    have houtcome : p.cycled.1 = q.cycled.1 := houtcome
    refine ⟨?_, halike⟩
    show [p.cycled.1] = [q.cycled.1]
    rw [houtcome]

/-- The same for any sequence of calls, by induction: two processors that echo each other still do so after
    each call. -/
theorem Echoes.servedAll (h : Echoes offset p q) (calls : List Call) :
    (p.servedAll calls).1.outcomes = (q.servedAll calls).1.outcomes ∧
      Echoes offset (p.servedAll calls).2 (q.servedAll calls).2 := by
  induction calls generalizing p q with
  | nil => exact ⟨rfl, h⟩
  | cons call calls ih =>
    obtain ⟨hfirst, hnext⟩ := h.served call
    obtain ⟨hrest, hlast⟩ := ih hnext
    refine ⟨?_, hlast⟩
    show (p.served call).1.outcomes ++ _ = (q.served call).1.outcomes ++ _
    rw [hfirst, hrest]

end Processor

/-! ## A reset -/

namespace Processor

/-- A processor that has just been reset.  All that is left of what was before is in the memory, on the
    counter and in the budget. -/
structure Reborn (p : Processor Flat) (result : Except Fault Nat × Processor Flat) : Prop where
  outcome : result.1 = .ok 7
  memory : result.2.ram = p.ram
  requests : result.2.world.panel.requests = {}
  registers : result.2.registers = {
    a := 0, x := 0, y := 0, sp := 0xFD
    pc := word (p.ram.read 0xFFFC) (p.ram.read 0xFFFD)
    flags := {
      negative := false, overflow := false, unused := false, brk := false
      decimal := false, interruptDisable := false, zero := false, carry := false }
    addressLatch := 0xFFFD
    cycles := p.registers.cycles + 7 }
  budget : result.2.world.panel.budget = p.world.panel.budget.charge 7

/-- The same outcomes of all cycles, and the same state in the end, but for the budgets and for the
    counters, which are so far apart. -/
structure InStep (offset : UInt64) (x y : Transcript × Processor Flat) : Prop where
  outcomes : x.1.outcomes = y.1.outcomes
  memory : x.2.ram = y.2.ram
  requests : x.2.world.panel.requests = y.2.world.panel.requests
  registers : y.2.registers = { x.2.registers with cycles := x.2.registers.cycles + offset }

/-- What comes of a reset, written out.  The registers that are not mentioned have their first values. -/
theorem cycled_raise_reset (p : Processor Flat) :
    (p.onPanel (·.raise .reset)).cycled = (.ok 7, {
      registers := {
        pc := word (p.ram.read 0xFFFC) (p.ram.read 0xFFFD)
        addressLatch := 0xFFFD
        cycles := p.registers.cycles + 7 }
      world := { memory := p.ram, panel := { p.world.panel.charge 7 with requests := {} } } }) :=
  rfl

/-- A reset always leaves a processor reborn, whatever it was before. -/
theorem reborn (p : Processor Flat) : Reborn p (p.onPanel (·.raise .reset)).cycled := by
  rw [p.cycled_raise_reset]
  exact ⟨rfl, rfl, rfl, rfl, rfl⟩

/-- Of two processors that have been reset, one echoes the other, as far apart as they were. -/
theorem echoes_reset {p q : Processor Flat} (hmemory : p.ram = q.ram) :
    Echoes (q.registers.cycles - p.registers.cycles)
      (p.onPanel (·.raise .reset)).cycled.2 (q.onPanel (·.raise .reset)).cycled.2 := by
  have hcycles : p.registers.cycles + 7 + (q.registers.cycles - p.registers.cycles) =
      q.registers.cycles + 7 := by grind
  rw [p.cycled_raise_reset, q.cycled_raise_reset, hmemory]
  refine ⟨?_, rfl, rfl⟩
  simp only [ahead, Registers.withCycles, hcycles]

/-- RESET erases history.  Two processors have memories with the same contents, and differ in whatever
    else there is: registers, flags, address latches, pending requests, cycle counters and budgets.  A
    reset takes both to the same state in 7 cycles, with the memory as it was.  From there, whatever is
    asked of both in the same order, all their cycles come out alike, be it with a charge or with a fault,
    and at every moment they are the same in everything but the budgets and the cycle counters, which
    stay as far apart as they were.

    Which interrupt is being serviced, and what an instruction costs on top, is no part of the state: a
    cycle works it out anew and hands it on within itself. -/
theorem reset_erases_history (p q : Processor Flat) (j k : Journal) (hmemory : p.ram = q.ram) :
    Reborn p ((p.onPanel (·.raise .reset)).cycle.run j).1 ∧
    Reborn q ((q.onPanel (·.raise .reset)).cycle.run k).1 ∧
    ∀ (calls : List Call) (j' k' : Journal),
      InStep (q.registers.cycles - p.registers.cycles)
        ((((p.onPanel (·.raise .reset)).cycle.run j).1.2.serveAll calls).run j').1
        ((((q.onPanel (·.raise .reset)).cycle.run k).1.2.serveAll calls).run k').1 := by
  simp only [fst_cycle, fst_serveAll]
  refine ⟨p.reborn, q.reborn, fun calls _ _ => ?_⟩
  obtain ⟨houtcomes, hregisters, hworld⟩ := (echoes_reset hmemory).servedAll calls
  exact ⟨houtcomes, hworld.memory, hworld.requests, hregisters.symm⟩

/-- A processor in the middle of things and in debt, with everything pending, on a counter about to wrap
    around.  The memory holds INC 0x10, then an opcode without a meaning. -/
def weary : Processor Flat where
  registers := {
    a := 1, x := 2, y := 3, sp := 4, pc := 0x1234, addressLatch := 5, cycles := 0xFFFFFFFFFFFFFFFF
    flags := { negative := true, unused := true, decimal := true, carry := true } }
  world := {
    memory := ({} : Flat).loadProgram 0x0400 [0xE6, 0x10, 0x02]
    panel := {
      requests := { nmi := true, irq := true, reset := true }
      budget := { credit := -3, executed := 9 } } }

/-- One that it never met, and that has not begun, on a memory with the same contents. -/
def fresh : Processor Flat where
  world := { memory := ({} : Flat).loadProgram 0x0400 [0xE6, 0x10, 0x02] }

/-- After the reset, INC takes 5 cycles, the opcode without a meaning fails, and NMI takes 7, in both of
    them.  The counters stay 1 apart. -/
theorem reset_erases_history_weary :
    weary.ram = fresh.ram ∧
      Reborn weary ((weary.onPanel (·.raise .reset)).cycle.run {}).1 ∧
      ((((fresh.onPanel (·.raise .reset)).cycle.run {}).1.2.serveAll
        [.cycle, .cycle, .request .nmi, .cycle]).run {}).1.1.outcomes =
          [.ok 5, .error (.unimplementedOpcode 0x02 0x0402), .ok 7] ∧
      InStep 1
        ((((weary.onPanel (·.raise .reset)).cycle.run {}).1.2.serveAll
          [.cycle, .cycle, .request .nmi, .cycle]).run {}).1
        ((((fresh.onPanel (·.raise .reset)).cycle.run {}).1.2.serveAll
          [.cycle, .cycle, .request .nmi, .cycle]).run {}).1 := by
  have hmemory : weary.ram = fresh.ram := rfl
  obtain ⟨hreborn, -, hinstep⟩ := reset_erases_history weary fresh {} {} hmemory
  exact ⟨hmemory, hreborn, by rfl, hinstep _ {} {}⟩

end Processor

end Breadboard
