import Breadboard.Memory.World
import Breadboard.Proofs.Dispatch
import Breadboard.Proofs.Service
import Breadboard.Proofs.Simulation
/-
  A logic analyser on the wires.

  Driving a wire answers with a level and leaves a circuit; what went on in between, which wires were
  driven within the call and which listeners were called with what in front of them, is gone.
  `Circuit.traced?` drives a wire in the same way and keeps a list of it, in the order in which it
  happened.  It is the same call: without the list it is `drive?` (`result_traced?`).

  `Analysed` is a circuit with an analyser on the processor's pins, which notes for each access what
  happened when read/write was driven and what happened when the clock was.  It changes nothing
  (`Analysed.simulation`), so what it notes is what happens in a circuit without one.
-/
namespace Breadboard

variable {α β : Type}

/-- Something that happens while wires are driven, in the order in which it happens. -/
inductive Happening where
  /-- A wire is driven to a level. -/
  | drive (wire : WireId) (level : Level)
  /-- The listener in this place of the wire's list for the level is called, with this in front of it. -/
  | call (wire : WireId) (level : Level) (place : Nat) (seen : Fabric)

/-- The wires that are driven, and to which levels; the calls in between are left out. -/
def Happening.drives (log : List Happening) : List (WireId × Level) :=
  log.filterMap fun
    | .drive wire level => some (wire, level)
    | .call .. => none

/-- What is driven in one log after another is driven in the first and then in the second. -/
theorem Happening.drives_append (first rest : List Happening) :
    drives (first ++ rest) = drives first ++ drives rest :=
  List.filterMap_append

/-! ## Computations that keep a log -/

/-- A computation that may have no end, and what happens in it.  The log is there only if there is an end. -/
def Traced (α : Type) : Type :=
  Option (α × List Happening)

namespace Traced

instance : Monad Traced where
  pure a := some (a, [])
  bind x f := Option.bind x fun (a, first) =>
    Option.map (fun (b, rest) => (b, first ++ rest)) (f a)

/-- One thing happens, and nothing else is changed by it. -/
def note (h : Happening) : Traced Unit :=
  some ((), [h])

/-- Nothing happens that a log would have to mention. -/
def silent (x : Option α) : Traced α :=
  x.map (·, [])

/-- What comes of it, without the log.  The lemmas about `result` say that keeping a log changes nothing. -/
def result (x : Traced α) : Option α :=
  Option.map (·.1) x

@[simp] theorem result_pure (a : α) : (pure a : Traced α).result = some a := rfl

@[simp] theorem result_note (h : Happening) : (note h).result = some () := rfl

@[simp] theorem result_silent (x : Option α) : (silent x).result = x := by
  cases x <;> rfl

@[simp] theorem result_bind (x : Traced α) (f : α → Traced β) :
    (x >>= f).result = x.result.bind fun a => (f a).result := by
  cases x with
  | none => rfl
  | some x =>
    obtain ⟨a, first⟩ := x
    show _ = (f a).result
    cases hrest : f a with
    | none => simp only [bind, Option.bind_some, hrest]; rfl
    | some y => simp only [bind, Option.bind_some, hrest]; rfl

/-- A fold comes to the same without the log if each of its steps does. -/
theorem result_foldlM {f : β → α → Traced β} {g : β → α → Option β}
    (h : ∀ b a, (f b a).result = g b a) :
    ∀ (l : List α) (b : β), (l.foldlM f b).result = l.foldlM g b
  | [], _ => rfl
  | a :: l, b => by
    rw [List.foldlM_cons, List.foldlM_cons, result_bind, h]
    exact congrArg _ (funext fun b' => result_foldlM h l b')

end Traced

/-! ## Calls that keep a log -/

/-- How a circuit's wires are driven from within, with a log of what happens. -/
abbrev Tracer := WireId → Level → Circuit → Traced (Level × Circuit)

/-- What a script does when it is called; only driving is more than it says itself. -/
def Action.traced (drive : Tracer) (tag : String) (c : Circuit) :
    Action WireId BusId → Traced Circuit
  | .drive wire level => do
    let (previous, c) ← drive wire level c
    return Circuit.onFabric c (·.report (.previous tag previous))
  | action => Traced.silent (action.run (fun _ _ _ => none) tag c)

/-- What a listener does when it is called, with a log of the wires that it drives. -/
def Listener.traced (drive : Tracer) (c : Circuit) : Listener → Traced Circuit
  | .select chip => do
    let f := c.memory
    let wire := chip.selected (f.readAddress chip.address) (f.wire chip.rw).level.isHigh
    return (← drive wire .low c).2
  | .release chip =>
    chip.outputs.foldlM (fun c wire => return (← drive wire .high c).2) c
  | .script counter s =>
    let calls := c.memory.counter counter
    if Probe.due s c.memory calls then
      let c := Circuit.onFabric c fun f =>
        (f.setCounter counter (calls + 1)).report (.fired s.tag)
      s.actions.foldlM (fun c action => action.traced drive s.tag c) c
    else return c
  | l => Traced.silent (l.respond (fun _ _ _ => none) c)

namespace Circuit

/-- Calls listeners, one after the other; the first of them is in this place. -/
def callAll (drive : Tracer) (wire : WireId) (level : Level) :
    Nat → List Listener → Circuit → Traced Circuit
  | _, [], c => return c
  | place, l :: ls, c => do
    Traced.note (.call wire level place c.memory)
    let c ← l.traced drive c
    callAll drive wire level (place + 1) ls c

/-- Drives a wire as `drive?` does, with a log that begins with that wire. -/
def traced? : Nat → Tracer
  | 0, _, _, _ => Traced.silent none
  | depth + 1, wire, level, c => do
    Traced.note (.drive wire level)
    let before := c.memory.wire wire
    let c ← callAll (traced? depth) wire level 0 (before.listeners level)
      (onFabric c (·.setLevel wire level))
    return (before.level, c)

/-- What happens when a wire is driven.  Of a call that never comes back nothing is noted. -/
def happenings (wire : WireId) (level : Level) (c : Circuit) : List Happening :=
  (Option.map (·.2) (traced? maxDepth wire level c)).getD []

/-! ## The log makes no difference -/

section

variable {f : Tracer} {g : Driver}

/-- What a script does is what it does without the log, if driving is. -/
theorem result_action (h : ∀ wire level c, (f wire level c).result = g wire level c) (tag : String)
    (c : Circuit) (action : Action WireId BusId) :
    (action.traced f tag c).result = action.run g tag c := by
  cases action with
  | drive wire level =>
    simp only [Action.traced, Action.run, Traced.result_bind, h]
    rfl
  | write | copy | read | probe | listen => rfl

/-- What a listener does is what it does without the log, if driving is. -/
theorem result_listener (h : ∀ wire level c, (f wire level c).result = g wire level c)
    (c : Circuit) (l : Listener) : (l.traced f c).result = l.respond g c := by
  cases l with
  | select chip =>
    simp only [Listener.traced, Listener.respond, Traced.result_bind, h]
    rfl
  -- the levels that the wires had are thrown away on both sides
  | release chip =>
    simp only [Listener.traced, Listener.respond]
    refine Traced.result_foldlM (fun c wire => ?_) chip.outputs c
    rw [Traced.result_bind, h, Option.map_eq_bind]
    rfl
  | script counter s =>
    simp only [Listener.traced, Listener.respond]
    split
    · exact Traced.result_foldlM (fun c action => result_action h s.tag c action) s.actions _
    · rfl
  -- the others drive no wire, so there is nothing to trace
  | rom | ram | request | countdown | watch => rfl

/-- Calling listeners one after the other is, without the log, the fold that `drive?` makes.  The place that
    is counted up is for the log only. -/
theorem result_callAll (h : ∀ wire level c, (f wire level c).result = g wire level c)
    (wire : WireId) (level : Level) : ∀ (ls : List Listener) (place : Nat) (c : Circuit),
    (callAll f wire level place ls c).result = ls.foldlM (fun c l => l.respond g c) c
  | [], _, _ => rfl
  | l :: ls, place, c => by
    simp only [callAll, Traced.result_bind, Traced.result_note, List.foldlM_cons,
      result_listener h, Option.bind_some]
    exact congrArg _ (funext fun c' => result_callAll h wire level ls (place + 1) c')

end

/-- Without its log, a traced call is a call.  By induction on the depth. -/
theorem result_traced? : ∀ (n : Nat) (wire : WireId) (level : Level) (c : Circuit),
    (traced? n wire level c).result = drive? n wire level c
  | 0, _, _, _ => rfl
  | n + 1, wire, level, c => by
    simp only [traced?, drive?, Traced.result_bind, Traced.result_note, Option.bind_some,
      result_callAll (result_traced? n)]
    rfl

/-- What happens in a call that comes to an end is in its log. -/
theorem happenings_eq {wire : WireId} {level : Level} {c : Circuit} {x : Level × Circuit}
    {log : List Happening} (h : traced? maxDepth wire level c = some (x, log)) :
    happenings wire level c = log ∧ drive wire level c = x := by
  have hresult := result_traced? maxDepth wire level c
  rw [h] at hresult
  refine ⟨?_, ?_⟩
  · rw [happenings, h]
    rfl
  · rw [drive, ← hresult]
    rfl

end Circuit

/-! ## The analyser -/

/-- What an analyser on the pins notes, one entry for each thing that the processor does there. -/
inductive Transaction where
  /-- An access: what happened when read/write was driven, and what happened then when the clock was. -/
  | access (what : BusAccess) (onRw onClock : List Happening)
  /-- The clock was driven at the end of a cycle. -/
  | endOfCycle (onClock : List Happening)

/-- Everything that happens within a transaction, in order. -/
def Transaction.happenings : Transaction → List Happening
  | .access _ onRw onClock => onRw ++ onClock
  | .endOfCycle onClock => onClock

/-- The access that it is, if it is one. -/
def Transaction.what? : Transaction → Option BusAccess
  | .access what .. => some what
  | .endOfCycle _ => none

/-- The wires that are driven within a transaction, the processor's own and those that chips drive in turn. -/
def Transaction.drives (t : Transaction) : List (WireId × Level) :=
  Happening.drives t.happenings

namespace Circuit

/-- An address is put on its bus, before anything else happens. -/
def addressed (address : UInt16) (c : Circuit) : Circuit :=
  onFabric c (·.writeBus c.memory.socket.address address.toNat)

/-- A byte is put on the data bus, as it is before a write. -/
def supplied (v : UInt8) (c : Circuit) : Circuit :=
  onFabric c (·.writeBus c.memory.socket.data v.toNat)

/-- What is noted of an access when its buses are ready: first the read/write wire is driven, then the
    clock. -/
def transaction (what : BusAccess) (rw : Level) (ready : Circuit) : Transaction :=
  let pins := ready.memory.socket
  .access what (happenings pins.rw rw ready)
    (happenings pins.clock .high (driven pins.rw rw ready))

end Circuit

/-- A circuit with an analyser on the pins, which listens and has no part in anything. -/
structure Analysed where
  fabric : Fabric
  log : List Transaction := []

namespace Analysed

/-- The circuit without the analyser, in which the accesses are made. -/
def bare (w : World Analysed) : Circuit :=
  { w with memory := w.memory.fabric }

/-- The wires that have been driven in everything that has been noted, in order. -/
def drives (w : World Analysed) : List (WireId × Level) :=
  w.memory.log.flatMap Transaction.drives

/-- The circuit with an analyser that has noted this so far. -/
def attach (c : Circuit) (log : List Transaction) : World Analysed :=
  { c with memory := { fabric := c.memory, log } }

end Analysed

open Analysed Circuit in
instance : Memory Analysed where
  read address w :=
    let (v, after) := readPins address (bare w)
    let noted := transaction (.read address v) .high (addressed address (bare w))
    (v, attach after (w.memory.log ++ [noted]))
  write address v w :=
    let noted := transaction (.write address v) .low (supplied v (addressed address (bare w)))
    attach (writePins address v (bare w)) (w.memory.log ++ [noted])
  endCycle w :=
    let noted := .endOfCycle (happenings w.memory.fabric.socket.clock .low (bare w))
    attach (endPins (bare w)) (w.memory.log ++ [noted])

/-- A circuit does not notice the analyser: with it and without it, every access gives the same byte and
    leaves the same circuit. -/
theorem Analysed.simulation : Simulation fun (w : World Analysed) (c : Circuit) => bare w = c where
  read h _ := by
    subst h
    exact ⟨rfl, rfl⟩
  write h _ _ := by
    subst h
    rfl
  endCycle h := by
    subst h
    rfl
  requests h := by
    subst h
    rfl
  withRequests h _ := by
    subst h
    rfl
  charge h _ := by
    subst h
    rfl

/-- The analyser notes every access that a tape recorder on the bus records, and no other. -/
theorem Analysed.recorded : Simulation fun (w : World Analysed) (v : World (Recorded Fabric)) =>
    bare w = Recorded.bare v ∧
      w.memory.log.filterMap Transaction.what? = v.memory.tape.reverse where
  read {w v} h address := by
    obtain ⟨hbare, htape⟩ := h
    simp only [Memory.read, attach, Recorded.record, hbare]
    refine ⟨trivial, rfl, ?_⟩
    rw [List.filterMap_append, htape, List.reverse_cons]
    rfl
  write {w v} h address value := by
    obtain ⟨hbare, htape⟩ := h
    simp only [Memory.write, attach, Recorded.record, hbare]
    refine ⟨rfl, ?_⟩
    rw [List.filterMap_append, htape, List.reverse_cons]
    rfl
  -- the end of a cycle is in the log and not on the tape
  endCycle {w v} h := by
    obtain ⟨hbare, htape⟩ := h
    simp only [Memory.endCycle, attach, Recorded.record, hbare]
    refine ⟨rfl, ?_⟩
    rw [List.filterMap_append, htape]
    exact List.append_nil _
  requests h := congrArg (·.panel.requests) h.1
  withRequests h requests := ⟨congrArg (·.withRequests requests) h.1, h.2⟩
  charge h cycles := ⟨congrArg (fun c : Circuit => World.onPanel c (·.charge cycles)) h.1, h.2⟩

namespace Processor

/-- The processor with a new analyser on its pins, which has noted nothing yet. -/
def analysed (p : Processor Fabric) : Processor Analysed where
  registers := p.registers
  world := Analysed.attach p.world []

/-- The processor with a tape recorder on its bus, and a new tape in it. -/
def taped (p : Processor Fabric) : Processor (Recorded Fabric) where
  registers := p.registers
  world := Recorded.record p.world []

/-- The processor without the analyser, as it would be if there had been none. -/
def unanalysed (p : Processor Analysed) : Processor Fabric where
  registers := p.registers
  world := Analysed.bare p.world

/-- A cycle comes to the same under an analyser. -/
theorem cycled_analysed (p : Processor Fabric) :
    p.analysed.cycled.1 = p.cycled.1 ∧ p.analysed.cycled.2.unanalysed = p.cycled.2 := by
  have halike : Alike (fun w c => Analysed.bare w = c) p.analysed p := ⟨rfl, rfl⟩
  obtain ⟨houtcome, hregisters, hworld⟩ := Analysed.simulation.cycled halike
  refine ⟨houtcome, ?_⟩
  rw [unanalysed, hregisters, hworld]

/-- The accesses in the analyser's log are those on the tape of a recorder, in the order in which they were
    made. -/
theorem stepped_taped (p : Processor Fabric) :
    p.analysed.stepped.2.world.memory.log.filterMap Transaction.what? =
      p.taped.stepped.2.world.memory.tape.reverse := by
  have halike : Alike (fun w v => Analysed.bare w = Recorded.bare v ∧
      w.memory.log.filterMap Transaction.what? = v.memory.tape.reverse) p.analysed p.taped :=
    ⟨rfl, rfl, rfl⟩
  exact (Analysed.recorded.stepped halike).alike.world.2

/-- A step comes to the same under an analyser, so what the log says is what really happens. -/
theorem stepped_analysed (p : Processor Fabric) :
    p.analysed.stepped.1 = p.stepped.1 ∧ p.analysed.stepped.2.unanalysed = p.stepped.2 := by
  have halike : Alike (fun w c => Analysed.bare w = c) p.analysed p := ⟨rfl, rfl⟩
  obtain ⟨houtcome, hregisters, hworld⟩ := Analysed.simulation.stepped halike
  refine ⟨houtcome, ?_⟩
  rw [unanalysed, hregisters, hworld]

end Processor

/-! ## What a cycle is made of -/

/-- There is at least one access, so the log of it begins with one. -/
def Traffic.Busy : Traffic α → Prop
  | .done _ => False
  | .read .. | .write .. => True

namespace Processor

variable {μ : Type} [Memory μ]

/-- What becomes of the panel after the last access: no request is lost but that of the interrupt which
    has been serviced. -/
def Keeps (serviced : Option Request) (after : Panel → Panel) : Prop :=
  ∀ panel kind, serviced ≠ some kind →
    panel.requests.pending kind = true → (after panel).requests.pending kind = true

/-- An instruction is its traffic, and then a change to the panel that takes back at most the request that
    is being serviced. -/
theorem world_ran (p : Processor μ) (i : Instruction) (servicing : Option Interrupt)
    (start : UInt16) : ∃ after, Keeps (servicing.map Interrupt.request) after ∧
      (p.ran i servicing start).2.world =
        ((i.execute servicing start p.registers).play p.world).2.onPanel after := by
  have hworld : (p.perform (i.execute servicing start)).2.world =
      ((i.execute servicing start p.registers).play p.world).2 := rfl
  rw [← hworld]
  unfold ran
  generalize p.perform (i.execute servicing start) = performed
  rcases performed with ⟨fault | extra, q⟩
  · exact ⟨id, fun _ _ _ h => h, rfl⟩
  -- the instruction succeeded, so it is charged, and an entry takes its own request back
  · cases servicing with
    | none => exact ⟨(·.charge (i.cycles + extra)), fun _ _ _ h => h, rfl⟩
    | some interrupt =>
      refine ⟨fun panel => Panel.charge
        { panel with requests := panel.requests.clear interrupt } (i.cycles + extra), ?_, rfl⟩
      intro panel kind hkind hpending
      refine (panel.requests.pending_clear interrupt kind).mpr ⟨hpending, fun h => hkind ?_⟩
      rw [Option.map_some, h]

/-- The entry of an interrupt begins with an access, even if nothing is fetched for it. -/
theorem busy_enter (i : Interrupt) (start : UInt16) (r : Registers) :
    ((Instruction.decode 0x00).execute (some i) start r).Busy := by
  rw [traffic_enter]
  trivial

/-- A cycle is traffic that begins with an access, between two changes to the panel. -/
theorem world_cycled (p : Processor μ) :
    ∃ (α : Type) (t : Traffic α) (before after : Panel → Panel),
      t.Busy ∧ Keeps p.world.panel.requests.serviced? after ∧
        p.cycled.2.world = ((t.play (p.world.onPanel before)).2).onPanel after := by
  have hentered : ∀ i : Interrupt, ∃ (α : Type) (t : Traffic α) (before after : Panel → Panel),
      t.Busy ∧ Keeps (some i.request) after ∧
        (p.ran (.decode 0x00) (some i) p.registers.pc).2.world =
          ((t.play (p.world.onPanel before)).2).onPanel after := by
    intro i
    obtain ⟨after, hkeeps, hworld⟩ := p.world_ran (.decode 0x00) (some i) p.registers.pc
    exact ⟨_, _, id, after, busy_enter i p.registers.pc p.registers, hkeeps, hworld⟩
  unfold cycled Requests.serviced? Requests.next?
  by_cases hreset : p.world.panel.requests.reset = true
  · rw [if_pos hreset, if_pos hreset]
    exact ⟨_, bootstrap p.cleared.registers, fun panel => { panel with requests := {} },
      (·.charge resetCycles), trivial, fun _ _ _ h => h, rfl⟩
  · rw [if_neg hreset, if_neg hreset]
    by_cases hnmi : p.world.panel.requests.nmi = true
    · rw [if_pos hnmi, if_pos hnmi]
      exact hentered .nmi
    · rw [if_neg hnmi, if_neg hnmi]
      by_cases hirq : p.world.panel.requests.irq = true
      · rw [if_pos hirq, if_pos hirq]
        exact hentered .irq
      · rw [if_neg hirq, if_neg hirq]
        obtain ⟨after, hkeeps, hworld⟩ :=
          p.fetchOpcode.2.world_ran (.decode p.fetchOpcode.1) none p.registers.pc
        -- the fetch of the opcode is an access too, and decides what comes after it
        let fetching : Traffic (Except Fault Nat × Registers) :=
          .read p.registers.pc fun opcode =>
            (Instruction.decode opcode).execute none p.registers.pc p.fetchOpcode.2.registers
        exact ⟨_, fetching, id, after, trivial, hkeeps, hworld⟩

end Processor

end Breadboard
