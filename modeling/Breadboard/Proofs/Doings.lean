import Breadboard.Proofs.Overlay
/-
  What may be done to a machine once it has been built.

  Besides the deeds of a front end, wires may be pulsed and driven by hand, and listeners may be put on
  them.  A property of the fabric that a build does not change is `Firm` if drives, and writes to buses
  and cells, leave it as it is.  Such a property holds of every machine that has been built, whatever has
  been done to it (`Machine.firm_undertakeAll`), as long as the listeners that are put on the wires let it hold.
-/
namespace Breadboard

/-- Something done to a machine between instructions, or the execution of one. -/
inductive Doing where
  | deed (deed : Deed)
  /-- A wire is driven low and then high, by its name. -/
  | pulse (name : String)
  | drive (wire : WireId) (level : Level)
  /-- A listener is put on a wire. -/
  | listen (wire : WireId) (level : Level) (l : Listener)
  /-- A script is put on a wire, with a counter of its own. -/
  | script (wire : WireId) (level : Level) (s : Probe)

namespace Machine

/-- A machine to which something has been done.  What comes back of it is left out here, being of no use to
    the properties below. -/
def undertake (m : Machine) : Doing → Logged Machine
  | .deed deed => do
    let (_, m) ← m.carryOut deed
    return m
  | .pulse name => return (m.pulse name).toOption.getD m
  | .drive wire level => return { m with board := (m.board.drive wire level).2 }
  | .listen wire level l => return { m with board := m.board.onFabric (·.listen wire level l) }
  | .script wire level s =>
    return { m with board := m.board.onFabric (·.listenScript wire level s) }

/-- One thing after the other, in the order of the list. -/
def undertakeAll (doings : List Doing) (m : Machine) : Logged Machine :=
  doings.foldlM undertake m

end Machine

/-- Drives, and writes to buses and cells, leave it as it is.  Most of what is true of a circuit by the way
    it is built is of this kind. -/
structure Fabric.Firm (P : Fabric → Prop) : Prop where
  sameBuild : ∀ {f g}, SameBuild f g → P f → P g
  driven : ∀ wire level {c : Circuit}, P c.memory → P (Circuit.driven wire level c).memory

/-- If it puts a listener on a wire, the property still holds afterwards. -/
def Doing.Spares (P : Fabric → Prop) : Doing → Prop
  | .listen wire level l => ∀ f, P f → P (f.listen wire level l)
  | .script wire level s => ∀ f, P f → P (f.listenScript wire level s)
  | .deed _ | .pulse _ | .drive .. => True

namespace Fabric.Firm

variable {P : Fabric → Prop}

/-- A processor that is plugged into such a fabric leaves it so, whatever it executes. -/
theorem simulation (h : Firm P) : Simulation fun w (c : Circuit) => w = c ∧ P c.memory where
  -- an access is a write to a bus or two, and two drives
  read {w c} hw address := by
    obtain ⟨rfl, hP⟩ := hw
    refine ⟨rfl, rfl, ?_⟩
    exact h.driven _ _ (h.driven _ _ (h.sameBuild (sameBuild_writeBus ..) hP))
  write {w c} hw address value := by
    obtain ⟨rfl, hP⟩ := hw
    refine ⟨rfl, ?_⟩
    exact h.driven _ _ (h.driven _ _ (h.sameBuild (sameBuild_writeBus ..)
      (h.sameBuild (sameBuild_writeBus ..) hP)))
  endCycle {w c} hw := by
    obtain ⟨rfl, hP⟩ := hw
    exact ⟨rfl, h.driven _ _ hP⟩
  requests hw := by rw [hw.1]
  withRequests hw _ := ⟨by rw [hw.1], hw.2⟩
  charge hw _ := ⟨by rw [hw.1], hw.2⟩

/-- In particular a step leaves it so. -/
theorem stepped (h : Firm P) {p : Processor Fabric} (hP : P p.world.memory) :
    P p.stepped.2.world.memory :=
  (h.simulation.stepped (p := p) (q := p) ⟨rfl, rfl, hP⟩).alike.world.2

/-- So does powering up, with the end of the cycle that follows. -/
theorem poweredUp (h : Firm P) {p : Processor Fabric} (hP : P p.world.memory) :
    P p.poweredUp.endCycle.world.memory := by
  have hpowered := (h.simulation.poweredUp (p := p) (q := p) ⟨rfl, rfl, hP⟩).world
  exact (h.simulation.endCycle hpowered).2

end Fabric.Firm

namespace Machine

variable {P : Fabric → Prop}

/-- A step that is undertaken is a step of the machine's processor. -/
theorem undertake_step (m : Machine) (j : Journal) :
    ((m.undertake (.deed .step)).run j).1 = m.withProcessor m.processor.stepped.2 := by
  rw [← m.processor.fst_step j]
  rfl

/-- A pulse drives a wire low and high, or does nothing at all if nothing has this name. -/
theorem pulse_eq (m : Machine) (name : String) : (m.pulse name).toOption.getD m = m ∨
    ∃ wire, (m.pulse name).toOption.getD m =
      { m with board := ((m.board.drive wire .low).2.drive wire .high).2 } := by
  unfold pulse
  cases m.board.line name with
  | error reason => exact .inl rfl
  | ok wire => exact .inr ⟨wire, rfl⟩

/-- Hence names stay what they are after a pulse, and what is firm stays. -/
theorem firm_pulse (h : Fabric.Firm P) {m : Machine} (hP : P m.board.fabric) (name : String) :
    P ((m.pulse name).toOption.getD m).board.fabric ∧
      ((m.pulse name).toOption.getD m).board.lines = m.board.lines := by
  rcases m.pulse_eq name with hsame | ⟨wire, hpulse⟩
  · rw [hsame]
    exact ⟨hP, rfl⟩
  · rw [hpulse]
    exact ⟨h.driven wire .high (h.driven wire .low hP), rfl⟩

/-- A pulse as a deed is a pulse by the name of the input. -/
theorem carryOut_pulse (m : Machine) (kind : Request) (j : Journal) :
    ((m.carryOut (.pulse kind)).run j).1.2 = (m.pulse (inputName kind)).toOption.getD m := by
  cases hpulse : m.pulse (inputName kind) with
  | error reason =>
    have hcarried : m.carryOut (.pulse kind) = pure (.unnamed reason, m) := by
      rw [carryOut, hpulse]
    rw [hcarried]
    rfl
  | ok m' =>
    have hcarried : m.carryOut (.pulse kind) = pure (.done, m') := by rw [carryOut, hpulse]
    rw [hcarried]
    rfl

/-- What is firm stays through every deed, by cases on the deed. -/
theorem firm_carryOut (h : Fabric.Firm P) {m : Machine} (hP : P m.board.fabric) (deed : Deed)
    (j : Journal) : P ((m.carryOut deed).run j).1.2.board.fabric ∧
      ((m.carryOut deed).run j).1.2.board.lines = m.board.lines := by
  cases deed with
  | step =>
    have hstep := m.undertake_step j
    rw [show ((m.carryOut .step).run j).1.2 = m.withProcessor m.processor.stepped.2 from hstep]
    exact ⟨h.stepped (p := m.processor) hP, rfl⟩
  | request kind => exact ⟨hP, rfl⟩
  | pulse kind =>
    rw [carryOut_pulse]
    exact firm_pulse h hP (inputName kind)
  | poke address v => exact ⟨h.sameBuild (Fabric.sameBuild_setStore ..) hP, rfl⟩
  | setRegisters change => exact ⟨hP, rfl⟩

/-- It stays through everything that may be undertaken, if the listener that is put on, should this be one,
    spares it. -/
theorem firm_undertake (h : Fabric.Firm P) {m : Machine} (hP : P m.board.fabric) {doing : Doing}
    (hspares : doing.Spares P) (j : Journal) :
    P ((m.undertake doing).run j).1.board.fabric ∧
      ((m.undertake doing).run j).1.board.lines = m.board.lines := by
  cases doing with
  | deed deed => exact firm_carryOut h hP deed j
  | pulse name => exact firm_pulse h hP name
  | drive wire level => exact ⟨h.driven wire level hP, rfl⟩
  | listen wire level l => exact ⟨hspares _ hP, rfl⟩
  | script wire level s => exact ⟨hspares _ hP, rfl⟩

/-- What is firm survives whatever is done, if the listeners spare it, by induction over the doings. -/
theorem firm_undertakeAll (h : Fabric.Firm P) : ∀ (doings : List Doing) {m : Machine},
    P m.board.fabric → (∀ doing ∈ doings, doing.Spares P) → ∀ j : Journal,
    P ((undertakeAll doings m).run j).1.board.fabric ∧
      ((undertakeAll doings m).run j).1.board.lines = m.board.lines
  | [], _, hP, _, _ => ⟨hP, rfl⟩
  | doing :: doings, m, hP, hspares, j => by
    obtain ⟨hfirst, hlines⟩ := firm_undertake h hP (hspares doing List.mem_cons_self) j
    obtain ⟨hrest, hlines'⟩ := firm_undertakeAll h doings hfirst
      (fun doing hdoing => hspares doing (List.mem_cons_of_mem _ hdoing))
      ((m.undertake doing).run j).2
    exact ⟨hrest, hlines'.trans hlines⟩

/-- The names on the board are no matter of the processor's. -/
theorem lines_withProcessor (m : Machine) (p : Processor Fabric) :
    (m.withProcessor p).board.lines = m.board.lines := rfl

/-- A machine that has been built is wired as its layout says, its wires have their names, and its
    processor has been powered up. -/
theorem firm_build (h : Fabric.Firm P) {slots : List RomSlot} {budget : Budget} {m : Machine}
    {j : Journal} (hbuild : ((build slots budget).run.run j).1 = .ok m)
    (hwired : P (wiredFabric slots)) : P m.board.fabric ∧ Labelled m.board.lines := by
  obtain ⟨m₀, hready, hyields⟩ := yields_build slots budget
  have hbuilt := hyields j
  rw [hbuild, RomSlot.unlessRefused] at hbuilt
  cases hrefused : slots.findSome? RomSlot.refusal? with
  -- then there would be no machine
  | some e =>
    rw [hrefused] at hbuilt
    cases hbuilt
  | none =>
    rw [hrefused] at hbuilt
    obtain rfl : m = m₀.withProcessor m₀.processor.poweredUp.endCycle := Except.ok.inj hbuilt
    have hpowered : P m₀.processor.poweredUp.endCycle.world.memory :=
      h.poweredUp (h.sameBuild hready.build hwired)
    refine ⟨hpowered, ?_⟩
    rw [lines_withProcessor]
    exact hready.labels

/-- What an outcome is checked for is true of what comes of it. -/
theorem exists_of_outcome {ε α : Type} {P : α → Prop} [DecidablePred P] {x : Except ε α}
    (h : (match x with | .ok a => decide (P a) | .error _ => false) = true) :
    ∃ a, x = .ok a ∧ P a := by
  cases x with
  | error e => cases h
  | ok a => exact ⟨a, rfl, of_decide_eq_true h⟩

end Machine

end Breadboard
