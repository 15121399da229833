import Breadboard.Memory.World
import Breadboard.Proofs.Dispatch
import Breadboard.Proofs.Simulation
/-
  Memories that have nothing to do with pacing.

  A memory sees the whole panel, so in principle it could look at the credit, or spend some.  None does.
  `Oblivious` says that a memory does not look: what it answers, and what becomes of it and of the
  requests, depends on itself and on the requests alone.  `Thrifty` says that an access does not spend or
  grant.  A flat memory is both, a recorder is what the memory behind it is, and a circuit is both because
  its listeners write to the panel without ever reading it.  An attendant may look at the panel at the end
  of a cycle, that is what it is for, but accesses go past it.
-/
namespace Breadboard

variable {μ σ α : Type} [Memory μ]

/-- The same memory and the same pending requests; the rest of the panel may differ. -/
structure World.SameTask (w v : World μ) : Prop where
  memory : w.memory = v.memory
  requests : w.panel.requests = v.panel.requests

/-- The same credit and the same count of what has been charged; grants and wake-ups may differ. -/
structure Budget.SameAccount (b c : Budget) : Prop where
  credit : c.credit = b.credit
  executed : c.executed = b.executed

theorem Budget.SameAccount.refl (b : Budget) : SameAccount b b :=
  ⟨rfl, rfl⟩

/-- The account is left alone in two steps if it is in each of them. -/
theorem Budget.SameAccount.trans {b c d : Budget} (h : SameAccount b c) (h' : SameAccount c d) :
    SameAccount b d :=
  ⟨h'.credit.trans h.credit, h'.executed.trans h.executed⟩

/-- A memory that does not look at the pacing: two worlds that differ only in how the processor is held
    answer alike, and go on differing only in that. -/
class Oblivious (μ : Type) [Memory μ] : Prop where
  simulation : Simulation (@World.SameTask μ)

/-- A memory whose accesses leave the account alone.  A memory that could charge would make a bound on the
    credit worthless. -/
class Thrifty (μ : Type) [Memory μ] : Prop where
  read : ∀ address (w : World μ),
    w.panel.budget.SameAccount (Memory.read address w).2.panel.budget
  write : ∀ address value (w : World μ),
    w.panel.budget.SameAccount (Memory.write address value w).panel.budget

/-- What a processor does to its own panel, it does in worlds of the same task alike; so this is all there
    is to prove of a memory. -/
theorem Oblivious.of_accesses
    (hread : ∀ {w v : World μ}, w.SameTask v → ∀ address,
      (Memory.read address w).1 = (Memory.read address v).1 ∧
        (Memory.read address w).2.SameTask (Memory.read address v).2)
    (hwrite : ∀ {w v : World μ}, w.SameTask v → ∀ address value,
      (Memory.write address value w).SameTask (Memory.write address value v))
    (hend : ∀ {w v : World μ}, w.SameTask v →
      (Memory.endCycle w).SameTask (Memory.endCycle v)) : Oblivious μ where
  simulation := {
    read := hread
    write := hwrite
    endCycle := hend
    requests := fun h => h.requests
    withRequests := fun h _ => ⟨h.memory, rfl⟩
    charge := fun h _ => ⟨h.memory, h.requests⟩ }

/-- Bus traffic leaves the account alone, because each of its accesses does. -/
theorem Thrifty.play [Thrifty μ] (t : Traffic α) (w : World μ) :
    w.panel.budget.SameAccount (t.play w).2.panel.budget := by
  induction t generalizing w with
  | done result => exact .refl _
  | read address next ih => exact (Thrifty.read address w).trans (ih _ _)
  | write address value next ih => exact (Thrifty.write address value w).trans (ih _)

/-! ## A flat memory -/

instance : Oblivious Flat :=
  .of_accesses (fun h address => ⟨congrArg (·.read address) h.memory, h⟩)
    (fun h address value => ⟨congrArg (·.write address value) h.memory, h.requests⟩) id

instance : Thrifty Flat where
  read _ _ := .refl _
  write _ _ _ := .refl _

/-! ## A recorder -/

namespace Recorded

omit [Memory μ] in
/-- Taking the recorder off two worlds leaves them the same task. -/
theorem sameTask_bare {w v : World (Recorded μ)} (h : w.SameTask v) : (bare w).SameTask (bare v) :=
  ⟨congrArg Recorded.memory h.memory, h.requests⟩

omit [Memory μ] in
/-- Putting the same tape on two worlds leaves them the same task. -/
theorem sameTask_record {w v : World μ} (h : w.SameTask v) (tape : List BusAccess) :
    (record w tape).SameTask (record v tape) :=
  ⟨congrArg (Recorded.mk · tape) h.memory, h.requests⟩

instance [Oblivious μ] : Oblivious (Recorded μ) :=
  .of_accesses
    (fun {w v} h address => by
      obtain ⟨hbyte, hafter⟩ := Oblivious.simulation.read (sameTask_bare h) address
      simp only [Memory.read, ← h.memory, hbyte]
      exact ⟨trivial, sameTask_record hafter _⟩)
    (fun {w v} h address value => by
      have hafter := Oblivious.simulation.write (sameTask_bare h) address value
      simp only [Memory.write, ← h.memory]
      exact sameTask_record hafter _)
    (fun {w v} h => by
      have hafter := Oblivious.simulation.endCycle (sameTask_bare h)
      simp only [Memory.endCycle, ← h.memory]
      exact sameTask_record hafter _)

instance [Thrifty μ] : Thrifty (Recorded μ) where
  read address w := Thrifty.read address (bare w)
  write address value w := Thrifty.write address value (bare w)

end Recorded

/-! ## An attendant -/

instance [Thrifty μ] : Thrifty (Attended σ μ) where
  read address w := Thrifty.read address (Attended.bare w)
  write address value w := Thrifty.write address value (Attended.bare w)

/-! ## A circuit -/

namespace Circuit

variable {R : Circuit → Circuit → Prop} {c d : Circuit}

/-- Companions answer a read through the socket alike.  Both drive the same wires to the same levels, one
    after the other. -/
theorem readPins_follow (hR : Companions R) (h : R c d) (address : UInt16) :
    (readPins address c).1 = (readPins address d).1 ∧
      R (readPins address c).2 (readPins address d).2 := by
  simp only [readPins, hR.memory h]
  -- after the same calls the data bus holds the same, because the fabrics are equal
  have hafter := driven_follow hR d.memory.socket.clock .high
    (driven_follow hR d.memory.socket.rw .high
      (hR.onFabric h (·.writeBus d.memory.socket.address address.toNat)))
  exact ⟨by rw [hR.memory hafter], hafter⟩

/-- A write through the socket leaves companions what they are. -/
theorem writePins_follow (hR : Companions R) (h : R c d) (address : UInt16) (v : UInt8) :
    R (writePins address v c) (writePins address v d) := by
  simp only [writePins, hR.memory h]
  exact driven_follow hR _ _ (driven_follow hR _ _ (hR.onFabric h _))

theorem endPins_follow (hR : Companions R) (h : R c d) : R (endPins c) (endPins d) := by
  simp only [endPins, hR.memory h]
  exact driven_follow hR _ _ h

/-- Counting clock cycles down touches no request, not even when it stops the run. -/
theorem requests_countDown (p : Panel) : p.countDown.requests = p.requests := by
  unfold Panel.countDown
  split <;> rfl

/-- Counting clock cycles down leaves the account alone; the wake-up of a stop is not part of it. -/
theorem sameAccount_countDown (p : Panel) : p.budget.SameAccount p.countDown.budget := by
  unfold Panel.countDown
  split <;> exact ⟨rfl, rfl⟩

/-- Circuits with the same wires, buses and chips and the same requests stay so, whatever listens on their
    wires. -/
theorem companions_sameTask : Companions (@World.SameTask Fabric) where
  memory h := h.memory
  onFabric h f := ⟨congrArg f h.memory, h.requests⟩
  raise h kind := ⟨h.memory, congrArg (·.raise kind) h.requests⟩
  countDown h := ⟨h.memory, by
    simp only [onPanel, requests_countDown]
    exact h.requests⟩

/-- A circuit in company with itself, with the account at what it was. -/
theorem companions_account (b : Budget) :
    Companions fun c d => c = d ∧ b.SameAccount c.panel.budget where
  memory h := congrArg World.memory h.1
  onFabric h f := ⟨congrArg (·.onFabric f) h.1, h.2⟩
  raise h kind := ⟨congrArg (fun c => c.onPanel (·.raise kind)) h.1, h.2⟩
  countDown h := ⟨congrArg (fun c => c.onPanel (·.countDown)) h.1,
    h.2.trans (sameAccount_countDown _)⟩

end Circuit

open Circuit in
instance : Oblivious Fabric :=
  .of_accesses (readPins_follow companions_sameTask) (writePins_follow companions_sameTask)
    (endPins_follow companions_sameTask)

open Circuit in
instance : Thrifty Fabric where
  read address w :=
    (readPins_follow (companions_account w.panel.budget) ⟨rfl, .refl _⟩ address).2.2
  write address value w :=
    (writePins_follow (companions_account w.panel.budget) ⟨rfl, .refl _⟩ address value).2

end Breadboard
