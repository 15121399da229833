import Breadboard.Proofs.Service
/-
  Bus traffic on a flat memory, and the logic of visits.

  On a memory that answers by itself a traffic has one outcome: what it ends with (`Traffic.result`) and
  the accesses that it makes on the way (`Traffic.accesses`).  A recorder notes exactly these, and they are
  all that happens to the memory (`play_recorded`).

  A `Visit` is an access without its byte.  `Micro.Makes` says of a microprogram that it ends without a
  fault, which visits it makes, and what it ends with; there is one rule for each way of putting
  microprograms together.
-/
namespace Breadboard

variable {α β : Type}

/-- An access without the byte that it moves, which is what can be told from the instruction and its address
    alone. -/
inductive Visit where
  | reads (address : UInt16)
  | writes (address : UInt16)
deriving DecidableEq, Repr

/-- An access, with its byte left out. -/
def BusAccess.visit : BusAccess → Visit
  | .read address _ => .reads address
  | .write address _ => .writes address

/-! ## Traffic on a flat memory -/

namespace Flat

/-- Every byte that is read is the one that the memory holds when it is read. -/
def Answers : Flat → List BusAccess → Prop
  | _, [] => True
  | m, access :: rest =>
    (match access with
      | .read address v => v = m.read address
      | .write _ _ => True) ∧ Answers (m.replay access) rest

/-- Accesses change no byte but those that they write.  This is how a list of visits bounds what an
    instruction can change. -/
theorem read_replay {address : UInt16} (accesses : List BusAccess) (m : Flat)
    (h : .writes address ∉ accesses.map BusAccess.visit) :
    (accesses.foldl replay m).read address = m.read address := by
  induction accesses generalizing m with
  | nil => rfl
  | cons access rest ih =>
    rw [List.map_cons, List.mem_cons, not_or] at h
    obtain ⟨hfirst, hrest⟩ := h
    rw [List.foldl_cons, ih _ hrest]
    cases access with
    | read other v => rfl
    | write other v =>
      have hne : address ≠ other := fun heq => hfirst (by rw [heq]; rfl)
      exact (m.read_write other address v).trans (if_neg hne)

end Flat

namespace Traffic

/-- What a traffic ends with on a flat memory, followed from read to read. -/
def result : Traffic α → Flat → α
  | .done a, _ => a
  | .read address next, m => (next (m.read address)).result m
  | .write address v next, m => next.result (m.write address v)

/-- The accesses it makes there, in order, with the bytes that the memory gives. -/
def accesses : Traffic α → Flat → List BusAccess
  | .done _, _ => []
  | .read address next, m => .read address (m.read address) :: (next (m.read address)).accesses m
  | .write address v next, m => .write address v :: next.accesses (m.write address v)

variable (t : Traffic α) (f : α → Traffic β) (m : Flat)

/-- The second of two traffics goes on in the memory that the first has left. -/
theorem result_bind :
    (t.bind f).result m = (f (t.result m)).result ((t.accesses m).foldl Flat.replay m) := by
  induction t generalizing m with
  | done a => rfl
  | read address next ih => exact ih (m.read address) m
  | write address v next ih => exact ih (m.write address v)

/-- The accesses of two traffics are those of the first, and then those of the second on what the first has
    left. -/
theorem accesses_bind :
    (t.bind f).accesses m =
      t.accesses m ++ (f (t.result m)).accesses ((t.accesses m).foldl Flat.replay m) := by
  induction t generalizing m with
  | done a => rfl
  | read address next ih => exact congrArg (_ :: ·) (ih (m.read address) m)
  | write address v next ih => exact congrArg (_ :: ·) (ih (m.write address v))

/-- The accesses are such as the memory would answer, read for read. -/
theorem answers_accesses : m.Answers (t.accesses m) := by
  induction t generalizing m with
  | done a => trivial
  | read address next ih => exact ⟨rfl, ih (m.read address) m⟩
  | write address v next ih => exact ⟨trivial, ih (m.write address v)⟩

/-- With a recorder on the bus, the accesses are on the tape and in the memory. -/
theorem play_recorded (w : World (Recorded Flat)) :
    t.play w = (t.result w.memory.memory,
      { w with memory := {
          memory := (t.accesses w.memory.memory).foldl Flat.replay w.memory.memory
          tape := (t.accesses w.memory.memory).reverse ++ w.memory.tape } }) := by
  induction t generalizing w with
  | done a => rfl
  -- the tape has the latest access first, so each of them goes between the others and what was there
  | read address next ih =>
    refine (ih _ _).trans ?_
    simp only [accesses, List.reverse_cons, List.append_assoc]
    rfl
  | write address v next ih =>
    refine (ih _).trans ?_
    simp only [accesses, List.reverse_cons, List.append_assoc]
    rfl

end Traffic

/-! ## Microprograms and the visits they make -/

namespace Micro

/-- On this memory and with these registers it ends without a fault, has made these visits and no
    others, and what it ends with is such. -/
def Makes (s : Micro α) (m : Flat) (r : Registers) (visits : List Visit)
    (P : α → Registers → Prop) : Prop :=
  ∃ a r', (s r).result m = (.ok a, r') ∧ ((s r).accesses m).map BusAccess.visit = visits ∧ P a r'

variable {m : Flat} {r : Registers} {u v visits : List Visit}
  {P : α → Registers → Prop} {Q : β → Registers → Prop}

/-- The rest has to be right on any memory, because the visits do not depend on what was found. -/
theorem Makes.bind {s : Micro α} {f : α → Micro β} (h : s.Makes m r u P)
    (hnext : ∀ a r' m', P a r' → (f a).Makes m' r' v Q) :
    (s >>= f).Makes m r (u ++ v) Q := by
  obtain ⟨a, r', hresult, hvisits, hP⟩ := h
  -- the second part finds the memory as the visits of the first have left it
  obtain ⟨b, r'', hresult', hvisits', hQ⟩ :=
    hnext a r' (((s r).accesses m).foldl Flat.replay m) hP
  refine ⟨b, r'', ?_, ?_, hQ⟩
  · refine (Traffic.result_bind (s r) _ m).trans ?_
    rw [hresult]
    exact hresult'
  · refine (congrArg _ (Traffic.accesses_bind (s r) _ m)).trans ?_
    rw [hresult, List.map_append, hvisits]
    exact congrArg (u ++ ·) hvisits'

/-- Whatever makes no visit is passed over, and only what it leaves is handed on. -/
theorem Makes.after {s : Micro α} {f : α → Micro β} (h : s.Makes m r [] P)
    (hnext : ∀ a r' m', P a r' → (f a).Makes m' r' visits Q) : (s >>= f).Makes m r visits Q :=
  h.bind hnext

/-- What is known at the end may be weakened. -/
theorem Makes.imp {P' : α → Registers → Prop} {s : Micro α} (h : s.Makes m r visits P)
    (hP : ∀ a r', P a r' → P' a r') : s.Makes m r visits P' := by
  obtain ⟨a, r', hresult, hvisits, ha⟩ := h
  exact ⟨a, r', hresult, hvisits, hP a r' ha⟩

theorem Makes.of_eq {visits' : List Visit} {s : Micro α} (h : s.Makes m r visits P)
    (heq : visits = visits') : s.Makes m r visits' P :=
  heq ▸ h

theorem makes_pure {a : α} (h : P a r) : (pure a : Micro α).Makes m r [] P :=
  ⟨a, r, rfl, rfl, h⟩

/-- What follows a look at the registers is still on the same memory. -/
theorem makes_of_get {f : Registers → Micro β} (h : (f r).Makes m r visits Q) :
    (get >>= f).Makes m r visits Q :=
  h

theorem makes_set (r' : Registers) : (set r' : Micro Unit).Makes m r [] fun _ r'' => r'' = r' :=
  ⟨(), r', rfl, rfl, rfl⟩

theorem makes_modify (f : Registers → Registers) :
    (modify f : Micro Unit).Makes m r [] fun _ r' => r' = f r :=
  ⟨(), f r, rfl, rfl, rfl⟩

/-- A read is one visit, and the stack pointer stays. -/
theorem makes_readByte (address : UInt16) :
    (readByte address).Makes m r [.reads address] fun _ r' => r'.sp = r.sp :=
  ⟨_, _, rfl, rfl, rfl⟩

theorem makes_writeByte (address : UInt16) (v : UInt8) :
    (writeByte address v).Makes m r [.writes address] fun _ r' => r'.sp = r.sp :=
  ⟨_, _, rfl, rfl, rfl⟩

end Micro

end Breadboard
