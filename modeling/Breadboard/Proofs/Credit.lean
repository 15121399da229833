import Mathlib.Algebra.Group.Int.Defs
import Mathlib.Algebra.Group.Nat.Defs
import Breadboard.Cpu.Bench
import Breadboard.Pacing.Pace
import Breadboard.Proofs.Costs
import Breadboard.Proofs.Oblivious
/-
  How far a processor can overdraw its credit.

  Two sides share a budget.  The thread that executes looks at the credit, executes an instruction if it
  has seen any, and charges the cost afterwards; the clock grants quanta.  A grant may come at any moment,
  also between the look and the charge.  `Ledger` is such a processor together with the totals of what has
  been granted and of what has been charged, which no side looks at.

  `Balanced` is the invariant.  The thread charges at most 7 cycles, and only after it has seen a credit
  of at least 1, which a grant never takes away; so the credit never falls below -6.  A charge moves cycles
  from the credit to what is spent.  A grant adds its quantum to what is left of the credit, which is the
  debt, so nothing is ever added for free; and if there was no credit left to be dropped, nothing is lost.
-/
namespace Breadboard

/-! ## Signed words -/

/-- Numbers that a signed word can hold come back from it, which is what keeps 64-bit arithmetic and whole
    numbers together here. -/
theorem bmod_word {n : Int} (hle : -2 ^ 63 ≤ n) (hlt : n < 2 ^ 63) : n.bmod (2 ^ 64) = n :=
  Int.bmod_eq_of_le (by simpa using hle) (by simpa using hlt)

namespace Budget

/-- The credit after a grant; the sum is always one that the word can hold. -/
theorem toInt_credit_grant (b : Budget) {quantum : Int64} (hquantum : 1 ≤ quantum.toInt) :
    (b.grant quantum).credit.toInt = quantum.toInt + min b.credit.toInt 0 := by
  have hlt := quantum.toInt_lt
  have hle := b.credit.le_toInt
  simp only [grant, Int64.toInt_add]
  -- only a debt is carried over; what is left of the credit is dropped
  by_cases hdebt : b.credit < 0
  · have hneg : b.credit.toInt < 0 := Int64.lt_iff_toInt_lt.mp hdebt
    rw [if_pos hdebt, bmod_word (by omega) (by omega)]
    omega
  · have hnonneg : ¬ b.credit.toInt < 0 := fun h => hdebt (Int64.lt_iff_toInt_lt.mpr h)
    rw [if_neg hdebt, Int64.toInt_zero, bmod_word (by omega) (by omega)]
    omega

/-- The credit after the charge for an instruction that was paid for.  It cannot leave the word, because it
    was at least 1 before. -/
theorem toInt_credit_charge (b : Budget) {cycles : Nat} (hcredit : 1 ≤ b.credit.toInt)
    (hcycles : cycles ≤ 7) : (b.charge cycles).credit.toInt = b.credit.toInt - cycles := by
  have hlt := b.credit.toInt_lt
  simp only [charge, Int64.toInt_sub, Int64.toInt_ofNat_of_lt (show cycles < 2 ^ 63 by omega)]
  exact bmod_word (by omega) (by omega)

/-- The look at the credit, as a comparison of whole numbers. -/
theorem affordable_iff (b : Budget) : b.affordable = true ↔ 1 ≤ b.credit.toInt := by
  rw [affordable, decide_eq_true_eq, Int64.le_iff_toInt_le, Int64.toInt_one]

end Budget

/-! ## The pace -/

namespace Pace

/-- A tick's share of the cycles of a second, as a plain number. -/
def share (p : Pace) : Nat :=
  p.targetHz.toNat / max p.ticksPerSecond.toNat 1

/-- A tick's share is never more than the cycles of a second, so it fits into a word without a sign. -/
theorem share_lt (p : Pace) : p.share < 2 ^ 64 :=
  Nat.lt_of_le_of_lt (Nat.div_le_self ..) p.targetHz.toNat_lt

/-- As a signed word, a share that is too large is not positive. -/
theorem quantum_pos_iff (p : Pace) : ¬ p.quantum ≤ 0 ↔ 1 ≤ p.share ∧ p.share < 2 ^ 63 := by
  have hshare := p.share_lt
  have hquantum : p.quantum.toInt = (p.share : Int).bmod (2 ^ 64) := Int64.toInt_ofNat'
  rw [Int64.le_iff_toInt_le, Int64.toInt_zero, hquantum]
  by_cases hlarge : p.share < 2 ^ 63
  · rw [bmod_word (by omega) (by omega)]
    omega
  · -- the share fits into the word without a sign, so with the sign it is below zero
    have hwrapped : (p.share : Int).bmod (2 ^ 64) = p.share - 2 ^ 64 := by
      rw [← Int.sub_bmod_right, bmod_word (by omega) (by omega)]
      rfl
    rw [hwrapped]
    omega

/-- A share that is small enough is the quantum as it is. -/
theorem toInt_quantum (p : Pace) (h : p.share < 2 ^ 63) : p.quantum.toInt = p.share :=
  Int64.toInt_ofNat_of_lt h

/-- A pace is accepted if a tick's share is a positive signed word, and then that is its quantum. -/
theorem start_eq_ok_iff (p : Pace) (j : Journal) (quantum : Int64) :
    (p.start.run j).1 = .ok quantum ↔
      (1 ≤ p.share ∧ p.share < 2 ^ 63) ∧ quantum.toInt = p.share := by
  rw [← p.quantum_pos_iff]
  by_cases hrefused : p.quantum ≤ 0
  · have hstart : (p.start.run j).1 = .error (.grantsNothing p.targetHz p.ticksPerSecond) := by
      rw [start, if_pos hrefused]
      rfl
    rw [hstart]
    exact ⟨nofun, fun h => absurd hrefused h.1⟩
  · have hstart : (p.start.run j).1 = .ok p.quantum := by
      rw [start, if_neg hrefused]
      rfl
    have hshare := p.toInt_quantum (p.quantum_pos_iff.mp hrefused).2
    rw [hstart, ← hshare]
    constructor
    · intro h
      exact ⟨hrefused, congrArg Int64.toInt (Except.ok.inj h).symm⟩
    · rintro ⟨_, h⟩
      rw [Int64.toInt_inj.mp h]

end Pace

/-! ## The account while a processor works -/

namespace Processor

variable {μ α : Type} [Memory μ] [Thrifty μ]

/-- The budget at a processor's panel, for short. -/
abbrev budget (p : Processor μ) : Budget :=
  p.world.panel.budget

/-- A microprogram leaves the account alone, whatever its traffic does to the memory. -/
theorem account_perform (p : Processor μ) (m : Micro α) :
    p.budget.SameAccount (p.perform m).2.budget :=
  Thrifty.play (m p.registers) p.world

/-- Powering up leaves the account alone: what is cleared are the requests. -/
theorem account_poweredUp (p : Processor μ) : p.budget.SameAccount p.poweredUp.budget :=
  account_perform p.cleared bootstrap

omit [Memory μ] [Thrifty μ] in
theorem account_answer (p : Processor μ) (servicing : Option Interrupt) :
    p.budget.SameAccount (p.answer servicing).budget := by
  cases servicing <;> exact .refl _

/-- Executing an instruction leaves the account alone until it is charged, and a failed one for good. -/
theorem account_performed (p : Processor μ) (i : Instruction) (servicing : Option Interrupt)
    (start : UInt16) : p.budget.SameAccount (p.performed i servicing start).2.budget := by
  have hperform := p.account_perform (i.execute servicing start)
  unfold performed
  rcases hrun : p.perform (i.execute servicing start) with ⟨fault | extra, q⟩
  · rw [hrun] at hperform
    exact hperform
  · rw [hrun] at hperform
    exact hperform.trans (q.account_answer servicing)

/-- Until it charges, a processor leaves the account alone.  So the credit that was seen before is still
    there when the cost is known. -/
theorem account_worked (p : Processor μ) : p.budget.SameAccount p.worked.2.budget := by
  unfold worked
  split
  · exact p.account_poweredUp
  · cases p.world.panel.requests.next? with
    | some interrupt => exact p.account_performed _ _ _
    | none =>
      have hfetch : p.budget.SameAccount p.fetchOpcode.2.budget :=
        Thrifty.read p.registers.pc p.world
      exact hfetch.trans (account_performed _ _ _ _)

end Processor

/-! ## The ledger -/

/-- A number of cycles that a clock may grant; a clock that would grant none is not started. -/
structure Quantum where
  cycles : Int64
  positive : 1 ≤ cycles.toInt

/-- Where the thread that executes is, between its look at the credit and its charge. -/
inductive Thread where
  /-- It is about to look at the credit. -/
  | looking
  /-- It has seen credit, and is about to execute. -/
  | cleared
  /-- It has executed, and is about to charge. -/
  | owing (cycles : Nat)

/-- What one of the two sides does next, or somebody who requests an interrupt. -/
inductive Move where
  | look
  | execute
  | settle
  | grant (quantum : Quantum)
  | raise (kind : Request)

/-- A processor, the thread that drives it, and the totals.  The totals are for the proof: no move depends
    on them. -/
structure Ledger (μ : Type) where
  processor : Processor μ
  thread : Thread := .looking
  /-- All quanta together. -/
  granted : Int := 0
  /-- All charges together. -/
  spent : Nat := 0
  /-- Whether every grant so far came when there was no credit left. -/
  drained : Bool := true

namespace Ledger

variable {μ : Type} [Memory μ]

/-- The credit, as a number that may be below zero. -/
def credit (s : Ledger μ) : Int :=
  s.processor.budget.credit.toInt

/-- A fresh budget at the panel of a processor, and a thread that has not looked yet. -/
def opened (p : Processor μ) : Ledger μ where
  processor := p.onPanel fun panel => { panel with budget := {} }

/-- A move that is not the thread's turn changes nothing.  `execute` and `settle` are the two halves of a
    cycle of the processor (`settle_execute`); after a fault there is nothing to charge. -/
def make (s : Ledger μ) : Move → Ledger μ
  | .look =>
    match s.thread with
    | .looking => if s.processor.budget.affordable then { s with thread := .cleared } else s
    | _ => s
  | .execute =>
    match s.thread with
    | .cleared =>
      match s.processor.worked with
      | (.ok cycles, p) => { s with processor := p, thread := .owing cycles }
      | (.error _, p) => { s with processor := p, thread := .looking }
    | _ => s
  | .settle =>
    match s.thread with
    | .owing cycles =>
      { s with
        processor := s.processor.charge cycles, thread := .looking, spent := s.spent + cycles }
    | _ => s
  | .grant quantum =>
    { s with
      processor := s.processor.onPanel (·.grant quantum.cycles)
      granted := s.granted + quantum.cycles.toInt
      drained := s.drained && s.credit ≤ 0 }
  | .raise kind => { s with processor := s.processor.onPanel (·.raise kind) }

/-- With nothing in between, the two moves of a thread that has seen credit are one cycle of its processor.
    The thread is back where it began, and what the cycle was charged is added to what has been spent; a
    fault is charged nothing. -/
theorem settle_execute (s : Ledger μ) (hcleared : s.thread = .cleared) (j : Journal) :
    (s.make .execute).make .settle = { s with
      processor := (s.processor.cycle.run j).1.2
      thread := .looking
      spent := s.spent + (s.processor.cycle.run j).1.1.toOption.getD 0 } := by
  obtain ⟨p, thread, granted, spent, drained⟩ := s
  obtain rfl : thread = .cleared := hcleared
  dsimp only
  rw [p.fst_cycle j, p.cycled_eq]
  simp only [make]
  rcases p.worked with ⟨fault | cycles, q⟩ <;> rfl

/-- What keeps the credit from running away.  The first three are about the race between the two sides, the
    others about the totals. -/
structure Balanced (s : Ledger μ) : Prop where
  debt : -6 ≤ s.credit
  /-- A grant may come after the look, but it never takes the credit back. -/
  cleared : s.thread = .cleared → 1 ≤ s.credit
  /-- The same holds until the charge, which is for one instruction. -/
  owing : ∀ cycles, s.thread = .owing cycles → 1 ≤ s.credit ∧ cycles ≤ 7
  bounded : s.spent + s.credit ≤ s.granted
  exact : s.drained = true → s.spent + s.credit = s.granted
  counted : s.processor.budget.executed = UInt64.ofNat s.spent

omit [Memory μ] in
/-- At first nothing has been granted or spent, and the totals agree. -/
theorem balanced_opened (p : Processor μ) : Balanced (opened p) where
  debt := show (-6 : Int) ≤ 0 by decide
  cleared := nofun
  owing := nofun
  bounded := Int.le_refl 0
  exact _ := rfl
  counted := rfl

/-- A look changes nothing but the thread, which goes on only if it has seen credit. -/
theorem Balanced.look {s : Ledger μ} (h : s.Balanced) : (s.make .look).Balanced := by
  obtain ⟨p, thread, granted, spent, drained⟩ := s
  cases thread with
  | cleared => exact h
  | owing cycles => exact h
  | looking =>
    simp only [make]
    by_cases hseen : p.budget.affordable = true
    · rw [if_pos hseen]
      exact { h with
        cleared := fun _ => p.budget.affordable_iff.mp hseen
        owing := nofun }
    · rw [if_neg hseen]
      exact h

omit [Memory μ] in
/-- Only the charge and grants change the account, so what holds of the totals still holds after anything
    else. -/
theorem Balanced.of_account {s : Ledger μ} (h : s.Balanced) {p : Processor μ}
    (haccount : s.processor.budget.SameAccount p.budget) :
    Balanced { s with processor := p } := by
  have hcredit : credit { s with processor := p } = s.credit :=
    congrArg Int64.toInt haccount.credit
  exact {
    debt := hcredit ▸ h.debt
    cleared := hcredit ▸ h.cleared
    owing := hcredit ▸ h.owing
    bounded := hcredit ▸ h.bounded
    exact := hcredit ▸ h.exact
    counted := haccount.executed.trans h.counted }

/-- Executing changes neither the credit nor the totals; it settles how much is owed, and that is at most
    7. -/
theorem Balanced.execute [Thrifty μ] {s : Ledger μ} (h : s.Balanced) :
    (s.make .execute).Balanced := by
  obtain ⟨p, thread, granted, spent, drained⟩ := s
  cases thread with
  | looking => exact h
  | owing cycles => exact h
  | cleared =>
    have hcredit := h.cleared rfl
    have hcost : ∀ cycles, p.worked.1 = .ok cycles → cycles ≤ 7 := fun _ => p.cost_le
    -- executing does not charge, so the credit that was seen is still there when the cost is known
    have hafter := h.of_account p.account_worked
    simp only [make]
    rcases hworked : p.worked with ⟨fault | cycles, q⟩
    · rw [hworked] at hafter
      exact { hafter with cleared := nofun, owing := nofun }
    · rw [hworked] at hafter hcost
      have hseen : 1 ≤ q.budget.credit.toInt := hafter.cleared rfl
      exact { hafter with
        cleared := nofun
        owing := fun _ howing => by
          obtain rfl := Thread.owing.inj howing
          exact ⟨hseen, hcost _ rfl⟩ }

/-- The charge moves what is owed from the credit to what is spent, so their sum stays.  The credit was at
    least 1, so it falls to -6 at the lowest. -/
theorem Balanced.settle {s : Ledger μ} (h : s.Balanced) : (s.make .settle).Balanced := by
  obtain ⟨p, thread, granted, spent, drained⟩ := s
  cases thread with
  | looking => exact h
  | cleared => exact h
  | owing cycles =>
    obtain ⟨hseen, hcycles⟩ := h.owing cycles rfl
    have hbounded := h.bounded
    have hexact := h.exact
    have hcharge : credit (make ⟨p, .owing cycles, granted, spent, drained⟩ .settle) =
        p.budget.credit.toInt - cycles :=
      p.budget.toInt_credit_charge hseen hcycles
    simp only [credit] at hseen hbounded hexact
    refine ⟨?_, nofun, nofun, ?_, fun hdrained => ?_, ?_⟩
    · rw [hcharge]
      omega
    · rw [hcharge]
      show ((spent + cycles : Nat) : Int) + _ ≤ granted
      omega
    · rw [hcharge]
      show ((spent + cycles : Nat) : Int) + _ = granted
      have hbefore := hexact hdrained
      omega
    · show p.budget.executed + UInt64.ofNat cycles = UInt64.ofNat (spent + cycles)
      rw [UInt64.ofNat_add]
      exact congrArg (· + _) h.counted

/-- A grant adds the quantum to a debt, or puts it in place of what was left.  In the second case the sum
    falls behind what has been granted, unless nothing was left. -/
theorem Balanced.grant {s : Ledger μ} (h : s.Balanced) (quantum : Quantum) :
    (s.make (.grant quantum)).Balanced := by
  have hpositive := quantum.positive
  have hgrant : credit (s.make (.grant quantum)) = quantum.cycles.toInt + min s.credit 0 :=
    s.processor.budget.toInt_credit_grant hpositive
  have hdebt := h.debt
  have hbounded := h.bounded
  refine ⟨?_, fun hthread => ?_, fun cycles hthread => ?_, ?_, fun hdrained => ?_, h.counted⟩
  · rw [hgrant]
    omega
  · -- a grant between the look and the execution: there was credit, and now it is the quantum
    have hseen := h.cleared hthread
    rw [hgrant]
    omega
  · obtain ⟨hseen, hcycles⟩ := h.owing cycles hthread
    rw [hgrant]
    exact ⟨by omega, hcycles⟩
  · rw [hgrant]
    show (s.spent : Int) + _ ≤ s.granted + quantum.cycles.toInt
    omega
  · -- with no credit left the minimum is the credit itself, so nothing is dropped
    obtain ⟨hbefore, hempty⟩ : s.drained = true ∧ s.credit ≤ 0 := by
      simpa [make] using hdrained
    have hexact := h.exact hbefore
    rw [hgrant]
    show (s.spent : Int) + _ = s.granted + quantum.cycles.toInt
    omega

/-- Every move keeps the balance, whoever makes it and whenever it comes. -/
theorem balanced_make [Thrifty μ] (s : Ledger μ) (h : s.Balanced) (move : Move) :
    (s.make move).Balanced := by
  cases move with
  | look => exact h.look
  | execute => exact h.execute
  | settle => exact h.settle
  | grant quantum => exact h.grant quantum
  | raise kind => exact h.of_account (.refl _)

/-- A run keeps the balance.  By induction on the moves, from the left, as they are made. -/
theorem balanced_moves [Thrifty μ] (moves : List Move) (s : Ledger μ) (h : s.Balanced) :
    (moves.foldl make s).Balanced := by
  induction moves generalizing s with
  | nil => exact h
  | cons move moves ih => exact ih (s.make move) (s.balanced_make h move)

/-- However the two sides take turns, the credit stays above -7; what has been spent and what is left of
    the credit are never more than has been granted, and are exactly as much if no credit was ever
    dropped.  And every quantum that a pace has leads to a grant which the credit can hold. -/
theorem spending_bounded [Thrifty μ] (p : Processor μ) (moves : List Move) :
    let s := moves.foldl make (opened p)
    (-6 ≤ s.credit ∧ s.spent + s.credit ≤ s.granted ∧ s.spent ≤ s.granted + 6 ∧
      (s.drained = true → s.spent + s.credit = s.granted ∧
        (s.credit ≤ 0 → s.granted ≤ s.spent ∧ s.spent ≤ s.granted + 6)) ∧
      s.processor.budget.executed = UInt64.ofNat s.spent) ∧
    ∀ (pace : Pace) (j : Journal),
      ((∃ quantum, (pace.start.run j).1 = .ok quantum) ↔ 1 ≤ pace.share ∧ pace.share < 2 ^ 63) ∧
      ∀ quantum, (pace.start.run j).1 = .ok quantum → ∀ b : Budget,
        -2 ^ 63 ≤ quantum.toInt + min b.credit.toInt 0 ∧
        quantum.toInt + min b.credit.toInt 0 < 2 ^ 63 ∧
        (b.grant quantum).credit.toInt = quantum.toInt + min b.credit.toInt 0 := by
  intro s
  have hbalanced : s.Balanced := balanced_moves moves _ (balanced_opened p)
  have hdebt := hbalanced.debt
  have hbounded := hbalanced.bounded
  refine ⟨⟨hdebt, hbounded, by omega, fun hdrained => ?_, hbalanced.counted⟩, fun pace j => ⟨?_, ?_⟩⟩
  · have hexact := hbalanced.exact hdrained
    exact ⟨hexact, fun hempty => by omega⟩
  · constructor
    · rintro ⟨quantum, hstart⟩
      exact ((pace.start_eq_ok_iff j quantum).mp hstart).1
    · intro hshare
      exact ⟨pace.quantum, (pace.start_eq_ok_iff j _).mpr ⟨hshare, pace.toInt_quantum hshare.2⟩⟩
  · intro quantum hstart b
    obtain ⟨⟨hpositive, hlt⟩, hshare⟩ := (pace.start_eq_ok_iff j quantum).mp hstart
    have hle := b.credit.le_toInt
    exact ⟨by omega, by omega, b.toInt_credit_grant (by omega)⟩

/-- A grant between the look and the charge, on a blank memory: the credit that was seen is replaced before
    it is spent. -/
theorem spending_bounded_racing :
    let p : Processor Flat := { world := { memory := {} } }
    let s := [.grant ⟨1, by decide⟩, .look, .grant ⟨5, by decide⟩, .execute, .settle].foldl make (opened p)
    s.spent + s.credit ≤ s.granted ∧ s.spent ≤ s.granted + 6 ∧ -6 ≤ s.credit := by
  intro p s
  obtain ⟨⟨hdebt, hbounded, hover, _⟩, _⟩ := spending_bounded p
    [.grant ⟨1, by decide⟩, .look, .grant ⟨5, by decide⟩, .execute, .settle]
  exact ⟨hbounded, hover, hdebt⟩

end Ledger

end Breadboard
