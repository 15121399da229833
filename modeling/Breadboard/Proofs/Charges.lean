import Mathlib.Algebra.GroupWithZero.Nat
import Breadboard.Proofs.Unreported
import Breadboard.Proofs.Credit
import Breadboard.Proofs.Flow
import Breadboard.Proofs.Timeless
/-
  What a cycle costs, to the cycle, and where the cost is entered.

  `Processor.due` is the price of what a processor does next, from the opcode table and the state it is in.
  A cycle that succeeds returns that price and nothing else, and enters it in three places: the counter and
  the count of executed cycles go up by it, and the credit goes down.  A cycle that fails enters nothing.

  Over any sequence of calls the entries add up (`Accounts`): the counter has counted the sum of the prices,
  and what has been taken away from the count of executed cycles is what is missing there.
-/
namespace Breadboard

/-! ## Sums -/

/-- What is charged for a cycle that has come out like this: its price, or nothing if it has failed. -/
def chargeOf : Except Fault Nat → Nat
  | .ok cycles => cycles
  | .error _ => 0

namespace Transcript

/-- What has been charged for all cycles of a transcript, as a number that does not wrap. -/
def charged (t : Transcript) : Nat :=
  (t.outcomes.map chargeOf).sum

/-- What has been taken from the count of executed cycles, all in all. -/
def takings (t : Transcript) : Nat :=
  (t.taken.map UInt64.toNat).sum

/-- The charges of two transcripts add up. -/
theorem charged_append (t u : Transcript) : (t.append u).charged = t.charged + u.charged := by
  simp only [charged, append, List.map_append, List.sum_append]

theorem takings_append (t u : Transcript) : (t.append u).takings = t.takings + u.takings := by
  simp only [takings, append, List.map_append, List.sum_append]

end Transcript

/-! ## The price -/

/-- Nothing is charged on top without the mark, and never more than one cycle. -/
theorem Instruction.surcharge_le (i : Instruction) (r : Registers) (m : Flat) :
    i.surcharge r m ≤ i.pageCross.toNat := by
  unfold surcharge
  cases i.pageCross with
  | false => simp
  | true =>
    split
    · exact Nat.le_refl 1
    · exact Nat.zero_le 1

namespace Processor

section

variable (p : Processor Flat)

/-- The price of what comes next: 7 cycles for a service, and otherwise what the descriptor says, with one
    cycle more if the instruction ends up in another page. -/
def due : Nat :=
  if p.world.panel.requests = {} then p.current.cycles + p.current.surcharge p.registers p.ram else 7

/-- A cycle that does not meet an opcode without a meaning succeeds at the price that was due. -/
theorem cycled_ok (h : ¬p.Lost) : p.cycled.1 = .ok p.due := by
  unfold due
  by_cases hquiet : p.world.panel.requests = {}
  · rw [if_pos hquiet]
    have hdocumented : ¬Instruction.Undocumented (p.ram.read p.registers.pc) :=
      fun hopcode => h ⟨hquiet, hopcode⟩
    exact (cycled_lands hquiet hdocumented).1
  · rw [if_neg hquiet]
    -- something is pending: a reset, or else an interrupt that is next
    by_cases hreset : p.world.panel.requests.reset = true
    · unfold cycled
      rw [if_pos hreset]
      rfl
    · cases hnext : p.world.panel.requests.next? with
      | none => exact absurd (Requests.eq_none hreset hnext) hquiet
      | some i =>
        have hoff : p.world.panel.requests.reset = false := by simpa using hreset
        rw [cycled_interrupted hoff hnext]

/-- The price is between 2 and 7 cycles, by the rows of the table and the one cycle that may come on top. -/
theorem due_bounds (h : ¬p.Lost) : 2 ≤ p.due ∧ p.due ≤ 7 := by
  have hrows : ∀ i ∈ Instruction.documented,
      2 ≤ i.cycles ∧ i.cycles + i.pageCross.toNat ≤ 7 := by decide +kernel
  unfold due
  by_cases hquiet : p.world.panel.requests = {}
  · rw [if_pos hquiet]
    have hmem : p.current ∈ Instruction.documented :=
      Instruction.decode_mem fun hopcode => h ⟨hquiet, hopcode⟩
    obtain ⟨hleast, hmost⟩ := hrows _ hmem
    have hextra := p.current.surcharge_le p.registers p.ram
    omega
  · rw [if_neg hquiet]
    omega

/-- A branch costs 2 cycles, and one more if it is taken to another page. -/
theorem due_of_branch (h : ¬p.Lost) (hquiet : p.world.panel.requests = {})
    (hbranch : p.current.mnemonic.handler = .branch) :
    p.due = if p.current.leaps p.registers p.ram then 3 else 2 := by
  have hmem : p.current ∈ Instruction.documented :=
    Instruction.decode_mem fun hopcode => h ⟨hquiet, hopcode⟩
  have hhandler : p.current.handler = .branch := by
    rw [← hbranch, (Instruction.fits_documented _ hmem).serves]
  obtain ⟨hmode, hcycles, hmark⟩ := Instruction.branch_documented _ hmem hhandler
  have hstrays : p.current.mode.strays p.registers p.ram = false := by
    rw [hmode]
    rfl
  unfold due Instruction.surcharge
  rw [if_pos hquiet, hcycles, hmark, hstrays, Bool.true_and, Bool.false_or]
  split <;> rfl

end

/-! ## The entries -/

section

variable {μ : Type} [Memory μ] [Thrifty μ]

/-- So many cycles have been entered, in all three places. -/
structure Entered (p q : Processor μ) (cycles : Nat) : Prop where
  counter : q.registers.cycles = p.registers.cycles + UInt64.ofNat cycles
  executed : q.budget.executed = p.budget.executed + UInt64.ofNat cycles
  credit : q.budget.credit = p.budget.credit - Int64.ofNat cycles

/-- Whatever comes of a cycle, its charge has been entered in all three places. -/
theorem entered_cycled (p : Processor μ) : Entered p p.cycled.2 (chargeOf p.cycled.1) := by
  have hcounter := p.cycles_worked
  obtain ⟨hcredit, hexecuted⟩ := p.account_worked
  rw [cycled_eq]
  -- until it charges, a cycle has entered nothing
  rcases hrun : p.worked with ⟨fault | cycles, q⟩
  · rw [hrun] at hcounter hcredit hexecuted
    refine ⟨hcounter.trans (UInt64.add_zero _).symm, hexecuted.trans (UInt64.add_zero _).symm, ?_⟩
    exact hcredit.trans (Int64.sub_zero _).symm
  · rw [hrun] at hcounter hcredit hexecuted
    refine ⟨congrArg (· + UInt64.ofNat cycles) hcounter, ?_, ?_⟩
    · exact congrArg (· + UInt64.ofNat cycles) hexecuted
    · exact congrArg (· - Int64.ofNat cycles) hcredit

/-- The entries of a sequence of calls.  What is no longer among the executed cycles has been taken. -/
structure Accounts (p : Processor μ) (x : Transcript × Processor μ) : Prop where
  counter : x.2.registers.cycles = p.registers.cycles + UInt64.ofNat x.1.charged
  executed : x.2.budget.executed + UInt64.ofNat x.1.takings =
    p.budget.executed + UInt64.ofNat x.1.charged

/-- The accounts of one call.  Only a cycle charges, and only `takeExecuted` takes. -/
theorem accounts_served (p : Processor μ) (call : Call) : Accounts p (p.served call) := by
  cases call with
  | request kind => exact ⟨(UInt64.add_zero _).symm, rfl⟩
  | grant quantum => exact ⟨(UInt64.add_zero _).symm, rfl⟩
  | takeExecuted =>
    refine ⟨(UInt64.add_zero _).symm, ?_⟩
    -- all that was counted has been taken, and nothing is left
    show 0 + UInt64.ofNat (p.budget.executed.toNat + 0) = p.budget.executed + 0
    rw [Nat.add_zero, UInt64.ofNat_toNat, UInt64.add_comm]
  | cycle =>
    obtain ⟨hcounter, hexecuted, -⟩ := p.entered_cycled
    have hcharged : (p.served .cycle).1.charged = chargeOf p.cycled.1 := Nat.add_zero _
    constructor
    · rw [hcharged]
      exact hcounter
    · rw [hcharged, ← hexecuted]
      exact UInt64.add_zero _

/-- The accounts of any sequence of calls, by induction: the sums of the first call and of the others are
    the sums of all. -/
theorem accounts_servedAll (calls : List Call) (p : Processor μ) :
    Accounts p (p.servedAll calls) := by
  induction calls generalizing p with
  | nil => exact ⟨(UInt64.add_zero _).symm, rfl⟩
  | cons call calls ih =>
    obtain ⟨hcounter, hexecuted⟩ := p.accounts_served call
    obtain ⟨hcounters, hexecuteds⟩ := ih (p.served call).2
    unfold servedAll
    constructor
    · rw [Transcript.charged_append, UInt64.ofNat_add, ← UInt64.add_assoc, ← hcounter]
      exact hcounters
    · rw [Transcript.charged_append, Transcript.takings_append, UInt64.ofNat_add, UInt64.ofNat_add,
        UInt64.add_comm (UInt64.ofNat _), ← UInt64.add_assoc]
      grind

end

/-! ## The charge -/

/-- A cycle that is charged as it should be. -/
structure Settles (p : Processor Flat) (result : Except Fault Nat × Processor Flat) : Prop where
  /-- Unless the opcode has no meaning, there is a charge. -/
  succeeds : ¬p.Lost → result.1 = .ok p.due
  price : ∀ cycles, result.1 = .ok cycles → cycles = p.due ∧ 2 ≤ cycles ∧ cycles ≤ 7
  branch : ∀ cycles, result.1 = .ok cycles → p.world.panel.requests = {} →
    p.current.mnemonic.condition? ≠ none →
      cycles = if p.current.leaps p.registers p.ram then 3 else 2
  entered : ∀ cycles, result.1 = .ok cycles → Entered p result.2 cycles
  /-- A fault costs nothing. -/
  free : ∀ fault, result.1 = .error fault →
    result.2.registers.cycles = p.registers.cycles ∧ p.budget.SameAccount result.2.budget

/-- Every cycle is charged as it should be. -/
theorem settles_cycled (p : Processor Flat) : Settles p p.cycled := by
  have hentered := p.entered_cycled
  -- a cycle at an opcode without a meaning fails and charges nothing, and any other succeeds
  by_cases hlost : p.Lost
  · have hfails := p.cycled_of_lost hlost
    have hnever : ∀ cycles, p.cycled.1 ≠ .ok cycles := by
      intro cycles hok
      rw [hfails] at hok
      cases hok
    constructor
    case succeeds =>
      intro h
      exact absurd hlost h
    case price | branch | entered =>
      intro cycles hok
      exact absurd hok (hnever cycles)
    case free =>
      intro fault hfault
      obtain ⟨hcounter, hexecuted, hcredit⟩ := hentered
      rw [hfault] at hcounter hexecuted hcredit
      refine ⟨hcounter.trans (UInt64.add_zero _), ?_, hexecuted.trans (UInt64.add_zero _)⟩
      exact hcredit.trans (Int64.sub_zero _)
  · have hok := p.cycled_ok hlost
    have hdue : ∀ cycles, p.cycled.1 = .ok cycles → cycles = p.due := by
      intro cycles h
      rw [hok] at h
      exact (Except.ok.inj h).symm
    constructor
    case succeeds => exact fun _ => hok
    case price =>
      intro cycles h
      rw [hdue cycles h]
      exact ⟨rfl, p.due_bounds hlost⟩
    case branch =>
      intro cycles h hquiet hcondition
      have hbranch : p.current.mnemonic.handler = .branch :=
        Decidable.byContradiction fun hne => hcondition (Mnemonic.condition?_eq_none hne)
      rw [hdue cycles h]
      exact p.due_of_branch hlost hquiet hbranch
    case entered =>
      intro cycles h
      rw [h] at hentered
      exact hentered
    case free =>
      intro fault h
      rw [hok] at h
      cases h

/-- Every cycle is charged exactly, and the charges add up.

    In every state and on every flat memory, a cycle that succeeds returns 7 for a service, and for an
    instruction the cycles of its descriptor, with one more exactly if the descriptor has the mark and an
    indexed operand, or a taken branch, ends up in another page; that is between 2 and 7.  As much is added
    to the counter and to the executed cycles and taken from the credit, and a cycle that fails leaves all
    three alone.

    A new processor that is asked for cycles, given credit and relieved of its count in any order has a
    counter that is the sum of all charges, and that is the executed cycles and everything that has been
    taken of them, modulo `2 ^ 64`. -/
theorem charges_exactly (p : Processor Flat) (j : Journal) :
    Settles p (p.cycle.run j).1 ∧
    ∀ (memory : Flat) (calls : List Call) (k : Journal),
      let x := ((({ world := { memory } } : Processor Flat).serveAll calls).run k).1
      x.2.registers.cycles = UInt64.ofNat x.1.charged ∧
        x.2.registers.cycles = x.2.budget.executed + UInt64.ofNat x.1.takings := by
  refine ⟨?_, fun memory calls k => ?_⟩
  · rw [p.fst_cycle j]
    exact p.settles_cycled
  · obtain ⟨hcounter, hexecuted⟩ := accounts_servedAll calls { world := { memory } }
    rw [fst_serveAll]
    dsimp only at hcounter hexecuted ⊢
    rw [UInt64.zero_add] at hcounter
    refine ⟨hcounter, ?_⟩
    rw [hexecuted, UInt64.zero_add]
    exact hcounter

/-- A load through a pointer, plus Y, that ends up in the page behind that of the pointer. -/
def reaching : Processor Flat where
  registers := { y := 1, pc := 0x0400 }
  world := { memory := (({} : Flat).storeAt 0x0400 [0xB1, 0x10]).storeAt 0x10 [0xFF, 0x12] }

/-- The load takes 5 cycles by its descriptor and one more for the page. -/
theorem charges_exactly_reaching :
    (reaching.cycle.run {}).1.1 = .ok 6 ∧ Entered reaching (reaching.cycle.run {}).1.2 6 := by
  obtain ⟨hsettles, -⟩ := charges_exactly reaching {}
  have hlost : ¬reaching.Lost := by decide +kernel
  have hdue : reaching.due = 6 := by decide +kernel
  have hok := hsettles.succeeds hlost
  rw [hdue] at hok
  exact ⟨hok, hsettles.entered 6 hok⟩

end Processor

end Breadboard
