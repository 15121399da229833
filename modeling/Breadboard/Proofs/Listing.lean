import Mathlib.Data.Nat.Digits.Defs
import Breadboard.Proofs.Sums
/-
  Programs in memory, and runs that go straight through them.

  A stretch of memory is so many bytes from some address on, and it may well go around the end of the address
  space.  A program is there when the stretch at the program counter holds its bytes, and it stays there as
  long as nothing is written on it; two stretches that have no address in common are `Apart`.

  Most instructions are plain: they have a fixed price, and the program goes on behind them.  A cycle at
  such an instruction is a `Reaches` of one step (`reaches_plain`), and stretches of a run that follow each
  other are one stretch (`Reaches.trans`).  The facts about a straight piece of code are made of these two.
-/
namespace Breadboard

/-! ## Stretches of memory -/

/-- There are as many addresses in a stretch as it is said to have. -/
theorem length_consecutive (address : UInt16) (n : Nat) : (consecutive address n).length = n := by
  induction n generalizing address with
  | zero => rfl
  | succ n ih => exact congrArg (· + 1) (ih _)

/-- One address further on is the same from the start and from the address behind it. -/
theorem add_ofNat_succ (address : UInt16) (k : Nat) :
    address + UInt16.ofNat (k + 1) = address + 1 + UInt16.ofNat k := by
  rw [UInt16.ofNat_add]
  grind

/-- The addresses of a stretch are those that are less than its length behind the first; induction on the
    length. -/
theorem mem_consecutive {x address : UInt16} {n : Nat} :
    x ∈ consecutive address n ↔ ∃ k < n, x = address + UInt16.ofNat k := by
  induction n generalizing address with
  | zero => simp [consecutive]
  | succ n ih =>
    rw [consecutive, List.mem_cons, ih]
    constructor
    · rintro (rfl | ⟨k, hk, rfl⟩)
      · exact ⟨0, by omega, by simp⟩
      · exact ⟨k + 1, by omega, (add_ofNat_succ address k).symm⟩
    · rintro ⟨k, hk, rfl⟩
      cases k with
      | zero => exact .inl (by simp)
      | succ k => exact .inr ⟨k, by omega, add_ofNat_succ address k⟩

/-- A stretch can be cut in two anywhere. -/
theorem consecutive_add (address : UInt16) (n k : Nat) :
    consecutive address (n + k) = consecutive address n ++ consecutive (address + UInt16.ofNat n) k := by
  induction n generalizing address with
  | zero => simp [consecutive]
  | succ n ih =>
    rw [Nat.succ_add, consecutive, ih, add_ofNat_succ]
    rfl

/-- A stretch that does not fill the address space does not come back to the address before it. -/
theorem not_mem_consecutive {address : UInt16} {n : Nat} (h : n < 65536) :
    address ∉ consecutive (address + 1) n := by
  rw [mem_consecutive]
  rintro ⟨k, hk, haddress⟩
  have hzero : UInt16.ofNat (k + 1) = 0 := by
    have hshifted := add_ofNat_succ address k
    grind
  have hnat := congrArg UInt16.toNat hzero
  simp at hnat
  omega

/-- A stretch that fits into the address space meets no address twice. -/
theorem nodup_consecutive {n : Nat} (h : n ≤ 65536) (address : UInt16) :
    (consecutive address n).Nodup := by
  induction n generalizing address with
  | zero => exact List.nodup_nil
  | succ n ih => exact List.nodup_cons.mpr ⟨not_mem_consecutive h, ih (Nat.le_of_succ_le h) _⟩

/-- Two stretches of addresses have no address in common.  This is how a program is kept from writing on
    itself. -/
def Apart (a : UInt16) (k : Nat) (b : UInt16) (n : Nat) : Prop :=
  ∀ address ∈ consecutive a k, address ∉ consecutive b n

instance (a : UInt16) (k : Nat) (b : UInt16) (n : Nat) : Decidable (Apart a k b n) :=
  List.decidableBAll _ _

/-- The part of a stretch that begins after the first `k` addresses is apart from whatever the stretch is
    apart from. -/
theorem Apart.behind {a b : UInt16} {k k' n : Nat} (h : Apart a (k + k') b n) :
    Apart (a + UInt16.ofNat k) k' b n := by
  intro address haddress
  refine h address ?_
  rw [consecutive_add]
  exact List.mem_append_right _ haddress

/-- It does not matter which of the two is named first. -/
theorem Apart.symm {a b : UInt16} {k n : Nat} (h : Apart a k b n) : Apart b n a k :=
  fun address hb ha => h address ha hb

/-- Next to a stretch that is not empty there is no room for one that fills the address space. -/
theorem Apart.lt {a b : UInt16} {k n : Nat} (h : Apart a k b n) (hn : 0 < n) : k < 65536 := by
  refine Nat.lt_of_not_le fun hk => h b ?_ ?_
  -- a stretch that goes all the way around meets every address, the other one's first as well
  · have hlt := (b - a).toNat_lt
    refine mem_consecutive.mpr ⟨(b - a).toNat, by omega, ?_⟩
    rw [UInt16.ofNat_toNat]
    grind
  · exact mem_consecutive.mpr ⟨0, hn, by simp⟩

namespace Flat

variable (m : Flat) (address : UInt16)

/-- So many bytes, from some address on, in the order of their addresses. -/
def bytesAt (n : Nat) : List UInt8 :=
  (consecutive address n).map m.read

/-- The memory holds these bytes, from some address on, as it does with a program or a number of many
    bytes. -/
def Lists (code : List UInt8) : Prop :=
  m.bytesAt address code.length = code

variable {m} {address : UInt16}

/-- A list of bytes is there if its first byte is, and the others are behind it. -/
theorem lists_cons {byte : UInt8} {code : List UInt8} :
    m.Lists address (byte :: code) ↔ m.read address = byte ∧ m.Lists (address + 1) code :=
  List.cons_eq_cons

/-- What is left of a program from some place on is there, from that place on. -/
theorem Lists.drop {code : List UInt8} (h : m.Lists address code) (k : Nat) :
    m.Lists (address + UInt16.ofNat k) (code.drop k) := by
  induction k generalizing address code with
  | zero => simpa using h
  | succ k ih =>
    cases code with
    | nil => rfl
    | cons byte code =>
      rw [add_ofNat_succ]
      exact ih (lists_cons.mp h).2

/-- What lies in memory stays there when something is written elsewhere, as a write moves no other byte. -/
theorem Lists.write {code : List UInt8} (h : m.Lists address code) {target : UInt16}
    (hout : target ∉ consecutive address code.length) (v : UInt8) :
    (m.write target v).Lists address code := by
  have hread : ∀ x ∈ consecutive address code.length, (m.write target v).read x = m.read x := by
    intro x hx
    have hne : x ≠ target := fun htarget => hout (htarget ▸ hx)
    rw [read_write, if_neg hne]
  exact (List.map_congr_left hread).trans h

theorem length_bytesAt (m : Flat) (address : UInt16) (n : Nat) :
    (m.bytesAt address n).length = n := by
  rw [bytesAt, List.length_map, length_consecutive]

end Flat

/-- The number that some bytes make up, the lowest of them first, as the programs below compute with it. -/
def littleEndian (bytes : List UInt8) : Nat :=
  Nat.ofDigits 256 (bytes.map UInt8.toNat)

/-- The first byte counts once, and all that is behind it counts 256 times. -/
theorem littleEndian_cons (byte : UInt8) (bytes : List UInt8) :
    littleEndian (byte :: bytes) = byte.toNat + 256 * littleEndian bytes :=
  Nat.ofDigits_cons

/-- With so many bytes, no number is as large as that power of 256. -/
theorem littleEndian_lt (bytes : List UInt8) : littleEndian bytes < 256 ^ bytes.length := by
  have hlt : littleEndian bytes < 256 ^ (bytes.map UInt8.toNat).length := by
    refine Nat.ofDigits_lt_base_pow_length (by decide) fun digit hdigit => ?_
    obtain ⟨byte, -, rfl⟩ := List.mem_map.mp hdigit
    exact byte.toNat_lt
  rwa [List.length_map] at hlt

/-! ## Runs -/

/-- Only three modes can cross a page on the way to their operand, so in no other is there an address before
    indexing. -/
theorem Mode.unindexed?_eq_none {mode : Mode} (h : mode ∉ [.absoluteX, .absoluteY, .indirectIndexed])
    (r : Registers) (m : Flat) : mode.unindexed? r m = none := by
  revert h
  cases mode <;> simp [unindexed?]

/-- The opcode of an instruction that has a fixed price, and goes on right behind itself. -/
def Instruction.Plain (opcode : UInt8) : Prop :=
  ¬Undocumented opcode ∧ (decode opcode).mnemonic.handler.diverts = false ∧
    (decode opcode).mode ∉ [.absoluteX, .absoluteY, .indirectIndexed]
deriving Decidable

namespace Processor

/-- So many cycles lead from `p` to `q`; none of them fails, and together they cost so much.  The price is
    entered in the budget and in the counter. -/
structure Reaches (p q : Processor Flat) (steps price : Nat) : Prop where
  outcome : p.gone (List.replicate steps []) = (.ok price, q)
  panel : q.world.panel = p.world.panel.charge price
  cycles : q.registers.cycles = p.registers.cycles + UInt64.ofNat price

variable {p q s : Processor Flat} {steps price steps' price' : Nat}

theorem Reaches.quiet (h : p.Reaches q steps price) (hquiet : p.world.panel.requests = {}) :
    q.world.panel.requests = {} := by
  rw [h.panel]
  exact hquiet

/-- No cycle leads back to where one is, and costs nothing. -/
theorem reaches_refl (p : Processor Flat) : p.Reaches p 0 0 where
  outcome := rfl
  panel := congrArg (fun budget => { p.world.panel with budget })
    p.world.panel.budget.charge_zero.symm
  cycles := (UInt64.add_zero _).symm

/-- Stretches of a run that follow each other are one stretch, and the prices add up. -/
theorem Reaches.trans (h : p.Reaches q steps price) (h' : q.Reaches s steps' price') :
    p.Reaches s (steps + steps') (price + price') where
  outcome := by
    rw [← List.replicate_append_replicate]
    exact gone_append h.outcome h'.outcome
  panel := by
    rw [h'.panel, h.panel]
    exact congrArg (fun budget => { p.world.panel with budget })
      (p.world.panel.budget.charge_charge price price')
  cycles := by
    rw [h'.cycles, h.cycles, UInt64.ofNat_add, UInt64.add_assoc]

/-- The instruction `i` has been executed, and `q` is right behind it.  Of the latch and the counter this
    says nothing. -/
structure Passes (i : Instruction) (p q : Processor Flat) : Prop where
  registers : q.registers = { i.registersAfter p.registers p.ram with
    pc := p.registers.pc + UInt16.ofNat i.length
    addressLatch := q.registers.addressLatch
    cycles := q.registers.cycles }
  memory : q.ram = i.memoryAfter p.registers p.ram

/-- A cycle at a plain instruction takes one step at its listed price, and passes the instruction. -/
theorem reaches_plain {opcode : UInt8} (hquiet : p.world.panel.requests = {})
    (hopcode : p.ram.read p.registers.pc = opcode) (hplain : Instruction.Plain opcode) :
    ∃ q, p.Reaches q 1 (Instruction.decode opcode).cycles ∧ Passes (.decode opcode) p q := by
  obtain ⟨hdocumented, hstraight, hfixed⟩ := hplain
  have hcurrent : p.current = .decode opcode := congrArg Instruction.decode hopcode
  rw [← hopcode] at hdocumented
  obtain ⟨houtcome, hregisters, hmemory, hpanel⟩ := cycled_executes hquiet hdocumented
  -- it takes no branch and crosses no page, so there is nothing to pay on top
  have hsurcharge : p.current.surcharge p.registers p.ram = 0 := by
    rw [hcurrent, Instruction.surcharge_of_not_branch]
    · exact Instruction.reach_eq_zero (Mode.unindexed?_eq_none hfixed _ _)
    · intro hbranch
      rw [hbranch] at hstraight
      cases hstraight
  have hnext : p.current.successor p.registers p.ram =
      p.registers.pc + UInt16.ofNat (Instruction.decode opcode).length := by
    rw [hcurrent]
    exact Instruction.successor_of_not_diverts hstraight _ _
  rw [hsurcharge, hcurrent, Nat.add_zero] at houtcome hregisters hpanel
  rw [hcurrent] at hmemory hnext
  rw [hnext] at hregisters
  have hcycles : p.cycled.2.registers.cycles =
      p.registers.cycles + UInt64.ofNat (Instruction.decode opcode).cycles := by
    rw [hregisters]
  have hcycled : (p.request []).cycled = (.ok (Instruction.decode opcode).cycles, p.cycled.2) :=
    Prod.ext houtcome rfl
  have hdone : p.cycled.2.gone [] = (.ok 0, p.cycled.2) := rfl
  refine ⟨p.cycled.2, ⟨?_, hpanel, hcycles⟩, ⟨?_, hmemory⟩⟩
  · exact gone_cons hcycled hdone
  · rw [hcycles]
    exact hregisters

end Processor

end Breadboard
