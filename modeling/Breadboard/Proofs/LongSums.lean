import Breadboard.Proofs.Listing
/-
  Addition and subtraction of numbers of any length.

  The programs are straight-line code: CLC or SEC, and then LDA, ADC or SBC, and STA for each pair of bytes,
  from the lowest pair up.  `Chain` is what tells the two apart.

  One pair comes under the law for bytes (`Sums`), and its carry goes on to the next pair, for neither LDA nor
  STA touches it.  The numbers follow by induction from the lowest byte with any carry that comes in
  (`reaches_code`): the rest of the number counts 256 times, so what falls out of the lowest pair is just what
  the rest is short of.  In that form there are only sums.  That the second one is a difference is said of
  whole numbers at the end: the complements of all bytes make up `256 ^ n - 1` less the number.
-/
namespace Breadboard

/-! ## Two's complement in several bytes -/

/-- An integer that so many bytes can hold in two's complement.  It is doubled here, so as not to halve the
    power. -/
def Fits (size : Nat) (total : Int) : Prop :=
  -256 ^ size ≤ 2 * total ∧ 2 * total < 256 ^ size

/-- For a single byte these are the numbers from -128 to 127. -/
theorem fits_byte {total : Int} : Fits 1 total ↔ -128 ≤ total ∧ total ≤ 127 := by
  unfold Fits
  omega

/-- Any number of bytes, but none, can hold an even number of values, so there is a half to compare with. -/
theorem pow_eq_double {n : Nat} (hn : 0 < n) : ∃ half, 0 < half ∧ 256 ^ n = 2 * half := by
  obtain ⟨k, rfl⟩ := Nat.exists_eq_succ_of_ne_zero hn.ne'
  refine ⟨128 * 256 ^ k, by positivity, ?_⟩
  rw [Nat.pow_succ]
  omega

/-- A number that so many bytes hold stands for itself in the lower half, and for itself less that power of
    256 in the upper. -/
theorem signed_of_lt {n number : Nat} (hlt : number < 256 ^ n) :
    signed n number = if 2 * number < 256 ^ n then (number : Int) else number - (256 ^ n : Nat) := by
  unfold signed
  rw [Int.bmod_def, Int.emod_eq_of_lt (by omega) (by omega)]
  split <;> split <;> omega

/-- The lowest byte counts as it is, and the sign is in the rest. -/
theorem signed_cons {n number : Nat} (hn : 0 < n) (byte : UInt8) (hlt : number < 256 ^ n) :
    signed (n + 1) (byte.toNat + 256 * number) = byte.toNat + 256 * signed n number := by
  obtain ⟨half, hhalf, hpow⟩ := pow_eq_double hn
  have hbyte : byte.toNat < 256 := byte.toNat_lt
  have hsucc : 256 ^ (n + 1) = 256 * (2 * half) := by rw [Nat.pow_succ, hpow, Nat.mul_comm]
  rw [signed_of_lt hlt, signed_of_lt (by omega), hsucc, hpow]
  split <;> split <;> omega

/-- What the lowest byte adds does not decide whether the whole fits: it is less than a unit of the rest. -/
theorem fits_cons {n : Nat} (hn : 0 < n) (byte : UInt8) (total : Int) :
    Fits (n + 1) (byte.toNat + 256 * total) ↔ Fits n total := by
  obtain ⟨half, hhalf, hpow⟩ := pow_eq_double hn
  have hbyte : byte.toNat < 256 := byte.toNat_lt
  have hcast : (256 : Int) ^ n = 2 * half := by exact_mod_cast hpow
  unfold Fits
  rw [pow_succ, hcast]
  omega

/-- A number and the number of the complements of all its bytes make up the highest number there is;
    induction on the bytes. -/
theorem littleEndian_complement (bytes : List UInt8) :
    littleEndian (bytes.map (255 - ·)) + littleEndian bytes + 1 = 256 ^ bytes.length := by
  induction bytes with
  | nil => rfl
  | cons byte bytes ih =>
    have hbyte : byte.toNat < 256 := byte.toNat_lt
    rw [List.map_cons, littleEndian_cons, littleEndian_cons, toNat_complement,
      List.length_cons, Nat.pow_succ, ← ih]
    omega

/-- With a sign, such a complement is one less than the negative. -/
theorem signed_complement {n number other : Nat} (hn : 0 < n) (h : other + number + 1 = 256 ^ n) :
    signed n other = -1 - signed n number := by
  obtain ⟨half, hhalf, hpow⟩ := pow_eq_double hn
  rw [signed_of_lt (by omega), signed_of_lt (by omega)]
  split <;> split <;> omega

/-! ## The programs -/

/-- Which of the two programs it is: that of a sum or that of a difference. -/
inductive Chain where
  | sum | difference
deriving DecidableEq, Repr

namespace Chain

/-- The first instruction, CLC or SEC: no carry for a sum, and nothing borrowed for a difference. -/
def opening : Chain → UInt8
  | .sum => 0x18
  | .difference => 0x38

/-- The instruction for each pair, ADC or SBC with the byte behind it. -/
def opcode : Chain → UInt8
  | .sum => 0x69
  | .difference => 0xE9

/-- What is added to A in effect: the byte, or its complement. -/
def addend (byte : UInt8) : Chain → UInt8
  | .sum => byte
  | .difference => 255 - byte

/-- The carry that the first instruction leaves for the lowest pair. -/
def opens : Chain → Bool
  | .sum => false
  | .difference => true

/-- LDA, ADC or SBC, and STA for each pair of bytes, seven bytes in all; the target moves on by one each
    time. -/
def code (chain : Chain) : List UInt8 → List UInt8 → UInt16 → List UInt8
  | a :: as, b :: bs, target =>
    0xA9 :: a :: chain.opcode :: b :: 0x8D :: lowByte target :: highByte target ::
      chain.code as bs (target + 1)
  | _, _, _ => []

/-- The whole program, with the instruction that settles the first carry in front. -/
def program (chain : Chain) (a b : List UInt8) (target : UInt16) : List UInt8 :=
  chain.opening :: chain.code a b target

/-- The integer that the program is to compute, of two whole numbers. -/
def total (a b : Int) : Chain → Int
  | .sum => a + b
  | .difference => a - b

/-- When it is to leave the carry set: when the sum does not fit, and when nothing has to be borrowed. -/
def Carries (size a b : Nat) : Chain → Prop
  | .sum => 256 ^ size ≤ a + b
  | .difference => b ≤ a

/-- A program for `n` pairs takes `7 * n` bytes, behind the first instruction. -/
theorem length_code (chain : Chain) {a b : List UInt8} (target : UInt16)
    (hlength : b.length = a.length) : (chain.code a b target).length = 7 * a.length := by
  induction a generalizing b target with
  | nil => cases b <;> rfl
  | cons byte a ih =>
    cases b with
    | nil => cases hlength
    | cons byte' b =>
      have hrest := ih (target + 1) (Nat.succ.inj hlength)
      simp only [code, List.length_cons] at hrest ⊢
      omega

end Chain

/-! ## One pair of bytes -/

open Processor

namespace Chain

variable {p q : Processor Flat} {chain : Chain} {a b : UInt8} {target : UInt16}

/-- Neither ADC nor SBC with the byte behind it depends on anything for its price. -/
theorem plain_opcode (chain : Chain) : Instruction.Plain chain.opcode := by
  cases chain <;> decide

/-- The second instruction of the three comes under the law for bytes, by cases on which of the two it is. -/
theorem sums_passes (h : Passes (.decode chain.opcode) p q)
    (hbinary : p.registers.flags.decimal = false) :
    Sums p.registers.a (chain.addend (p.ram.read (p.registers.pc + 1))) p.registers.flags.carry
        q.registers ∧
      q.registers.pc = p.registers.pc + 2 ∧ q.registers.flags.decimal = false ∧ q.ram = p.ram := by
  have hmemory := h.memory
  rw [h.registers]
  cases chain with
  | sum =>
    have hsums := p.registers.sums_add (p.ram.read (p.registers.pc + 1)) hbinary
    exact ⟨hsums.elsewhere _ _ _, rfl, hbinary, hmemory⟩
  | difference =>
    have hsums := p.registers.sums_subtract (p.ram.read (p.registers.pc + 1)) hbinary
    exact ⟨hsums.elsewhere _ _ _, rfl, hbinary, hmemory⟩

/-- Three instructions: A is loaded, something is added to it or taken away, and the result is stored. -/
theorem reaches_pair (hquiet : p.world.panel.requests = {})
    (hbinary : p.registers.flags.decimal = false) {rest : List UInt8}
    (hcode : p.ram.Lists p.registers.pc (0xA9 :: a :: chain.opcode :: b :: 0x8D ::
      lowByte target :: highByte target :: rest)) :
    ∃ q, p.Reaches q 3 8 ∧ Sums a (chain.addend b) p.registers.flags.carry q.registers ∧
      q.ram = p.ram.write target q.registers.a ∧ q.registers.pc = p.registers.pc + 7 ∧
      q.registers.flags.decimal = false := by
  simp only [Flat.lists_cons] at hcode
  obtain ⟨hload, ha, hadd, hb, hstore, hlow, hhigh, -⟩ := hcode
  have htwo : p.registers.pc + 2 = p.registers.pc + 1 + 1 := by grind
  -- LDA
  obtain ⟨q₁, hreach₁, hpasses₁⟩ := reaches_plain hquiet hload (by decide)
  have hregisters₁ := hpasses₁.registers
  have hram₁ : q₁.ram = p.ram := hpasses₁.memory
  have hpc₁ : q₁.registers.pc = p.registers.pc + 1 + 1 := by rw [hregisters₁, ← htwo]; rfl
  have ha₁ : q₁.registers.a = a := by rw [hregisters₁]; exact ha
  have hcarry₁ : q₁.registers.flags.carry = p.registers.flags.carry := by rw [hregisters₁]; rfl
  have hbinary₁ : q₁.registers.flags.decimal = false := by rw [hregisters₁]; exact hbinary
  rw [← hram₁, ← hpc₁] at hadd hb
  -- ADC or SBC
  obtain ⟨q₂, hreach₂, hpasses₂⟩ := reaches_plain (hreach₁.quiet hquiet) hadd chain.plain_opcode
  obtain ⟨hsums, hpc₂, hbinary₂, hram₂⟩ := sums_passes hpasses₂ hbinary₁
  rw [ha₁, hb, hcarry₁] at hsums
  have hthere : q₂.registers.pc = p.registers.pc + 1 + 1 + 1 + 1 := by rw [hpc₂, hpc₁]; grind
  rw [← hram₁, ← hram₂, ← hthere] at hstore hlow hhigh
  -- STA
  obtain ⟨q₃, hreach₃, hpasses₃⟩ :=
    reaches_plain ((hreach₁.trans hreach₂).quiet hquiet) hstore (by decide)
  have hregisters₃ := hpasses₃.registers
  have hword : word (q₂.ram.read (q₂.registers.pc + 1)) (q₂.ram.read (q₂.registers.pc + 1 + 1)) =
      target := by rw [hlow, hhigh, word_bytes]
  have ha₃ : q₃.registers.a = q₂.registers.a := by rw [hregisters₃]; rfl
  have hram₃ : q₃.ram = p.ram.write target q₃.registers.a := by
    rw [ha₃, hpasses₃.memory, ← hram₁, ← hram₂, ← hword]
    rfl
  have hprice : (Instruction.decode chain.opcode).cycles = 2 := by cases chain <;> rfl
  rw [hprice] at hreach₂
  refine ⟨q₃, (hreach₁.trans hreach₂).trans hreach₃, ?_, hram₃, ?_, ?_⟩
  · rw [hregisters₃]
    exact hsums.elsewhere _ _ _
  · rw [hregisters₃]
    show q₂.registers.pc + 3 = p.registers.pc + 7
    rw [hthere]
    grind
  · rw [hregisters₃]
    exact hbinary₂

end Chain

/-! ## All pairs -/

/-- The bytes at `target` have become the sum of two numbers and a carry, and nothing else has been written.
    This is the law for bytes, said of any number of them. -/
structure LongSum (a b : List UInt8) (c : Bool) (target : UInt16) (p q : Processor Flat) : Prop where
  sum : littleEndian (q.ram.bytesAt target a.length) =
    (littleEndian a + littleEndian b + c.toNat) % 256 ^ a.length
  carry : q.registers.flags.carry = true ↔
    256 ^ a.length ≤ littleEndian a + littleEndian b + c.toNat
  overflow : a ≠ [] → (q.registers.flags.overflow = true ↔ ¬Fits a.length
    (signed a.length (littleEndian a) + signed a.length (littleEndian b) + c.toNat))
  /-- For no bytes at all the last sum is that of whoever was here before. -/
  untouched : a = [] → q.registers.flags.overflow = p.registers.flags.overflow
  elsewhere : ∀ address ∉ consecutive target a.length, q.ram.read address = p.ram.read address

/-- The carry of a sum, as a number, is what does not fit into the byte. -/
theorem Sums.toNat_carry {a b : UInt8} {c : Bool} {r : Registers} (h : Sums a b c r) :
    r.flags.carry.toNat = (a.toNat + b.toNat + c.toNat) / 256 := by
  have ha : a.toNat < 256 := a.toNat_lt
  have hb : b.toNat < 256 := b.toNat_lt
  have hc : c.toNat ≤ 1 := c.toNat_le
  have hcarry := h.carry
  cases hr : r.flags.carry with
  | false =>
    have hless : ¬256 ≤ a.toNat + b.toNat + c.toNat := by simpa [hr] using hcarry
    show 0 = _
    omega
  | true =>
    have hmore := hcarry.mp hr
    show 1 = _
    omega

/-- One more pair below: what the lowest pair leaves in the carry is what the rest takes in. -/
theorem LongSum.cons {a b : UInt8} {as bs : List UInt8} {c : Bool} {target : UInt16}
    {p q s : Processor Flat} (hlength : bs.length = as.length) (hroom : as.length < 65536)
    (hsums : Sums a b c q.registers) (hram : q.ram = p.ram.write target q.registers.a)
    (h : LongSum as bs q.registers.flags.carry (target + 1) q s) :
    LongSum (a :: as) (b :: bs) c target p s := by
  -- the lowest byte is not written again, as the rest does not come around to it
  have hlow : s.ram.read target = q.registers.a := by
    rw [h.elsewhere target (not_mem_consecutive hroom), hram, Flat.read_write, if_pos rfl]
  have hcarry := hsums.toNat_carry
  have hbs := littleEndian_lt bs
  rw [hlength] at hbs
  refine ⟨?_, ?_, fun _ => ?_, fun hnil => absurd hnil (List.cons_ne_nil a as), ?_⟩
  · have hbytes : s.ram.bytesAt target (a :: as).length =
      s.ram.read target :: s.ram.bytesAt (target + 1) as.length := rfl
    have hrest : (a.toNat + 256 * littleEndian as + (b.toNat + 256 * littleEndian bs) + c.toNat) / 256 =
        littleEndian as + littleEndian bs + (a.toNat + b.toNat + c.toNat) / 256 := by omega
    have hbyte : (a.toNat + 256 * littleEndian as + (b.toNat + 256 * littleEndian bs) + c.toNat) % 256 =
        (a.toNat + b.toNat + c.toNat) % 256 := by omega
    rw [hbytes, littleEndian_cons, h.sum, hlow, hsums.sum, hcarry, littleEndian_cons,
      littleEndian_cons, List.length_cons, Nat.pow_succ', Nat.mod_mul, hrest, hbyte]
  · rw [h.carry, hcarry, littleEndian_cons, littleEndian_cons, List.length_cons, Nat.pow_succ]
    generalize 256 ^ as.length = power
    omega
  · -- the last pair decides about the sign, so the lowest one only when there is no other
    by_cases hnil : as = []
    · subst hnil
      obtain rfl : bs = [] := List.eq_nil_of_length_eq_zero hlength
      rw [h.untouched rfl, hsums.overflow, ← fits_byte]
      rfl
    · have hpos : 0 < as.length := List.length_pos_iff.mpr hnil
      rw [h.overflow hnil, ← fits_cons hpos q.registers.a, hsums.sum, hcarry, List.length_cons,
        littleEndian_cons, littleEndian_cons, signed_cons hpos a (littleEndian_lt as),
        signed_cons hpos b hbs]
      refine not_congr (iff_of_eq (congrArg _ ?_))
      omega
  · intro address haddress
    rw [List.length_cons, consecutive, List.mem_cons, not_or] at haddress
    obtain ⟨htarget, hrest⟩ := haddress
    rw [h.elsewhere address hrest, hram, Flat.read_write, if_neg htarget]

/-- All pairs, from any state with decimal mode clear, and with any carry that comes in.  The induction is
    on the first number, and the carry is handed on from pair to pair. -/
theorem Chain.reaches_code (chain : Chain) {a b : List UInt8} {target : UInt16} {p : Processor Flat}
    (hquiet : p.world.panel.requests = {}) (hbinary : p.registers.flags.decimal = false)
    (hlength : b.length = a.length) (hroom : a.length < 65536)
    (hcode : p.ram.Lists p.registers.pc (chain.code a b target))
    (hapart : Apart p.registers.pc (7 * a.length) target a.length) :
    ∃ q, p.Reaches q (3 * a.length) (8 * a.length) ∧
      LongSum a (b.map (chain.addend ·)) p.registers.flags.carry target p q := by
  induction a generalizing b target p with
  | nil =>
    obtain rfl : b = [] := List.eq_nil_of_length_eq_zero hlength
    refine ⟨p, reaches_refl p, ⟨?_, ?_, fun h => absurd rfl h, fun _ => rfl, fun _ _ => rfl⟩⟩
    · exact (Nat.mod_one _).symm
    · show p.registers.flags.carry = true ↔ 1 ≤ 0 + 0 + p.registers.flags.carry.toNat
      cases p.registers.flags.carry <;> decide
  | cons byte a ih =>
    cases b with
    | nil => cases hlength
    | cons byte' b =>
      have hlength' : b.length = a.length := Nat.succ.inj hlength
      have hroom' : a.length < 65536 := Nat.lt_of_succ_lt hroom
      obtain ⟨q, hreach, hsums, hram, hpc, hbinary'⟩ := chain.reaches_pair hquiet hbinary hcode
      have hbehind : Apart q.registers.pc (7 * a.length) target (a.length + 1) := by
        rw [hpc]
        refine Apart.behind (k := 7) ?_
        rwa [Nat.add_comm, ← Nat.mul_succ]
      -- the byte that has been stored is not part of the program that is left
      have hlisted : p.ram.Lists (p.registers.pc + 7) (chain.code a b (target + 1)) := hcode.drop 7
      have hrest : q.ram.Lists q.registers.pc (chain.code a b (target + 1)) := by
        rw [hram, hpc]
        refine hlisted.write ?_ _
        rw [chain.length_code _ hlength', ← hpc]
        exact fun h => hbehind target h List.mem_cons_self
      have hapart' : Apart q.registers.pc (7 * a.length) (target + 1) a.length :=
        fun x hx h => hbehind x hx (List.mem_cons_of_mem _ h)
      obtain ⟨s, hreach', hsum⟩ := ih (hreach.quiet hquiet) hbinary' hlength' hroom' hrest hapart'
      refine ⟨s, ?_, ?_⟩
      · have hwhole := hreach.trans hreach'
        rwa [Nat.add_comm 3, Nat.add_comm 8, ← Nat.mul_succ, ← Nat.mul_succ] at hwhole
      · exact hsum.cons (by rw [List.length_map, hlength']) hroom' hsums hram

/-! ## The whole program -/

/-- The first instruction settles the carry and nothing else. -/
theorem Chain.reaches_opening (chain : Chain) {p : Processor Flat}
    (hquiet : p.world.panel.requests = {}) (hopcode : p.ram.read p.registers.pc = chain.opening) :
    ∃ q, p.Reaches q 1 2 ∧ q.ram = p.ram ∧ q.registers.pc = p.registers.pc + 1 ∧
      q.registers.flags = { p.registers.flags with carry := chain.opens } := by
  have hplain : Instruction.Plain chain.opening := by cases chain <;> decide
  obtain ⟨q, hreach, hpasses⟩ := reaches_plain hquiet hopcode hplain
  have hregisters := hpasses.registers
  have hmemory := hpasses.memory
  cases chain with
  | sum =>
    refine ⟨q, hreach, hmemory, ?_, ?_⟩ <;> rw [hregisters] <;> rfl
  | difference =>
    refine ⟨q, hreach, hmemory, ?_, ?_⟩ <;> rw [hregisters] <;> rfl

/-- What a long sum says of the two numbers when the carry that comes in is the one that the program has
    set. -/
theorem Chain.of_longSum (chain : Chain) {a b : List UInt8} {target : UInt16} {p q : Processor Flat}
    (hne : a ≠ []) (hlength : b.length = a.length)
    (h : LongSum a (b.map (chain.addend ·)) chain.opens target p q) :
    (littleEndian (q.ram.bytesAt target a.length) : Int) =
        chain.total (littleEndian a) (littleEndian b) % 256 ^ a.length ∧
      (q.registers.flags.carry = true ↔
        chain.Carries a.length (littleEndian a) (littleEndian b)) ∧
      (q.registers.flags.overflow = true ↔ ¬Fits a.length (chain.total
        (signed a.length (littleEndian a)) (signed a.length (littleEndian b)))) := by
  have hsum := h.sum
  have hcarry := h.carry
  have hoverflow := h.overflow hne
  cases chain with
  | sum =>
    have hsame : b.map (addend · .sum) = b := List.map_id b
    rw [hsame] at hsum hcarry hoverflow
    refine ⟨?_, hcarry, ?_⟩
    · rw [hsum]
      push_cast
      rfl
    · have hnone : (((opens .sum).toNat : Nat) : Int) = 0 := rfl
      rw [hoverflow, hnone, Int.add_zero]
      rfl
  | difference =>
    have hcomplement : littleEndian (b.map (addend · .difference)) + littleEndian b + 1 =
        256 ^ a.length := hlength ▸ littleEndian_complement b
    have hpos : 0 < a.length := List.length_pos_iff.mpr hne
    have hone : (opens .difference).toNat = 1 := rfl
    rw [hone] at hsum hcarry hoverflow
    refine ⟨?_, ?_, ?_⟩
    -- the complement of the second number and the carry that was set make up for the sign
    · have hwhole : ((littleEndian a + littleEndian (b.map (addend · .difference)) + 1 : Nat) : Int) =
          (littleEndian a - littleEndian b : Int) + (256 ^ a.length : Nat) := by omega
      rw [hsum, Int.natCast_mod, hwhole, Int.add_emod_right]
      push_cast
      rfl
    · rw [hcarry]
      show _ ↔ littleEndian b ≤ littleEndian a
      omega
    · have hsigned : signed a.length (littleEndian a) +
          signed a.length (littleEndian (b.map (addend · .difference))) + ((1 : Nat) : Int) =
          signed a.length (littleEndian a) - signed a.length (littleEndian b) := by
        rw [signed_complement hpos hcomplement]
        omega
      rw [hoverflow, hsigned]
      rfl

/-- The two programs are exact, for numbers of any length.  From any state with decimal mode clear and nothing
    pending, with the program at the program counter and apart from the bytes at `target`, `3 * n + 1` cycles
    succeed and charge `8 * n + 2` in all.  The bytes at `target` are then the sum, or the difference, modulo
    `256 ^ n`; carry says whether the sum did not fit, or whether nothing had to be borrowed; overflow says
    whether the result is out of range when everything is read in two's complement; and no other byte of the
    memory has changed. -/
theorem Processor.exact_chain (chain : Chain) (p : Processor Flat) (j : Journal) (a b : List UInt8)
    (target : UInt16) (hquiet : p.world.panel.requests = {})
    (hbinary : p.registers.flags.decimal = false) (hne : a ≠ []) (hlength : b.length = a.length)
    (hcode : p.ram.Lists p.registers.pc (chain.program a b target))
    (hapart : Apart p.registers.pc (7 * a.length + 1) target a.length) :
    ∃ q, ((p.rounds (List.replicate (3 * a.length + 1) [])).run j).1 =
        (.ok (8 * a.length + 2), q) ∧
      (littleEndian (q.ram.bytesAt target a.length) : Int) =
        chain.total (littleEndian a) (littleEndian b) % 256 ^ a.length ∧
      (q.registers.flags.carry = true ↔
        chain.Carries a.length (littleEndian a) (littleEndian b)) ∧
      (q.registers.flags.overflow = true ↔ ¬Fits a.length (chain.total
        (signed a.length (littleEndian a)) (signed a.length (littleEndian b)))) ∧
      (∀ address ∉ consecutive target a.length, q.ram.read address = p.ram.read address) ∧
      q.world.panel = p.world.panel.charge (8 * a.length + 2) ∧
      q.registers.cycles = p.registers.cycles + UInt64.ofNat (8 * a.length + 2) := by
  have hpos : 0 < a.length := List.length_pos_iff.mpr hne
  have hroom : a.length < 65536 := by
    have hlt := hapart.lt hpos
    omega
  obtain ⟨hopening, hrest⟩ := Flat.lists_cons.mp hcode
  obtain ⟨q, hreach, hram, hpc, hflags⟩ := chain.reaches_opening hquiet hopening
  have hbinary' : q.registers.flags.decimal = false := by rw [hflags]; exact hbinary
  have hcode' : q.ram.Lists q.registers.pc (chain.code a b target) := by rwa [hram, hpc]
  have hapart' : Apart q.registers.pc (7 * a.length) target a.length := by
    rw [hpc]
    refine Apart.behind (k := 1) ?_
    rwa [Nat.add_comm]
  obtain ⟨s, hreach', hsum⟩ :=
    chain.reaches_code (hreach.quiet hquiet) hbinary' hlength hroom hcode' hapart'
  have hcarry : q.registers.flags.carry = chain.opens := by rw [hflags]
  have helsewhere := hsum.elsewhere
  rw [hcarry] at hsum
  rw [hram] at helsewhere
  obtain ⟨hnumber, hcarries, hoverflow⟩ := chain.of_longSum hne hlength hsum
  have hwhole := hreach.trans hreach'
  rw [Nat.add_comm 1, Nat.add_comm 2] at hwhole
  refine ⟨s, ?_, hnumber, hcarries, hoverflow, helsewhere, hwhole.panel, hwhole.cycles⟩
  rw [fst_rounds]
  exact hwhole.outcome

/-- A processor that is going to take 1 from the lowest number of two bytes. -/
def Processor.lowering : Processor Flat where
  registers := { pc := 0xFFF1 }
  world := { memory := ({} : Flat).storeAt 0xFFF1 (Chain.difference.program [0x00, 0x80] [0x01, 0x00] 0) }

/-- 0x8000 less 1 has nothing to borrow, but read with a sign it falls out of range. -/
theorem Processor.exact_chain_lowering :
    lowering.ram.Lists 0xFFF1 (Chain.difference.program [0x00, 0x80] [0x01, 0x00] 0) ∧
      Apart 0xFFF1 15 0 2 ∧
      ∃ q, ((lowering.rounds (List.replicate 7 [])).run {}).1 = (.ok 18, q) ∧
        (littleEndian (q.ram.bytesAt 0 2) : Int) = 0x7FFF ∧ q.registers.flags.carry = true ∧
        q.registers.flags.overflow = true := by
  have hcode : lowering.ram.Lists 0xFFF1 (Chain.difference.program [0x00, 0x80] [0x01, 0x00] 0) := by
    unfold Flat.Lists
    decide +kernel
  have hapart : Apart 0xFFF1 15 0 2 := by decide
  obtain ⟨q, hrun, hnumber, hcarry, hoverflow, -⟩ := exact_chain .difference lowering {}
    [0x00, 0x80] [0x01, 0x00] 0 rfl rfl (by decide) rfl hcode hapart
  refine ⟨hcode, hapart, q, hrun, hnumber, hcarry.mpr ?_, hoverflow.mpr ?_⟩
  · show littleEndian [0x01, 0x00] ≤ littleEndian [0x00, 0x80]
    decide
  · unfold Fits
    decide

end Breadboard
