import Breadboard.Proofs.LongShifts
/-
  Rotation.

  ROL and ROR turn a ring of nine bits, the operand and the carry, by one place, and nothing is lost in a
  ring: turning back restores it, and nine turns one way are none.  Where the operand is does not matter,
  as long as it is the same one.

  The same operand can be rotated from any number of places in the program, and as often as one likes.  A
  `tour` goes from place to place, with a cycle at each of them; on a straight piece of code it is an ordinary
  run (`tour_of_straight`).  What an instruction on the tour does not do is get in the way of the others: it
  leaves their index register alone, and their bytes in memory, unless the operand is among them
  (`Lasts.kept`).
-/
namespace Breadboard

/-! ## Nine bits -/

/-- A byte and the carry as a ring of nine bits; the carry is next to the highest bit and next to the
    lowest. -/
def ring (v : UInt8) (c : Bool) : BitVec 9 :=
  BitVec.cons c v.toBitVec

/-- The byte and the carry can be read off their ring. -/
theorem ring_inj {v w : UInt8} {c d : Bool} (h : ring v c = ring w d) : v = w ∧ c = d := by
  have hbyte := congrArg (BitVec.setWidth 8) h
  have hcarry := congrArg BitVec.msb h
  unfold ring at hbyte hcarry
  rw [BitVec.setWidth_cons, BitVec.setWidth_cons] at hbyte
  rw [BitVec.msb_cons, BitVec.msb_cons] at hcarry
  exact ⟨UInt8.toBitVec_inj.mp hbyte, hcarry⟩

namespace Direction

/-- A ring that has been turned by so many places, one way or the other. -/
def turned (ring : BitVec 9) (places : Nat) : Direction → BitVec 9
  | .left => ring.rotateLeft places
  | .right => ring.rotateRight places

/-- The instruction that turns a ring in this direction. -/
def turns : Direction → Mnemonic
  | .left => .rol
  | .right => .ror

/-- To move a byte with the carry that comes in and the one that goes out is to turn their ring by one
    place. -/
theorem ring_moved (direction : Direction) (v : UInt8) (c : Bool) :
    ring (direction.moved v c).1 (direction.moved v c).2 = direction.turned (ring v c) 1 := by
  revert v
  -- every byte, direction and carry is tried out
  refine forall_byte ?_
  cases direction <;> cases c <;> decide +kernel

/-- Bit by bit: each of them has gone by `k` places and goes by one more. -/
theorem turned_succ (direction : Direction) (x : BitVec 9) (k : Nat) :
    direction.turned (direction.turned x (k % 9)) 1 = direction.turned x ((k + 1) % 9) := by
  have hk : k % 9 < 9 := Nat.mod_lt k (by decide)
  cases direction with
  | left =>
    ext i hi
    simp only [turned, BitVec.getElem_rotateLeft]
    grind
  | right =>
    ext i hi
    simp only [turned, BitVec.getElem_rotateRight]
    grind

/-- A ring that has not been turned is as it was, in either direction. -/
theorem turned_zero (direction : Direction) (x : BitVec 9) : direction.turned x 0 = x := by
  cases direction with
  | left =>
    ext i hi
    simp [turned, BitVec.getElem_rotateLeft]
  | right =>
    ext i hi
    simp only [turned, BitVec.getElem_rotateRight]
    grind

theorem turned_back (x : BitVec 9) : Direction.right.turned (Direction.left.turned x 1) 1 = x := by
  ext i hi
  simp only [turned, BitVec.getElem_rotateLeft, BitVec.getElem_rotateRight]
  grind

end Direction

/-! ## Instructions that turn -/

/-- The modes of the instructions that turn: where they find their operand, and how many bytes they take. -/
def turningModes : List (Mode × Nat) :=
  [(.accumulator, 1), (.zeroPage, 2), (.zeroPageX, 2), (.absolute, 3), (.absoluteX, 3)]

/-- There are no others in the table of documented opcodes. -/
theorem Instruction.turning_documented : ∀ i ∈ documented, i.mnemonic ∈ [.rol, .ror] →
    (i.mode, i.length) ∈ turningModes := by
  decide +kernel

/-- With the same bytes behind the opcode and the same X they find it in the same place. -/
theorem Mode.operand_congr {mode : Mode} {length : Nat} (h : (mode, length) ∈ turningModes)
    {r r' : Registers} {m m' : Flat} (hpc : r'.pc = r.pc) (hx : r'.x = r.x)
    (hbytes : ∀ address ∈ consecutive r.pc length, m'.read address = m.read address) :
    mode.operand r' m' = mode.operand r m := by
  simp only [turningModes, List.mem_cons, Prod.mk.injEq, List.not_mem_nil, or_false] at h
  rcases h with ⟨rfl, rfl⟩ | ⟨rfl, rfl⟩ | ⟨rfl, rfl⟩ | ⟨rfl, rfl⟩ | ⟨rfl, rfl⟩
  case inl => rfl
  all_goals
    have hbyte := hbytes (r.pc + 1) (by simp [consecutive])
    simp only [operand, cell?, operandByte, operandWord, hpc, hx, hbyte]
  all_goals
    have hbyte' := hbytes (r.pc + 1 + 1) (by simp [consecutive])
    rw [hbyte']

/-- What such an instruction computes is the move in its direction, with the carry as it was. -/
theorem Instruction.shiftResult_of_turns {i : Instruction} {direction : Direction}
    (h : i.mnemonic = direction.turns) (r : Registers) (m : Flat) :
    i.shiftResult r m = direction.moved (i.mode.argument r m) r.flags.carry := by
  unfold shiftResult
  rw [h]
  cases direction <;> rfl

/-- A byte of memory that is not the operand is not changed by writing the operand. -/
theorem Operand.read_intoMemory {operand : Operand} {address : UInt16} (h : operand ≠ .cell address)
    (m : Flat) (v : UInt8) : (operand.intoMemory m v).read address = m.read address := by
  cases operand with
  | accumulator => rfl
  | cell written =>
    have hne : address ≠ written := fun heq => h (heq ▸ rfl)
    exact (m.read_write _ _ _).trans (if_neg hne)

namespace Processor

variable {p q : Processor Flat} {target : Operand} {direction : Direction} {address : UInt16}

/-- The ring of an operand and the carry, as a processor has them. -/
def ring (p : Processor Flat) (target : Operand) : BitVec 9 :=
  Breadboard.ring (target.byte p.registers p.ram) p.registers.flags.carry

/-- The same processor somewhere else in the program. -/
def heading (p : Processor Flat) (address : UInt16) : Processor Flat :=
  { p with registers := { p.registers with pc := address } }

/-- At this address lies a documented instruction that turns this operand, in this direction. -/
structure Turns (p : Processor Flat) (target : Operand) (direction : Direction) (address : UInt16) :
    Prop where
  documented : ¬Instruction.Undocumented (p.ram.read address)
  mnemonic : (p.heading address).current.mnemonic = direction.turns
  operand : (p.heading address).current.mode.operand (p.heading address).registers p.ram = target

/-- Such an instruction which is not itself written when the operand is. -/
structure Lasts (p : Processor Flat) (target : Operand) (direction : Direction) (address : UInt16) :
    Prop extends p.Turns target direction address where
  intact : target ∉ (consecutive address (p.heading address).current.length).map Operand.cell

/-- Turning an operand leaves alone what other instructions need to find it: X, and every byte that is not
    the operand. -/
structure Spares (target : Operand) (p q : Processor Flat) : Prop where
  quiet : q.world.panel.requests = {}
  x : q.registers.x = p.registers.x
  memory : ∀ address, target ≠ .cell address → q.ram.read address = p.ram.read address

/-- The instruction is in one of the modes that turning can be done in. -/
theorem Turns.mode_length (h : p.Turns target direction address) :
    ((p.heading address).current.mode, (p.heading address).current.length) ∈ turningModes := by
  refine Instruction.turning_documented _ (Instruction.decode_mem h.documented) ?_
  show (p.heading address).current.mnemonic ∈ _
  rw [h.mnemonic]
  cases direction <;> decide

/-- Turning the operand elsewhere leaves such an instruction as it is, so it will do the same again. -/
theorem Lasts.kept (h : p.Lasts target direction address) (hspares : Spares target p q) :
    q.Lasts target direction address := by
  have hmodes := h.mode_length
  have hbytes : ∀ x ∈ consecutive address (p.heading address).current.length,
      q.ram.read x = p.ram.read x := fun x hx =>
    hspares.memory x fun htarget => h.intact (List.mem_map.mpr ⟨x, hx, htarget.symm⟩)
  -- the opcode itself is one of the bytes of the instruction
  have hlength : 0 < (p.heading address).current.length := by
    revert hmodes
    generalize (p.heading address).current.length = length
    generalize (p.heading address).current.mode = mode
    simp only [turningModes, List.mem_cons, Prod.mk.injEq, List.not_mem_nil, or_false]
    omega
  have hopcode : q.ram.read address = p.ram.read address :=
    hbytes address (mem_consecutive.mpr ⟨0, hlength, by simp⟩)
  have hcurrent : (q.heading address).current = (p.heading address).current :=
    congrArg Instruction.decode hopcode
  have hdocumented := h.documented
  rw [← hopcode] at hdocumented
  refine ⟨⟨hdocumented, hcurrent ▸ h.mnemonic, ?_⟩, hcurrent ▸ h.intact⟩
  rw [hcurrent, ← h.operand]
  exact Mode.operand_congr hmodes rfl hspares.x hbytes

/-- One cycle, one turn.  It succeeds, and it spares what the other instructions need. -/
theorem Turns.cycled (h : p.Turns target direction address)
    (hquiet : p.world.panel.requests = {}) :
    ∃ cycles q, (p.heading address).cycled = (.ok cycles, q) ∧ Spares target p q ∧
      q.ring target = direction.turned (p.ring target) 1 := by
  have hserves : (p.heading address).current.mnemonic.handler = .shift := by
    rw [h.mnemonic]
    cases direction <;> rfl
  obtain ⟨houtcome, hregisters, hmemory, hpanel⟩ :=
    cycled_executes (p := p.heading address) hquiet h.documented
  have hcell : (p.heading address).current.mode.operand (p.heading address).registers
      (p.heading address).ram = target := h.operand
  have hresult : (p.heading address).current.shiftResult (p.heading address).registers p.ram =
      direction.moved (target.byte p.registers p.ram) p.registers.flags.carry := by
    rw [Instruction.shiftResult_of_turns h.mnemonic]
    unfold Mode.argument
    rw [h.operand]
    rfl
  refine ⟨_, _, Prod.ext houtcome rfl, ⟨?_, ?_, ?_⟩, ?_⟩
  · rw [hpanel]
    exact hquiet
  · rw [hregisters]
    unfold Instruction.registersAfter
    rw [hserves]
    exact Operand.x_intoRegisters _ _ _
  · intro x hx
    rw [hmemory]
    unfold Instruction.memoryAfter
    rw [hserves, hcell]
    exact Operand.read_intoMemory hx _ _
  -- the ring after the cycle is that of the result which the routine has put into the operand
  · have hbyte : target.byte (p.heading address).cycled.2.registers (p.heading address).cycled.2.ram =
        (direction.moved (target.byte p.registers p.ram) p.registers.flags.carry).1 := by
      rw [← hresult, hregisters, hmemory, ← hcell]
      exact (Place.byte_placed _ _ _ _ _ _ _ _ .operand).trans (Instruction.byte_shifted hserves)
    have hcarry : (p.heading address).cycled.2.registers.flags.carry =
        (direction.moved (target.byte p.registers p.ram) p.registers.flags.carry).2 := by
      rw [← hresult, hregisters]
      exact congrArg Flags.carry (Instruction.flags_shifted hserves)
    unfold ring
    rw [hbyte, hcarry]
    exact direction.ring_moved _ _

/-! ## Tours -/

/-- One cycle at each of these addresses; the result is the cycles charged for all of them, or the first
    fault. -/
def tour : List UInt16 → Processor Flat → Logged (Except Fault Nat × Processor Flat)
  | [], p => return (.ok 0, p)
  | address :: rest, p => do
    match ← (p.heading address).cycle with
    | (.error fault, p) => return (.error fault, p)
    | (.ok cycles, p) =>
      let (outcome, p) ← tour rest p
      return (outcome.map (cycles + ·), p)

/-- The stops of a tour are where the program gets to anyway. -/
def Straight : List UInt16 → Processor Flat → Prop
  | [], _ => True
  | address :: rest, p => p.registers.pc = address ∧ Straight rest p.cycled.2

/-- Then the tour is an ordinary run, by induction on the stops. -/
theorem tour_of_straight {addresses : List UInt16} (h : Straight addresses p) (j : Journal) :
    ((p.tour addresses).run j).1 = p.gone (List.replicate addresses.length []) := by
  induction addresses generalizing p j with
  | nil => rfl
  | cons address rest ih =>
    obtain ⟨rfl, hrest⟩ := h
    have hcycle : ((p.heading p.registers.pc).cycle.run j).1 = p.cycled := p.fst_cycle j
    -- a round in which nothing is requested is a cycle
    have hsame : (p.request []).cycled = p.cycled := rfl
    show _ = p.gone ([] :: List.replicate rest.length [])
    unfold tour gone
    rw [fst_bind hcycle, hsame]
    rcases hcycled : p.cycled with ⟨fault | cycles, q⟩
    · rfl
    · rw [hcycled] at hrest
      dsimp only
      rw [fst_bind (ih hrest _)]
      rfl

/-- Whenever the tour gets to a stop, there is an instruction that turns the operand. -/
def Rotates (target : Operand) : List (Direction × UInt16) → Processor Flat → Prop
  | [], _ => True
  | stop :: rest, p =>
    p.Turns target stop.1 stop.2 ∧ Rotates target rest (p.heading stop.2).cycled.2

/-- It is enough to look at the memory before the tour: what lasts is there whenever the tour gets to it. -/
theorem rotates_of_lasts {stops : List (Direction × UInt16)} (hquiet : p.world.panel.requests = {})
    (hstops : ∀ stop ∈ stops, p.Lasts target stop.1 stop.2) : Rotates target stops p := by
  induction stops generalizing p with
  | nil => trivial
  | cons stop rest ih =>
    have hlasts := hstops stop List.mem_cons_self
    obtain ⟨cycles, q, hcycled, hspares, -⟩ := hlasts.toTurns.cycled hquiet
    refine ⟨hlasts.toTurns, ?_⟩
    rw [hcycled]
    exact ih hspares.quiet fun stop hstop =>
      (hstops stop (List.mem_cons_of_mem _ hstop)).kept hspares

/-- A ring that has been turned by one place at each stop, in the direction of the stop. -/
def turnedBy (x : BitVec 9) (stops : List (Direction × UInt16)) : BitVec 9 :=
  stops.foldl (fun x stop => stop.1.turned x 1) x

/-- Over the whole tour the ring is turned once at each stop, and no cycle fails.  The induction is on the
    stops; each turn hands the operand on to the next. -/
theorem ring_tour {stops : List (Direction × UInt16)} (hquiet : p.world.panel.requests = {})
    (hstops : Rotates target stops p) (j : Journal) :
    ∃ cycles q, ((p.tour (stops.map Prod.snd)).run j).1 = (.ok cycles, q) ∧
      q.ring target = turnedBy (p.ring target) stops := by
  induction stops generalizing p j with
  | nil => exact ⟨0, p, rfl, rfl⟩
  | cons stop rest ih =>
    obtain ⟨hturns, hrest⟩ := hstops
    obtain ⟨cycles, q, hcycled, hspares, hring⟩ := hturns.cycled hquiet
    rw [hcycled] at hrest
    obtain ⟨more, s, htour, hring'⟩ :=
      ih hspares.quiet hrest ((p.heading stop.2).cycle.run j).2
    -- the cycle at the first stop, and then the tour through the others
    refine ⟨cycles + more, s, ?_, ?_⟩
    · have hfirst := (p.heading stop.2).fst_cycle j
      rw [hcycled] at hfirst
      show ((p.tour (stop.2 :: rest.map Prod.snd)).run j).1 = _
      unfold tour
      rw [fst_bind hfirst]
      dsimp only
      rw [fst_bind htour]
      rfl
    · rw [hring', hring]
      rfl

/-- The same turn at every stop adds up, modulo the nine places of the ring. -/
theorem turnedBy_map (direction : Direction) (addresses : List UInt16) (x : BitVec 9) (k : Nat) :
    turnedBy (direction.turned x (k % 9)) (addresses.map fun address => (direction, address)) =
      direction.turned x ((k + addresses.length) % 9) := by
  induction addresses generalizing k with
  | nil => rfl
  | cons address rest ih =>
    show turnedBy (direction.turned (direction.turned x (k % 9)) 1) _ = _
    rw [direction.turned_succ, ih, List.length_cons, Nat.add_assoc, Nat.add_comm 1]

/-- Shifts through memory are exact for numbers of any length: with the program at the program counter and
    apart from the number, `n` cycles double it modulo `256 ^ n`, or halve it; what has fallen out of it is in
    the carry, and no other byte has changed.

    Rotations lose nothing.  On a tour whose stops all rotate one operand, wherever that is, every cycle turns
    the ring of operand and carry by one place.  A turn to the left and one to the right restore both operand
    and carry, and `k` turns one way are `k % 9`.  Whether a tour is like that can be seen in advance, as long
    as the operand is not part of the instructions; and a tour along a straight piece of code is an ordinary
    run. -/
theorem exact_shifts (p : Processor Flat) (j : Journal) (hquiet : p.world.panel.requests = {}) :
    (∀ (direction : Direction) (address : UInt16) (n : Nat), 0 < n →
      p.ram.Lists p.registers.pc (direction.program address n) →
      Apart p.registers.pc (3 * n) address n →
      ∃ q, ((p.rounds (List.replicate n [])).run j).1 = (.ok (6 * n), q) ∧
        littleEndian (q.ram.bytesAt address n) =
          direction.shifted n (littleEndian (p.ram.bytesAt address n)) ∧
        (q.registers.flags.carry = true ↔
          direction.Loses n (littleEndian (p.ram.bytesAt address n))) ∧
        ∀ x ∉ consecutive address n, q.ram.read x = p.ram.read x) ∧
    (∀ target : Operand,
      (∀ stops, Rotates target stops p →
        ∃ cycles q, ((p.tour (stops.map Prod.snd)).run j).1 = (.ok cycles, q) ∧
          q.ring target = turnedBy (p.ring target) stops) ∧
      (∀ there back, Rotates target [(.left, there), (.right, back)] p →
        ∃ cycles q, ((p.tour [there, back]).run j).1 = (.ok cycles, q) ∧
          target.byte q.registers q.ram = target.byte p.registers p.ram ∧
          q.registers.flags.carry = p.registers.flags.carry) ∧
      (∀ (direction : Direction) (addresses : List UInt16),
        Rotates target (addresses.map fun address => (direction, address)) p →
        ∃ cycles q, ((p.tour addresses).run j).1 = (.ok cycles, q) ∧
          q.ring target = direction.turned (p.ring target) (addresses.length % 9)) ∧
      ∀ stops, (∀ stop ∈ stops, p.Lasts target stop.1 stop.2) → Rotates target stops p) ∧
    ∀ addresses, Straight addresses p →
      ((p.tour addresses).run j).1 = ((p.rounds (List.replicate addresses.length [])).run j).1 := by
  refine ⟨fun direction address n hn hcode hapart => ?_, fun target => ⟨?_, ?_, ?_, ?_⟩,
    fun addresses h => ?_⟩
  -- shifts through memory
  · obtain ⟨q, hreach, hrest⟩ := direction.reaches_program hquiet hn hcode hapart
    refine ⟨q, ?_, hrest⟩
    rw [fst_rounds]
    exact hreach.outcome
  -- rotations of one operand
  · exact fun stops hstops => ring_tour hquiet hstops j
  · intro there back hstops
    obtain ⟨cycles, q, htour, hring⟩ := ring_tour hquiet hstops j
    have hback : q.ring target = p.ring target := hring.trans (Direction.turned_back _)
    exact ⟨cycles, q, htour, ring_inj hback⟩
  · intro direction addresses hstops
    obtain ⟨cycles, q, htour, hring⟩ := ring_tour hquiet hstops j
    have haddresses : (addresses.map fun address => (direction, address)).map Prod.snd = addresses :=
      List.map_map.trans (List.map_id _)
    have hturned := turnedBy_map direction addresses (p.ring target) 0
    rw [direction.turned_zero, Nat.zero_add] at hturned
    rw [haddresses] at htour
    exact ⟨cycles, q, htour, hring.trans hturned⟩
  · exact fun stops hstops => rotates_of_lasts hquiet hstops
  · rw [fst_rounds]
    exact tour_of_straight h j

/-- A number in memory and the program that doubles it, and two more instructions elsewhere that rotate one
    byte of page 0 in opposite directions. -/
def revolving : Processor Flat where
  registers := { pc := 0x0400, x := 0xF0 }
  world := { memory := (((({} : Flat).storeAt 0x0400 (Direction.left.program 0x0500 2)).storeAt 0x0500
    [0xFF, 0x80]).storeAt 0x0600 [0x36, 0x70, 0x6E, 0x60, 0x00]).write 0x60 0x81 }

/-- A number that loses a one when it is doubled, a byte that is turned to and fro, and one that is turned
    nineteen times. -/
theorem exact_shifts_revolving :
    revolving.ram.Lists 0x0400 (Direction.left.program 0x0500 2) ∧ Apart 0x0400 6 0x0500 2 ∧
    revolving.Lasts (.cell 0x60) .left 0x0600 ∧ revolving.Lasts (.cell 0x60) .right 0x0602 ∧
    (∃ q, ((revolving.rounds (List.replicate 2 [])).run {}).1 = (.ok 12, q) ∧
      littleEndian (q.ram.bytesAt 0x0500 2) = 0x01FE ∧ q.registers.flags.carry = true) ∧
    (∃ cycles q, ((revolving.tour [0x0600, 0x0602]).run {}).1 = (.ok cycles, q) ∧
      q.ram.read 0x60 = 0x81 ∧ q.registers.flags.carry = false) ∧
    (∃ cycles q, ((revolving.tour (List.replicate 19 0x0600)).run {}).1 = (.ok cycles, q) ∧
      q.ring (.cell 0x60) = (revolving.ring (.cell 0x60)).rotateLeft 1) ∧
    ((revolving.tour [0x0400, 0x0403]).run {}).1 =
      ((revolving.rounds (List.replicate 2 [])).run {}).1 := by
  have hcode : revolving.ram.Lists 0x0400 (Direction.left.program 0x0500 2) := by
    unfold Flat.Lists
    decide +kernel
  have hapart : Apart 0x0400 6 0x0500 2 := by decide
  have hleft : revolving.Lasts (.cell 0x60) .left 0x0600 :=
    ⟨⟨by decide +kernel, by decide +kernel, by decide +kernel⟩, by decide +kernel⟩
  have hright : revolving.Lasts (.cell 0x60) .right 0x0602 :=
    ⟨⟨by decide +kernel, by decide +kernel, by decide +kernel⟩, by decide +kernel⟩
  have hstraight : Straight [0x0400, 0x0403] revolving := ⟨rfl, by decide +kernel, trivial⟩
  obtain ⟨hshifts, hrotates, hordinary⟩ := exact_shifts revolving {} rfl
  obtain ⟨-, hback, hturns, hlasts⟩ := hrotates (.cell 0x60)
  obtain ⟨q, hrun, hnumber, hcarry, -⟩ := hshifts .left 0x0500 2 (by decide) hcode hapart
  have hvalue : littleEndian (revolving.ram.bytesAt 0x0500 2) = 0x80FF := by decide +kernel
  rw [hvalue] at hnumber hcarry
  have hboth : Rotates (.cell 0x60) [(.left, 0x0600), (.right, 0x0602)] revolving :=
    hlasts _ (by simp [hleft, hright])
  have hmany : Rotates (.cell 0x60) ((List.replicate 19 (0x0600 : UInt16)).map fun address =>
      (.left, address)) revolving :=
    hlasts _ (by simp [hleft])
  exact ⟨hcode, hapart, hleft, hright,
    ⟨q, hrun, hnumber, hcarry.mpr (by unfold Direction.Loses; decide)⟩, hback _ _ hboth,
    hturns .left _ hmany, hordinary _ hstraight⟩

end Processor

end Breadboard
