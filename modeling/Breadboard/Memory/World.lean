import Breadboard.Memory.Bank
import Breadboard.Cpu.Micro
import Breadboard.Panel
/-
  What the processor meets at its pins: a memory of some kind, and the control panel.

  A memory may be anything that answers reads and writes.  Answering may change the panel as well,
  because on a real board an access can make some chip pull an interrupt wire.

  The memories here are the plain ones.  A flat memory is 64 KiB of bytes on all sixteen address lines; it
  answers at once, never touches the panel and does nothing at the end of a cycle.  Around any memory there
  can be a tape recorder, which notes every access and passes it through unchanged, and an attendant, who
  looks at the panel at the end of every clock cycle and may change it.
-/
namespace Breadboard

section

/-- A memory and a panel: what a processor is plugged into. -/
structure World (μ : Type) where
  memory : μ
  panel : Panel := {}
deriving DecidableEq, Repr

/-- What can be wired to the processor's pins: it answers a read with a byte, takes a write, and is told
    when a clock cycle has ended. -/
class Memory (μ : Type) where
  /-- The byte at an address, and the world after the access. -/
  read : UInt16 → World μ → UInt8 × World μ
  /-- The world after a byte has been written. -/
  write : UInt16 → UInt8 → World μ → World μ
  /-- The end of a clock cycle, after an instruction has been executed. -/
  endCycle : World μ → World μ

variable {μ α β : Type} [Memory μ]

/-- Carries out bus traffic, access by access, each in the world that the one before has left. -/
def Traffic.play : Traffic α → World μ → α × World μ
  | .done result, w => (result, w)
  | .read address next, w =>
    let (v, w) := Memory.read address w
    (next v).play w
  | .write address value next, w => next.play (Memory.write address value w)

/-- To carry out two traffics one after the other, the second goes on in the world that the first leaves.
    So a microprogram can be followed step by step. -/
theorem Traffic.play_bind (t : Traffic α) (f : α → Traffic β) (w : World μ) :
    (t >>= f).play w = (f (t.play w).1).play (t.play w).2 := by
  change (t.bind f).play w = _
  induction t generalizing w with
  | done => rfl
  | read a next ih => exact ih _ _
  | write a v next ih => exact ih _

end

/-! ## A flat memory -/

/-- Bytes on all sixteen address lines, all of them zero at first. -/
structure Flat where
  bytes : Bank 16 := .fill 16 0

namespace Flat

/-- The byte at an address; every address has one, and reading changes nothing. -/
def read (m : Flat) (address : UInt16) : UInt8 :=
  m.bytes.read address.toNat

/-- The memory with one byte replaced; every address can be written. -/
def write (m : Flat) (address : UInt16) (v : UInt8) : Flat :=
  ⟨m.bytes.write address.toNat v⟩

/-- Stores bytes from `address` on, wrapping at the end of the address space. -/
def storeAt (m : Flat) (address : UInt16) (bytes : List UInt8) : Flat :=
  ⟨m.bytes.writeAll address.toNat bytes⟩

/-- Puts the address of a handler where the processor looks for it, low byte first. -/
def setVector (m : Flat) (vector target : UInt16) : Flat :=
  (m.write vector (lowByte target)).write (vector + 1) (highByte target)

/-- Loads a program and points the reset vector at it; what does not fit below the end of the address
    space is left out. -/
def loadProgram (m : Flat) (origin : UInt16) (program : List UInt8) : Flat :=
  (m.storeAt origin (program.take (0x10000 - origin.toNat))).setVector resetVector origin

/-- The law of a flat memory: an address holds what was written there last, and no two addresses are the
    same cell. -/
theorem read_write (m : Flat) (a c : UInt16) (v : UInt8) :
    (m.write a v).read c = if c = a then v else m.read c := by
  simp only [read, write, Bank.read_write, address_mod_span, UInt16.toNat_inj]

end Flat

instance : Memory Flat where
  read address w := (w.memory.read address, w)
  write address v w := { w with memory := w.memory.write address v }
  endCycle w := w

/-! ## A memory with a tape recorder on the bus -/

/-- One access as it is put on tape: which way, where, and the byte that was moved. -/
inductive BusAccess where
  | read (address : UInt16) (value : UInt8)
  | write (address : UInt16) (value : UInt8)
deriving DecidableEq, Repr

open Text in
/-- The letter R or W, the address, and the byte that was moved. -/
def BusAccess.text : BusAccess → String
  | .read a v => s!"R{Hex.address a}:{Hex.byte v}"
  | .write a v => s!"W{Hex.address a}:{Hex.byte v}"

/-- A memory and the tape of all accesses to it, the latest first. -/
structure Recorded (μ : Type) where
  memory : μ
  tape : List BusAccess := []

namespace Recorded

variable {μ : Type}

/-- The world without the recorder, in which the accesses are carried out. -/
def bare (w : World (Recorded μ)) : World μ :=
  { w with memory := w.memory.memory }

/-- The world with the recorder back on, and this on its tape. -/
def record (w : World μ) (tape : List BusAccess) : World (Recorded μ) :=
  { w with memory := { memory := w.memory, tape } }

end Recorded

open Recorded in
instance {μ : Type} [Memory μ] : Memory (Recorded μ) where
  read address w :=
    let (v, after) := Memory.read address (bare w)
    (v, record after (.read address v :: w.memory.tape))
  write address v w :=
    record (Memory.write address v (bare w)) (.write address v :: w.memory.tape)
  endCycle w := record (Memory.endCycle (bare w)) w.memory.tape

/-! ## A memory with somebody at the panel -/

/-- A memory, an attendant's memory of the past, and what the attendant does after each clock cycle. -/
structure Attended (σ μ : Type) where
  memory : μ
  state : σ
  act : σ → Panel → σ × Panel

namespace Attended

variable {σ μ : Type}

/-- The world without the attendant, who has nothing to do with accesses. -/
def bare (w : World (Attended σ μ)) : World μ :=
  { w with memory := w.memory.memory }

/-- The world with an attendant, who remembers `state` and will do `act`. -/
def attend (w : World μ) (state : σ) (act : σ → Panel → σ × Panel) : World (Attended σ μ) :=
  { w with memory := { memory := w.memory, state, act } }

end Attended

open Attended in
instance {σ μ : Type} [Memory μ] : Memory (Attended σ μ) where
  read address w :=
    let (v, after) := Memory.read address (bare w)
    (v, attend after w.memory.state w.memory.act)
  write address v w :=
    attend (Memory.write address v (bare w)) w.memory.state w.memory.act
  endCycle w :=
    let after := Memory.endCycle (bare w)
    let (state, panel) := w.memory.act w.memory.state after.panel
    attend { after with panel } state w.memory.act

end Breadboard
