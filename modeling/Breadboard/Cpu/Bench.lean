import Breadboard.Circuit.Dispatch
import Breadboard.Cpu.Processor
import Breadboard.Memory.World
import Breadboard.Pacing.Desk
/-
  A test bench: a processor on a flat memory, with a tape recorder on its bus, and three wires that can
  be attached to its interrupt inputs.
-/
namespace Breadboard

/-- A processor on a bench, with a flat memory behind a tape recorder and the three input wires in reach. -/
structure Bench where
  /-- The processor, its memory and the tape. -/
  processor : Processor (Recorded Flat)
  /-- The three wires. -/
  wires : Fabric := {}

namespace Bench

/-- A bench with this memory, an empty tape, and nothing requested. -/
def ofMemory (memory : Flat) : Bench :=
  { processor := { world := { memory := { memory } } } }

/-- The memory of a bench, without the tape recorder that is around it. -/
def memory (b : Bench) : Flat :=
  b.processor.world.memory.memory

/-- Changes the memory past the recorder, so that nothing of it is on the tape. -/
def onMemory (b : Bench) (f : Flat → Flat) : Bench :=
  let p := b.processor
  let recorded := { p.world.memory with memory := f b.memory }
  { b with processor := { p with world := { p.world with memory := recorded } } }

/-- The panel of the processor on the bench, as its front end sees it. -/
def panel (b : Bench) : Panel :=
  b.processor.world.panel

/-- Changes the panel of the processor on the bench, as anybody may between two instructions. -/
def onPanel (b : Bench) (f : Panel → Panel) : Bench :=
  { b with processor := b.processor.onPanel f }

/-- The wire for an input; the three are the only wires that the bench has. -/
def wire : Request → WireId
  | .nmi => ⟨0⟩
  | .irq => ⟨1⟩
  | .reset => ⟨2⟩

/-- Attaches the wires to the inputs: each latches its request when it is driven low. -/
def attach (b : Bench) : Bench :=
  { b with
    wires := [Request.nmi, .irq, .reset].foldl
      (fun f kind => f.listen (wire kind) .low (.request kind)) b.wires }

/-- Drives the wire for an input; the result is the level it had. -/
def drive (b : Bench) (kind : Request) (level : Level) : Level × Bench :=
  let (previous, circuit) := Circuit.drive (wire kind) level ⟨b.wires, b.panel⟩
  (previous, { b.onPanel (fun _ => circuit.panel) with wires := circuit.memory })

/-- Takes the tape, in the order of the accesses, and puts in an empty one. -/
def takeTape (b : Bench) : List BusAccess × Bench :=
  let p := b.processor
  let recorded := { p.world.memory with tape := [] }
  (p.world.memory.tape.reverse,
    { b with processor := { p with world := { p.world with memory := recorded } } })

/-- Runs by a plan, under a control of the run's own; the plan as it is in the end counts the
    instructions. -/
def runPlan (b : Bench) (plan : Plan) (control : Control) (fuel : Nat) :
    Logged (Ending × Plan × Bench) := do
  let (plan, panel) := plan.start { b.panel with control }
  let world := Attended.attend { b.processor.world with panel } plan Plan.act
  let (ending, p) ←
    ({ registers := b.processor.registers, world } : Processor (Attended Plan (Recorded Flat))).runLoop
      (fun _ => none) fuel
  let processor := { registers := p.registers, world := Attended.bare p.world }
  return (ending, p.world.memory.state, { b with processor })

end Bench

end Breadboard
