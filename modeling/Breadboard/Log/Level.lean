/-
  How much is reported, and by which part of the machine.

  Levels are ordered from `off`, which reports nothing, to `trace`, which reports every instruction.
  `LogLevel.ofText?` reads a level as a user writes it: by name or by rank, in either case.
-/
namespace Breadboard

/-- How much is wanted, or how much a message matters.  Every level takes in those before it. -/
inductive LogLevel where
  | off
  | error
  | warn
  | info
  | debug
  | trace
deriving DecidableEq, Repr, Inhabited

namespace LogLevel

/-- The place of a level in the order, counted from nothing to everything. -/
def rank : LogLevel → Nat
  | .off => 0
  | .error => 1
  | .warn => 2
  | .info => 3
  | .debug => 4
  | .trace => 5

instance : LE LogLevel where
  le a b := a.rank ≤ b.rank

instance (a b : LogLevel) : Decidable (a ≤ b) :=
  inferInstanceAs (Decidable (a.rank ≤ b.rank))

/-- The level that reports more; for two that are alike it does not matter which. -/
def max (a b : LogLevel) : LogLevel :=
  if a ≤ b then b else a

/-- What a level is called when it is shown, with a capital letter. -/
def name : LogLevel → String
  | .off => "Off"
  | .error => "Error"
  | .warn => "Warn"
  | .info => "Info"
  | .debug => "Debug"
  | .trace => "Trace"

/-- A level by its name, a short form of it, or its rank; capitals do not matter. -/
def ofText? (text : String) : Option LogLevel :=
  match String.ofList (text.toList.map Char.toLower) with
  | "off" | "0" => some .off
  | "error" | "err" | "1" => some .error
  | "warn" | "warning" | "2" => some .warn
  | "info" | "3" => some .info
  | "debug" | "4" => some .debug
  | "trace" | "5" => some .trace
  | _ => none

/-- What is said of a text that names no level; the text is repeated as it was given. -/
def unknownMessage (text : String) : String :=
  s!"unknown log level: {text}"

end LogLevel

/-- The part of the machine that reports.  Each has a limiter of its own, and may have a level of its own. -/
inductive LogCategory where
  /-- Instructions, and faults that end a run. -/
  | cpu
  /-- Wires and buses. -/
  | signals
  /-- Chips and their images. -/
  | devices
  /-- Interrupts that are serviced. -/
  | interrupts
  /-- The clock and the credit it grants. -/
  | scheduler
deriving DecidableEq, Repr, Inhabited

/-- What a category is called in the lines that the limiter writes. -/
def LogCategory.name : LogCategory → String
  | .cpu => "Cpu"
  | .signals => "Signals"
  | .devices => "Devices"
  | .interrupts => "Interrupts"
  | .scheduler => "Scheduler"

/-! ## Something for each category -/

/-- Something that there is once for each category, like levels and limiters. -/
structure PerCategory (α : Type) where
  cpu : α
  signals : α
  devices : α
  interrupts : α
  scheduler : α
deriving DecidableEq, Repr

namespace PerCategory

variable {α : Type}

/-- The same for all of them, as it is before anything has been set. -/
def const (v : α) : PerCategory α :=
  ⟨v, v, v, v, v⟩

/-- The one of a category, out of one for each. -/
def get (p : PerCategory α) : LogCategory → α
  | .cpu => p.cpu
  | .signals => p.signals
  | .devices => p.devices
  | .interrupts => p.interrupts
  | .scheduler => p.scheduler

/-- Puts down a new one for a category; the other four stay as they are. -/
def set (p : PerCategory α) (c : LogCategory) (v : α) : PerCategory α :=
  match c with
  | .cpu => { p with cpu := v }
  | .signals => { p with signals := v }
  | .devices => { p with devices := v }
  | .interrupts => { p with interrupts := v }
  | .scheduler => { p with scheduler := v }

/-- What was put down for a category is what is found there, and for the others it has made no difference. -/
theorem get_set (p : PerCategory α) (c d : LogCategory) (v : α) :
    (p.set c v).get d = if d = c then v else p.get d := by
  cases c <;> cases d <;> rfl

/-- With the same everywhere it does not matter which is looked up. -/
theorem get_const (v : α) (c : LogCategory) : (const v).get c = v := by
  cases c <;> rfl

end PerCategory

end Breadboard
