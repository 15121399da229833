import Breadboard.Cpu.Registers
import Breadboard.Log.Level
import Breadboard.Panel
import Breadboard.Cpu.Instruction
/-
  The journal: what there is to report, which reports are wanted, how many a second, and what has been
  written.

  A notice is data.  Its category and its level decide whether it is written, and only then is it put
  into words.  A category with a level of its own goes by it; a category whose own level is `off` goes by
  the general level.  A wanted message still has to pass its category's limiter.

  Everything that reports does it in `Logged`, whose only access to the journal is `note`: nothing it
  computes can depend on what the journal holds.
-/
namespace Breadboard

/-! ## What a machine has to report while it is built and while it runs -/

/-- What can be reported.  A notice holds what its text needs, so that nothing has to be put into words that
    nobody wants to read. -/
inductive Notice where
  /-- The processor has read where to start. -/
  | resetVector (pc : UInt16)
  /-- An interrupt is being entered instead of the instruction at `pc`. -/
  | servicing (interrupt : Interrupt) (pc : UInt16)
  /-- An instruction is about to be executed. -/
  | trace (pc : UInt16) (instruction : Instruction) (registers : Registers)
  /-- An opcode has no documented meaning. -/
  | unimplemented (opcode : UInt8) (pc : UInt16)
  /-- A run has ended with a fault. -/
  | fatal (fault : Fault)
  /-- A bus was asked for with a width that buses cannot have. -/
  | widthClamped (width clamped : Nat)
  /-- An image is not as long as its chip. -/
  | sizeMismatch (actual capacity : Nat)
  /-- An image file has been read. -/
  | imageLoaded (path : String) (size : Nat)
  | romInstalled (name : String) (capacity : Nat)
  | ramInstalled (capacity : Nat)
  /-- A ROM answers from `base` to `last`. -/
  | romMapped (name : String) (base : UInt16) (last : Nat)
  /-- The image in a file is not as long as the chip it is for. -/
  | fileMismatch (name : String) (actual expected : Nat)
  /-- A run starts at this pace. -/
  | paceStarted (hz : Nat) (quantum : Int) (period : String)
  /-- So many cycles were executed in each of the last seconds. -/
  | clockRate (cyclesPerSecond : Nat)
  /-- A run cannot start at this pace. -/
  | paceRefused (reason : String)
  /-- The clock rate could not be reported. -/
  | reporterFailed
deriving Repr

namespace Notice

/-- The category that a notice goes by.  Faults and start-up belong to the processor, everything about ROM
    images to the devices. -/
def category : Notice → LogCategory
  | .resetVector .. | .trace .. | .unimplemented .. | .fatal .. => .cpu
  | .servicing .. => .interrupts
  | .widthClamped .. => .signals
  | .sizeMismatch .. | .imageLoaded .. | .romInstalled .. | .ramInstalled .. | .romMapped ..
  | .fileMismatch .. => .devices
  | .paceStarted .. | .clockRate .. | .paceRefused .. | .reporterFailed => .scheduler

/-- How much a notice matters: what ends a run is an error, and the trace of instructions is the least of
    all. -/
def level : Notice → LogLevel
  | .fatal .. | .paceRefused .. | .reporterFailed => .error
  | .unimplemented .. | .widthClamped .. | .sizeMismatch .. | .fileMismatch .. => .warn
  | .resetVector .. | .imageLoaded .. | .romMapped .. | .clockRate .. => .info
  | .servicing .. | .romInstalled .. | .ramInstalled .. | .paceStarted .. => .debug
  | .trace .. => .trace

open Text in
/-- A notice in words.  Its first word says who reports; numbers that are bytes or addresses are in
    hexadecimal. -/
def text : Notice → String
  | .resetVector pc => s!"CPU: reset vector -> {Hex.markedAddress pc}"
  | .servicing interrupt pc => s!"CPU: servicing {interrupt.name} at {Hex.markedAddress pc}"
  | .trace pc i r =>
    s!"{Hex.address pc}  {Hex.byte i.opcode} {i.mnemonic.name} {i.mode.name}  A:{Hex.byte r.a} " ++
    s!"X:{Hex.byte r.x} Y:{Hex.byte r.y} P:{Hex.byte r.flags.toByte} SP:{Hex.byte r.sp}"
  | .unimplemented opcode pc => s!"CPU: {(Fault.unimplementedOpcode opcode pc).message}"
  | .fatal fault => s!"CPU: {fault.message}"
  | .widthClamped width clamped => s!"Bus: width {width} clamped to {clamped}"
  | .sizeMismatch actual capacity =>
    s!"Devices: image size {actual} differs from chip size {capacity}"
  | .imageLoaded path size => s!"Devices: loaded {path} ({size} bytes)"
  | .romInstalled name capacity => s!"Devices: ROM {name} installed ({capacity} bytes)"
  | .ramInstalled capacity => s!"Devices: RAM installed ({capacity} bytes)"
  | .romMapped name base last =>
    s!"Machine: ROM {name} mapped at {Hex.markedAddress base}-{Hex.marked 4 last}"
  | .fileMismatch name actual expected =>
    s!"Machine: ROM {name} is {actual} bytes, chip holds {expected}"
  | .paceStarted hz quantum period =>
    s!"Scheduler: started at {hz} Hz, {quantum} cycles every {period}"
  | .clockRate cyclesPerSecond => s!"Scheduler: {cyclesPerSecond} cycles/s"
  | .paceRefused reason => s!"Scheduler: {reason}"
  | .reporterFailed => "Scheduler: worker thread panicked"

end Notice

/-! ## A limit on how many messages pass within a second

A window remembers when it has let messages through, and forgets what is more than a second ago.  While it
remembers as many as the limit, messages are refused and held back as a count.  The first refusal is reported
at once, later ones when a message passes again, or when one is refused a second after the last report:
every refused message is in exactly one report, or still in the count.  Times are nanoseconds on a clock that
never goes back. -/

/-- The nanoseconds of a second, the time in which a limit counts. -/
def second : Nat := 1000000000

/-- What the limiter of a category remembers; at first it has let nothing through and held nothing back. -/
structure LogWindow where
  /-- When the messages were let through that are remembered, the earliest first. -/
  passed : Array Nat := #[]
  /-- The refused messages that no report has covered yet. -/
  heldBack : Nat := 0
  /-- When refused messages were last reported. -/
  reported : Option Nat := none
deriving DecidableEq, Repr, Inhabited

/-- The answer to a message that wants to pass, and what is to be written about earlier ones that did not. -/
structure Verdict where
  passes : Bool
  /-- The number of refused messages to report now, before anything else. -/
  report : Option Nat
deriving DecidableEq, Repr

namespace LogWindow

/-- Whether a message of some time is to be forgotten: it is if that was more than a second ago. -/
def stale (now time : Nat) : Bool :=
  second < now - time

/-- Forgets messages from the earliest on, up to the first that is not more than a second ago. -/
def forget (now : Nat) (w : LogWindow) : LogWindow :=
  -- the earliest is in front, so if it stays, all of them stay
  if w.passed[0]?.any (stale now) then
    { w with passed := (w.passed.toList.dropWhile (stale now)).toArray }
  else w

/-- Lets a message through, and reports whatever has been held back, however short ago the last report was. -/
def pass (now : Nat) (w : LogWindow) : Verdict × LogWindow :=
  let w := { w with passed := w.passed.push now }
  if w.heldBack = 0 then (⟨true, none⟩, w)
  else (⟨true, some w.heldBack⟩, { w with heldBack := 0, reported := some now })

/-- Refuses a message, and reports that unless there was a report within the last second. -/
def refuse (now : Nat) (w : LogWindow) : Verdict × LogWindow :=
  let w := { w with heldBack := w.heldBack + 1 }
  -- a window that has never reported anything may report at once
  if w.reported.all (second ≤ now - ·) then
    (⟨false, some w.heldBack⟩, { w with heldBack := 0, reported := some now })
  else (⟨false, none⟩, w)

/-- The limiter's answer to one message: it forgets what is too old, and then counts what it still
    remembers. -/
def judge (limit now : Nat) (w : LogWindow) : Verdict × LogWindow :=
  let w := w.forget now
  if w.passed.size < limit then w.pass now else w.refuse now

end LogWindow

/-! ## The journal -/

/-- A line of the journal, in the order of writing and with what it takes to print it. -/
inductive LogEntry where
  | message (category : LogCategory) (level : LogLevel) (text : String)
  /-- So many messages of a category were refused. -/
  | dropped (category : LogCategory) (count : Nat)
deriving DecidableEq, Repr

/-- A line as it is printed; what was dropped is told with the name of its category. -/
def LogEntry.text : LogEntry → String
  | .message _ _ text => text
  | .dropped category count =>
    s!"[{category.name}] WARNING: Rate limit exceeded, {count} log message(s) dropped in the " ++
    "last second"

/-- What is wanted, how much of it passes, and what has been written.  Everything is off at first. -/
structure Journal where
  /-- The level of a category without one of its own. -/
  general : LogLevel := .off
  /-- The levels of categories that have one of their own; `off` stands for none. -/
  own : PerCategory LogLevel := .const .off
  /-- How many messages of a category pass in a second. -/
  limit : Nat := 60
  /-- The limiters, which know nothing of each other. -/
  windows : PerCategory LogWindow := .const {}
  /-- What time it is, in nanoseconds. -/
  now : Nat := 0
  /-- What has been written, the latest first. -/
  entries : List LogEntry := []

namespace Journal

/-- Whether a message is wanted.  A category's own level counts only if it is not `off`, which leaves the
    general one in force. -/
def wants (j : Journal) (category : LogCategory) (level : LogLevel) : Bool :=
  if level = .off then false
  else if j.own.get category = .off then level ≤ j.general
  else level ≤ j.own.get category

/-- Gives a category a level of its own; with `off` that level is taken away again. -/
def setOwn (j : Journal) (category : LogCategory) (level : LogLevel) : Journal :=
  { j with own := j.own.set category level }

/-- Turns everything off; the limit and its windows stay, and so does what has been written. -/
def reset (j : Journal) : Journal :=
  { j with general := .off, own := .const .off }

/-- Lets time go by, which is all that moves the clock of the journal. -/
def wait (j : Journal) (nanos : Nat) : Journal :=
  { j with now := j.now + nanos }

/-- Asks the limiter of a category, and puts down what the limiter remembers from then on. -/
def judge (j : Journal) (category : LogCategory) : Verdict × Journal :=
  let (verdict, window) := (j.windows.get category).judge j.limit j.now
  (verdict, { j with windows := j.windows.set category window })

/-- Offers a message, and says whether it was put into words.  The limiter is asked only about a message
    that is wanted. -/
def offer (j : Journal) (category : LogCategory) (level : LogLevel) (text : Unit → String) :
    Bool × Journal :=
  if j.wants category level then
    let (verdict, j) := j.judge category
    let j :=
      -- the limiter is asked only about messages that are wanted, so the others take up none of its room
      match verdict.report with
      | some count => { j with entries := .dropped category count :: j.entries }
      | none => j
    if verdict.passes then
      (true, { j with entries := .message category level (text ()) :: j.entries })
    else (false, j)
  else (false, j)

/-- Offers a notice under its own category and level; its text is only made if it is to be written. -/
def record (j : Journal) (n : Notice) : Journal :=
  (j.offer n.category n.level fun _ => n.text).2

/-- What has been written, in the order of writing; `entries` has it the other way round. -/
def written (j : Journal) : List LogEntry :=
  j.entries.reverse

end Journal

/-- A computation that reports to a journal, and otherwise does not know that there is one. -/
abbrev Logged := StateM Journal

/-- Reports a notice.  This is the only way in which anything gets into the journal of a run. -/
def note (n : Notice) : Logged Unit :=
  modify (·.record n)

end Breadboard
