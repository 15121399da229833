import Breadboard.Console.Session
/-
  The program.  It hands the command line and the files to a session, lets it run in time with the clock
  on the wall, and prints what the session reports.
-/
namespace Breadboard.Console

/-- The words of the operating system for an error of its own; the sign of the number does not count. -/
def systemError (code : UInt32) (details : String) : FileError :=
  .other s!"{details.capitalize} (os error {min code (0 - code)})"

/-- Why a file could not be used, by the number that the system gives the reason. -/
def fileError (e : IO.Error) : FileError :=
  match e with
  | .noFileOrDirectory .. => .notFound
  | .inappropriateType _ 21 _ => .isDirectory
  | .inappropriateType .. => .notDirectory
  | .permissionDenied _ code details | .invalidArgument _ code details
  | .resourceExhausted _ code details | .otherError code details | .resourceBusy code details
  | .hardwareFault code details => systemError code details
  | _ => .other (toString e)

/-- What comes of working with a file; an exception is the error that it stands for. -/
def attempt {α : Type} (work : IO α) : IO (Except FileError α) := do
  try
    return .ok (← work)
  catch e => return .error (fileError e)

/-- The contents of a file, or why they could not be read. -/
def readFile (path : String) : IO (Except FileError (Array UInt8)) :=
  attempt do return (← IO.FS.readBinFile path).data

/-- Opens the log file, if there is to be one, so that it is there from the beginning. -/
def openLog (arguments : Arguments) : IO (Except SessionError Unit) :=
  match arguments.logFile with
  | none => return .ok ()
  | some path => do
    let opened ← attempt (discard <| IO.FS.Handle.mk path .append)
    return opened.mapError (Session.logError path)

/-- The ROM files that a description names; if it cannot be read there are none. -/
def romPaths (arguments : Arguments) (description : Except FileError (Array UInt8)) : List String :=
  match Session.describe arguments fun _ => description with
  | .ok config => config.roms.map (·.path)
  | .error _ => []

/-- The files that a session needs, read before the session begins. -/
def collect (arguments : Arguments) : IO Files := do
  let description ← readFile arguments.machine
  let images ← (romPaths arguments description).mapM fun path => return (path, ← readFile path)
  let files := (arguments.machine, description) :: images
  -- nothing else is asked for: a session reads its description and the images that this names
  return fun path => (files.lookup path).getD (.error .notFound)

/-- Prints what has been written to the journal since the last time, to the log file or to the terminal. -/
def flush (arguments : Arguments) (j : Journal) : IO Journal := do
  let lines := j.written.map (·.text)
  match arguments.logFile, lines with
  | none, lines => lines.forM (IO.eprintln ·)
  -- the file is not touched if there is nothing to add
  | some _, [] => pure ()
  | some path, lines =>
    let handle ← IO.FS.Handle.mk path .append
    lines.forM (handle.putStrLn ·)
  return { j with entries := [] }

/-- Lets the journal know what time it is, on the clock of the system that does not go back. -/
def onTime (j : Journal) : IO Journal :=
  return j.wait ((← IO.monoNanosNow) - j.now)

/-- What is due as a number of seconds is over: perhaps the clock rate is reported. -/
def onSecond (s : Session) (second : Nat) : Logged Session := do
  match s.pace.reportInterval with
  | none => return s
  | some interval =>
    if interval ≠ 0 && second % interval.toNat = 0 then s.reportRate interval else return s

/-- The nanoseconds since the run began, after a wait for so many of them to be over. -/
def waitUntil (began deadline : Nat) : IO Nat := do
  let elapsed := (← IO.monoNanosNow) - began
  -- sleeping can take longer than was asked for, so the clock is read again
  if elapsed < deadline then IO.sleep (UInt32.ofNat ((deadline - elapsed) / 1000000))
  return (← IO.monoNanosNow) - began

/-- One tick after the other, until the run ends or its time is up.  The run began at `began`; the last
    tick was due at `deadline`, in second number `second`. -/
partial def runInTime (s : Session) (quantum : Int64) (began deadline second : Nat) (j : Journal) :
    IO (Except MachineError Machine.RunOutcome × Session × Journal) := do
  let ((ending, s), j) := (s.tick quantum).run (← onTime j)
  let j ← flush s.arguments j
  match ending with
  | .failed fault => return (.error (.fault fault), s, j)
  | .stopped => return (.ok (.stopped s.machine.registers.cycles), s, j)
  | .stuck | .outOfFuel =>
    -- the credit has been used up, so there is time to wait for the next tick
    let due := deadline + s.pace.periodNanos
    let now ← waitUntil began due
    if s.arguments.seconds.any fun seconds => seconds.toNat * 1000000000 ≤ now then
      return (.ok .unfinished, s, j)
    let j ← onTime j
    let (s, j) :=
      if second < now / 1000000000 then (onSecond s (now / 1000000000)).run j else (s, j)
    runInTime s quantum began (s.pace.catchUp due now) (now / 1000000000) j

/-- Writes a file, down to its last byte, so that a full disk is found out. -/
def writeFile (path text : String) : IO (Except FileError Unit) :=
  attempt do
    let handle ← IO.FS.Handle.mk path .write
    handle.putStr text
    handle.flush

/-- Writes the state, prints the report, and gives the exit code.  If the state cannot be written, that is
    the report. -/
def finish (r : Session.Report) : IO UInt32 := do
  let r ←
    match r.stateFile with
    | none => pure r
    | some (path, text) => pure (r.afterWriting (← writeFile path text))
  (← IO.getStdout).putStr r.output
  r.errors.forM (IO.eprintln ·)
  return UInt32.ofNat r.exit

/-- Runs a prepared session at its pace and in time with the clock of the system. -/
def perform (s : Session) (j : Journal) : IO UInt32 := do
  let (started, j) := s.pace.start (← onTime j)
  let j ← flush s.arguments j
  match started with
  | .error reason => finish (s.conclude (.error (.pace reason)))
  | .ok quantum =>
    let (outcome, s, j) ← runInTime s quantum (← IO.monoNanosNow) 0 0 j
    let ((), j) := s.pace.finish (← onTime j)
    discard <| flush s.arguments j
    finish (s.conclude outcome)

/-- Prepares a session and runs it; what preparing reports is printed before the run begins. -/
def launch (arguments : Arguments) : IO UInt32 := do
  let files ← collect arguments
  let (prepared, j) := (Session.prepare arguments files).run (← onTime arguments.journal)
  let j ← flush arguments j
  match prepared with
  | .error e => finish (Session.failure e)
  | .ok s => perform s j

/-- The options, for whoever asks or gets them wrong; the exit code tells the two apart. -/
def usage : List String := [
  "usage: MACHINE [--hz N] [--ticks N] [--report-secs N] [--seconds N]",
  "               [--log-level L] [--log-cpu L] [--log-file PATH] [--state PATH]"]

end Breadboard.Console

open Breadboard.Console in
/-- The program: its arguments are read first, and the log file is opened before anything else is done. -/
def main (arguments : List String) : IO UInt32 := do
  match Arguments.ofList arguments with
  | .error .helpWanted =>
    usage.forM (IO.println ·)
    return 0
  | .error _ =>
    usage.forM (IO.eprintln ·)
    return 2
  | .ok arguments =>
    match ← openLog arguments with
    | .error e => finish (Session.failure e)
    | .ok () => launch arguments
