import Breadboard.Chip.FileTree
import Breadboard.Console.Arguments
import Breadboard.Machine.Run
/-
  A session: from the command line to the machine's run and the report on how it ended.

  A session is a value.  It is prepared from the arguments and the files, and what is left for the outside
  is to let time pass while the machine runs, to write the state file, and to print.  `Session.start` is
  a whole session on files that are kept in memory.

  The log file is opened before anything is read, so it is there, if only empty, when the description
  and the images are.

  Levels: all categories go by the level asked for, except that the scheduler reports at least what is
  of interest on every run.  A level for the processor goes before the general one; to trace every
  instruction also lifts the limit on messages.
-/
namespace Breadboard.Console

/-! ## Paths, as far as a machine's description needs them

The files a description names lie next to the description, unless their path starts at the root. -/

namespace Path

/-- Whether a path starts at the root, wherever it is used. -/
def isAbsolute (path : String) : Bool :=
  path.startsWith "/"

/-- Whether a part of a path says nothing, so that the path leads to the same place without it. -/
def isSilent (part : String) : Bool :=
  part = "" || part = "."

/-- Parts, the last one first, without the silent ones at the end; the first part stays in any case. -/
def trimEnd : List String → List String
  | [] => []
  | [first] => [first]
  | last :: rest => if isSilent last then trimEnd rest else last :: rest

/-- A path up to and without its last part; what stands between says nothing and goes too. -/
def parent (path : String) : String :=
  let kept := ((path.splitOn "/").reverse.dropWhile isSilent).drop 1
  match (trimEnd kept).reverse with
  -- what is left is the root
  | [""] => "/"
  | shown => String.intercalate "/" shown

/-- A path from a directory on.  What starts at the root stays as it is. -/
def join (directory path : String) : String :=
  if isAbsolute path || directory = "" then path
  else if directory.endsWith "/" then directory ++ path
  else directory ++ "/" ++ path

end Path

/-! ## Errors -/

/-- Why a session ends without success.  Whatever the reason, the exit code is the same. -/
inductive SessionError where
  /-- A file was needed for something and could not be used. -/
  | file (purpose : String) (reason : FileError)
  /-- A file was read, but it does not describe a machine. -/
  | parsing (path : String)
  /-- The machine could not be built, or its run ended at a fault. -/
  | machine (reason : MachineError)
  /-- The state could not be written. -/
  | state (reason : FileError)
deriving DecidableEq, Repr

/-- What lies behind an error, in a line of its own.  What a parser finds wrong with a description it says
    in its own words, which are left out here. -/
def SessionError.cause? : SessionError → Option String
  | .file _ reason => some reason.message
  | .machine (.chip (.imageLoad _ reason)) => some reason.message
  | .machine (.pace reason) => some reason.message
  | .parsing _ | .machine _ | .state _ => none

/-- What went wrong, in one line; what lies behind it is told apart from that. -/
def SessionError.message : SessionError → String
  | .file purpose _ => purpose
  | .parsing path => s!"parsing {path}"
  | .machine reason => reason.message
  | .state reason => reason.message

/-- An error as it is printed: what went wrong, and below it the cause. -/
def SessionError.lines (e : SessionError) : List String :=
  let heading := s!"Error: {e.message}"
  match e.cause? with
  | none => [heading]
  | some cause => [heading, "", "Caused by:", s!"    {cause}"]

/-- The journal that the arguments ask for.  The level of the processor goes into the same place as any
    category's own level, where `off` stands for none. -/
def Arguments.journal (arguments : Arguments) : Journal :=
  let j : Journal := { general := arguments.logLevel }
  let j := j.setOwn .scheduler (arguments.logLevel.max .info)
  match arguments.logCpu with
  -- the category has `off` from the beginning, so it goes by the general level
  | none => j
  | some level =>
    let j := j.setOwn .cpu level
    if level = .trace then { j with limit := UInt64.size - 1 } else j

/-- The description with what the arguments say instead, and its ROMs next to it. -/
def Arguments.apply (arguments : Arguments) (config : MachineConfig) : MachineConfig :=
  let directory := Path.parent arguments.machine
  let pace := config.pace
  { pace := {
      targetHz := arguments.hz.getD pace.targetHz
      ticksPerSecond := arguments.ticks.getD pace.ticksPerSecond
      reportInterval :=
        match arguments.reportSecs with
        | none => pace.reportInterval
        -- zero seconds between two reports means none at all
        | some secs => if secs = 0 then none else some secs }
    roms := config.roms.map fun rom => { rom with path := Path.join directory rom.path } }

/-- A machine ready to run, the pace of its run, and the arguments that both come from. -/
structure Session where
  arguments : Arguments
  pace : Pace
  machine : Machine

namespace Session

/-- Reads the description that the arguments name, and puts in what they say instead of it. -/
def describe (arguments : Arguments) (files : Files) : Except SessionError MachineConfig := do
  let path := arguments.machine
  let bytes ←
    match files path with
    | .ok bytes => pure bytes
    | .error reason => throw (.file s!"reading {path}" reason)
  let text ←
    -- a description that is no text counts as one that cannot be read
    match String.fromUTF8? ⟨bytes⟩ with
    | some text => pure text
    | none => throw (.file s!"reading {path}" (.other "stream did not contain valid UTF-8"))
  match MachineConfig.ofText? text with
  | some config => return arguments.apply config
  | none => throw (.parsing path)

/-- The outcome of building, as the outcome of a session; what it reports is reported in either case. -/
def building {α : Type} (b : Building α) : ExceptT SessionError Logged α := do
  match ← b.run with
  | .ok v => return v
  | .error reason => throw (.machine reason)

/-- Builds the machine that the arguments ask for: the description first, then the images, then the
    machine. -/
def prepare (arguments : Arguments) (files : Files) : ExceptT SessionError Logged Session := do
  let config ←
    match describe arguments files with
    | .ok config => pure config
    | .error e => throw e
  let slots ← building (RomSlot.ofConfig files config)
  let machine ← building (Machine.build slots {})
  return { arguments, pace := config.pace, machine }

/-- The text for the state file: the machine's state at the end of the run, however it has ended. -/
def stateText (s : Session) : String :=
  s.machine.toJson.pretty ""

/-- How a session ends: the exit code, what goes to the standard output, what goes to the terminal as
    an error, and whether a state file is written, and with what. -/
structure Report where
  exit : Nat
  output : String := ""
  errors : List String := []
  stateFile : Option (String × String) := none

/-- The report on a session that came to nothing: no output, and the error. -/
def failure (e : SessionError) : Report :=
  { exit := 1, errors := e.lines }

/-- The report on a run.  A fault also shows the registers, and the state is written whatever the outcome. -/
def conclude (s : Session) (outcome : Except MachineError Machine.RunOutcome) : Report :=
  let ending : Report :=
    match outcome with
    | .ok _ => { exit := 0 }
    -- only after a fault does it matter where the processor was
    | .error (.fault fault) =>
      { failure (.machine (.fault fault)) with output := s.machine.registers.toJson.pretty "" ++ "\n" }
    | .error reason => failure (.machine reason)
  { ending with stateFile := s.arguments.state.map (·, s.stateText) }

/-- What becomes of a report when its state file is to be written and this is how that goes: a file that
    cannot be written is all there is to say. -/
def Report.afterWriting (r : Report) : Except FileError Unit → Report
  | .ok () => r
  | .error reason => failure (.state reason)

/-- The report after its state file, if it has one, has been written, and the files then. -/
def Report.save (r : Report) (tree : FileTree) : Report × FileTree :=
  match r.stateFile with
  | none => (r, tree)
  | some (path, text) =>
    match tree.write path text.toUTF8.data with
    | .ok tree => (r, tree)
    | .error reason => (r.afterWriting (.error reason), tree)

/-- Runs the machine for at most so many instructions and waits; what is left of the session is there for
    the report. -/
def run (s : Session) (fuel : Nat) : Logged (Except MachineError Machine.RunOutcome × Session) := do
  let (outcome, machine) ← s.machine.run s.pace fuel
  return (outcome, { s with machine })

/-- One tick of the clock: it grants a quantum, and the machine runs as far as that goes. -/
def tick (s : Session) (quantum : Int64) : Logged (Ending × Session) := do
  let granted := s.machine.processor.onPanel (·.grant quantum)
  let (ending, p) ← granted.runLoop (fun _ => none) (quantum.toInt.toNat + 2)
  return (ending, { s with machine := s.machine.withProcessor p })

/-- Reports how many cycles were executed in each of the last seconds, and lets the counting begin again. -/
def reportRate (s : Session) (seconds : UInt64) : Logged Session := do
  let (executed, budget) := s.machine.panel.budget.takeExecuted
  note (.clockRate (executed / seconds).toNat)
  return { s with machine := s.machine.onPanel ({ · with budget }) }

/-- The error when the log file cannot be opened; nothing has been read then. -/
def logError (path : String) (reason : FileError) : SessionError :=
  .file s!"opening log file {path}" reason

/-- The files once the log file, if there is to be one, has been opened. -/
def openLog (arguments : Arguments) (tree : FileTree) : Except SessionError FileTree :=
  match arguments.logFile with
  | none => .ok tree
  | some path => (tree.touch path).mapError (logError path)

/-- The files once the log file, if there is one, has got the lines of the journal.  A line that it has
    no room for is lost. -/
def saveLog (arguments : Arguments) (journal : Journal) (tree : FileTree) : FileTree :=
  match arguments.logFile, journal.written with
  | none, _ | _, [] => tree
  | some path, entries =>
    let text := String.join (entries.map (·.text ++ "\n"))
    (tree.append path text.toUTF8.data).toOption.getD tree

/-- A whole session in which the machine runs for at most so many instructions and waits, and the files
    after it. -/
def start (arguments : Arguments) (tree : FileTree) (fuel : Nat) : Logged (Report × FileTree) := do
  match openLog arguments tree with
  | .error e => return (failure e, tree)
  | .ok tree =>
    match ← (prepare arguments tree.read).run with
    | .error e => return (failure e, saveLog arguments (← get) tree)
    | .ok s =>
      let (outcome, s) ← s.run fuel
      return (s.conclude outcome).save (saveLog arguments (← get) tree)

end Session

end Breadboard.Console
