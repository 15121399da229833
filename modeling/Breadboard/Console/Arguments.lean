import Breadboard.Log.Level
import Breadboard.Pacing.Pace
/-
  The command line.

  There is one argument, the path of a machine's description, and options that all take a value.  The
  value follows its option as the next argument, or after an equals sign; as the next argument it must
  not look like an option itself.  Each option may be given once.  Two dashes end the options.
-/
namespace Breadboard.Console

/-- The options, each with its value as it was given; none of them goes without a value. -/
inductive Setting where
  | hz
  | ticks
  | reportSecs
  | seconds
  | logLevel
  | logCpu
  | logFile
  | state
deriving DecidableEq, Repr

/-- The option of a name, which has to be given in full. -/
def Setting.ofName? : String → Option Setting
  | "--hz" => some .hz
  | "--ticks" => some .ticks
  | "--report-secs" => some .reportSecs
  | "--seconds" => some .seconds
  | "--log-level" => some .logLevel
  | "--log-cpu" => some .logCpu
  | "--log-file" => some .logFile
  | "--state" => some .state
  | _ => none

/-- What is wrong with a command line, the first thing only. -/
inductive UsageError where
  | unknown (argument : String)
  | missingValue (option : String)
  | repeated (option : String)
  | missingMachine
  | badValue (text : String)
  /-- Nothing is wrong: the user wants to know what the options are. -/
  | helpWanted
deriving DecidableEq, Repr

/-- The arguments sorted out: the options with their values, and the rest, both in the order they were given
    in. -/
structure Given where
  settings : List (Setting × String) := []
  plain : List String := []

namespace Given

/-- Takes one more option; an option that was given before may not be given again. -/
def add (g : Given) (name : String) (setting : Setting) (value : String) :
    Except UsageError Given :=
  if g.settings.any (·.1 = setting) then .error (.repeated name)
  else .ok { g with settings := g.settings ++ [(setting, value)] }

/-- A name and a value on both sides of the first equals sign, if there is one. -/
def split (argument : String) : String × Option String :=
  let cs := argument.toList
  match cs.dropWhile (· ≠ '=') with
  -- there is no equals sign
  | [] => (argument, none)
  | _ :: value => (String.ofList (cs.takeWhile (· ≠ '=')), some (String.ofList value))

/-- Whether an argument cannot be a value or the machine's path; a single dash can. -/
def looksLikeOption (argument : String) : Bool :=
  argument.startsWith "-" && argument ≠ "-"

/-- Sorts arguments out, from the first to the last.  After two dashes nothing is an option any more. -/
def ofArguments : List String → Given → Except UsageError Given
  | [], g => .ok g
  -- whatever follows is a path, even if it looks like an option
  | "--" :: rest, g => .ok { g with plain := g.plain ++ rest }
  | argument :: rest, g =>
    if looksLikeOption argument then
      if argument = "--help" || argument = "-h" then .error .helpWanted
      else
        let (name, value) := split argument
        match Setting.ofName? name, value, rest with
        | none, _, _ => .error (.unknown argument)
        | some setting, some value, rest => do ofArguments rest (← g.add name setting value)
        -- the option was the last argument, so there is nothing that could be its value
        | some _, none, [] => .error (.missingValue name)
        | some setting, none, next :: rest =>
          if looksLikeOption next then .error (.missingValue name)
          else do ofArguments rest (← g.add name setting next)
    else ofArguments rest { g with plain := g.plain ++ [argument] }

/-- The value of an option as it was given, if it was given at all. -/
def value? (g : Given) (setting : Setting) : Option String :=
  g.settings.lookup setting

end Given

/-! ## Values -/

/-- A number written with digits only, at least one; how large it may be is not asked here. -/
def digitsValue? (text : List Char) : Option Nat :=
  if text ≠ [] && text.all (fun c => '0' ≤ c && c ≤ '9') then
    some (text.foldl (fun n c => 10 * n + (c.toNat - 48)) 0)
  else none

/-- A natural number, with a plus sign if one likes; a minus sign is taken for no number. -/
def natural? (text : String) : Option Nat :=
  match text.toList with
  | '+' :: digits => digitsValue? digits
  | digits => digitsValue? digits

/-- A number that may have either sign, but must not be below zero. -/
def signedNatural? (text : String) : Option Nat :=
  match text.toList with
  | '-' :: digits => do
    -- of all numbers with a minus sign only zero is not below zero
    if (← digitsValue? digits) = 0 then some 0 else none
  | _ => natural? text

/-- What a user asks for, with defaults for everything but the machine.  An option that is not given leaves
    it to the description. -/
structure Arguments where
  /-- The path of the machine's description. -/
  machine : String
  hz : Option UInt64 := none
  ticks : Option UInt32 := none
  reportSecs : Option UInt64 := none
  /-- After how many seconds the run is stopped. -/
  seconds : Option UInt64 := none
  logLevel : LogLevel := .warn
  logCpu : Option LogLevel := none
  /-- Where reports go instead of the terminal. -/
  logFile : Option String := none
  /-- Where the machine's state goes at the end. -/
  state : Option String := none
deriving DecidableEq, Repr

namespace Arguments

/-- Reads the value of an option, if it is given; a value that cannot be read is an error. -/
def read {α : Type} (g : Given) (setting : Setting) (parse : String → Option α) :
    Except UsageError (Option α) :=
  match g.value? setting with
  | none => .ok none
  | some text =>
    match parse text with
    | none => .error (.badValue text)
    | some v => .ok (some v)

/-- A number that a word of 64 bits can hold. -/
def long? (text : String) : Option UInt64 := do
  let n ← natural? text
  if n < UInt64.size then some (UInt64.ofNat n) else none

/-- A number that a word of 32 bits can hold; a zero may have a minus sign. -/
def short? (text : String) : Option UInt32 := do
  let n ← signedNatural? text
  if n < UInt32.size then some (UInt32.ofNat n) else none

/-- A path is any text but the empty one; where it leads is found out later. -/
def path? (text : String) : Option String :=
  if text.isEmpty then none else some text

/-- The arguments of a command line, or what is wrong with them.  There has to be one machine, and no more. -/
def ofList (arguments : List String) : Except UsageError Arguments := do
  let g ← Given.ofArguments arguments {}
  match g.plain with
  | [] => throw .missingMachine
  | [machine] =>
    let some machine := path? machine | throw (.badValue machine)
    return {
      machine
      hz := ← read g .hz long?
      ticks := ← read g .ticks short?
      reportSecs := ← read g .reportSecs long?
      seconds := ← read g .seconds long?
      logLevel := (← read g .logLevel LogLevel.ofText?).getD .warn
      logCpu := ← read g .logCpu LogLevel.ofText?
      logFile := ← read g .logFile path?
      state := ← read g .state path? }
  | _ :: extra :: _ => throw (.unknown extra)

end Arguments

end Breadboard.Console
