import Breadboard.Log.Journal
/-
  The pace of a run: how many cycles a second, and in how many grants.

  A second's cycles are divided evenly over its ticks, and what does not divide is left out.  A pace
  at which a tick would grant nothing is refused.
-/
namespace Breadboard

/-- How fast a run is to be, and how often it reports.  What a description does not give has the value that
    it has here. -/
structure Pace where
  /-- Cycles per second. -/
  targetHz : UInt64 := 985000
  /-- Grants per second; none counts as one. -/
  ticksPerSecond : UInt32 := 477
  /-- Seconds between reports on the clock rate. -/
  reportInterval : Option UInt64 := some 4
deriving DecidableEq, Repr, Inhabited

/-- Why a run cannot start: there is only this one reason. -/
inductive PaceError where
  /-- A tick at this pace grants no cycles. -/
  | grantsNothing (targetHz : UInt64) (ticksPerSecond : UInt32)
deriving DecidableEq, Repr

/-- The refusal in words, with the two numbers that do not go together. -/
def PaceError.message : PaceError → String
  | .grantsNothing hz ticks =>
    s!"{hz.toNat} Hz at {ticks.toNat} ticks/s grants no cycles per tick"

namespace Pace

/-- The ticks that a second is divided into; a second has at least one. -/
def ticks (p : Pace) : Nat :=
  max p.ticksPerSecond.toNat 1

/-- Cycles granted by one tick, as a signed word; a share that such a word cannot hold comes out below
    zero. -/
def quantum (p : Pace) : Int64 :=
  -- from 2 to the 63 on this comes out negative, and such a pace is refused like one that grants nothing
  Int64.ofNat (p.targetHz.toNat / p.ticks)

/-- Nanoseconds from one tick to the next; what does not divide evenly is left out. -/
def periodNanos (p : Pace) : Nat :=
  1000000000 / p.ticks

/-- From when on the next period is counted, if a tick was due at `due` and it is `now`: a tick that is
    late by more than a period is not made up for. -/
def catchUp (p : Pace) (due now : Nat) : Nat :=
  if due + p.periodNanos < now then now else due

/-- A whole number of units and a fraction of one, without zeros at its end. -/
def decimalText (whole fraction places : Nat) (unit : String) : String :=
  -- the one in front keeps the zeros with which the fraction begins
  let digits := (toString (Nat.pow 10 places + fraction)).toList.drop 1
  let shown := (digits.reverse.dropWhile (· = '0')).reverse
  let point := if shown.isEmpty then "" else "."
  s!"{whole}{point}{String.ofList shown}{unit}"

/-- The time between ticks, in the largest unit of which there is at least one. -/
def periodText (p : Pace) : String :=
  let n := p.periodNanos
  if 1000000000 ≤ n then decimalText (n / 1000000000) (n % 1000000000) 9 "s"
  else if 1000000 ≤ n then decimalText (n / 1000000) (n % 1000000) 6 "ms"
  else if 1000 ≤ n then decimalText (n / 1000) (n % 1000) 3 "µs"
  else s!"{n}ns"

/-- Starts the clock, unless it would grant nothing; the result is the quantum of a tick. -/
def start (p : Pace) : Logged (Except PaceError Int64) := do
  -- a tick that grants nothing would let the processor wait forever
  if p.quantum ≤ 0 then
    let refusal := PaceError.grantsNothing p.targetHz p.ticksPerSecond
    note (.paceRefused refusal.message)
    return .error refusal
  else
    note (.paceStarted p.targetHz.toNat p.quantum.toInt p.periodText)
    return .ok p.quantum

/-- What the clock shows at least when a run starts, in seconds: it has been going for a while. -/
def clockAge : Nat := 1024

/-- Whether the time of the first report can be told: the clock counts seconds in a signed word of 64
    bits. -/
def reportable (p : Pace) : Bool :=
  p.reportInterval.all fun interval => clockAge + interval.toNat < 0x8000000000000000

/-- Stops the clock.  A reporter that could not tell the time of its first report has given up long
    before, and that comes out now. -/
def finish (p : Pace) : Logged Unit :=
  if p.reportable then return else note .reporterFailed

end Pace

end Breadboard
