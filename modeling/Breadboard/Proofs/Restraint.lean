import Breadboard.Main
import Breadboard.Proofs.Discretion
import Breadboard.Proofs.Quota
/-
  A level for the processor goes before the general one, unless it is `off`.

  The levels of a journal are set before a session is prepared.  After that a session can only report, and
  a report that is turned down leaves the journal as it is; so the levels that are in force stay in force,
  and every line that comes to the journal is one that they let through (`Descends`).  Recording keeps this
  up, hence every computation that is discreet does, and what is made of such (`Restrained`): a whole session
  on files in memory, and also the program as it runs in time, whose turns can come in any order
  (`Live.take`).

  What remains is to see which levels the arguments put in force.  A level of its own is one that is not
  `off`.  To say `off` for the processor is therefore to say nothing: it goes by the general level, and
  under the usual one its warnings and errors are written.
-/
namespace Breadboard

variable {α β : Type}

/-! ## Levels in force -/

namespace LogEntry

/-- The category that a line of the log is about, a message or a count of refused ones. -/
def category : LogEntry → LogCategory
  | .message category .. | .dropped category _ => category

/-- Whether a level lets a line through.  Messages that are refused have asked to pass, so there is none
    to count when everything is off. -/
def Within (bound : LogLevel) : LogEntry → Prop
  | .message _ level _ => level ≠ .off ∧ level ≤ bound
  | .dropped .. => bound ≠ .off

instance (bound : LogLevel) : DecidablePred (Within bound)
  | .message .. => inferInstanceAs (Decidable (_ ∧ _))
  | .dropped .. => inferInstanceAs (Decidable (_ ≠ _))

/-- Nothing is let through when everything is off, by cases on the line. -/
theorem not_within_off (e : LogEntry) : ¬e.Within .off := by
  cases e with
  | message category level text =>
    rintro ⟨hlevel, hbound⟩
    cases level with
    | off => exact hlevel rfl
    | error | warn | info | debug | trace => cases hbound
  | dropped category count => exact fun h => h rfl

/-- Errors let no warning through, but the count of refused errors. -/
example : ¬(message .cpu .warn "").Within .error ∧ (dropped .cpu 1).Within .error := by
  decide

end LogEntry

namespace Journal

/-- The level that a category goes by: its own, or the general one where its own is `off`. -/
def inForce (j : Journal) (category : LogCategory) : LogLevel :=
  if j.own.get category = .off then j.general else j.own.get category

variable {start j : Journal} {category : LogCategory} {level : LogLevel}

/-- A category wants the messages that have a level, up to the one in force. -/
theorem wants_iff : j.wants category level = true ↔ level ≠ .off ∧ level ≤ j.inForce category := by
  unfold wants inForce
  by_cases hlevel : level = .off
  · simp [hlevel]
  · by_cases hown : j.own.get category = .off <;> simp [hlevel, hown]

/-- A journal that came of another one: the levels are the same, and they have let all its lines
    through. -/
structure Descends (start j : Journal) : Prop where
  general : j.general = start.general
  own : j.own = start.own
  entries : ∀ e ∈ j.entries, e.Within (start.inForce e.category)

namespace Descends

/-- In a journal that descends from another, the same levels are in force. -/
theorem inForce (h : Descends start j) (category : LogCategory) :
    j.inForce category = start.inForce category := by
  unfold Journal.inForce
  rw [h.general, h.own]

/-- What such a journal writes, in whatever order, the levels of the first one have let through. -/
theorem written (h : Descends start j) : ∀ e ∈ j.written, e.Within (start.inForce e.category) :=
  fun e he => h.entries e (List.mem_reverse.mp he)

/-- Recording a notice adds lines only if the notice is wanted, and then all of them are within the level in
    force.  This is the step that everything else in the module comes down to. -/
theorem record (h : Descends start j) (n : Notice) : Descends start (j.record n) := by
  unfold Journal.record
  cases hwants : j.wants n.category n.level with
  | false =>
    rw [offer_of_unwanted hwants]
    exact h
  | true =>
    rw [offer_of_wanted hwants]
    obtain ⟨hlevel, hbound⟩ := wants_iff.mp hwants
    rw [h.inForce] at hbound
    refine ⟨h.general, h.own, fun e he => ?_⟩
    -- a line is the message itself, or a count that comes along with it, or it has been there before
    rcases List.mem_append.mp he with hnew | hold
    · rcases List.mem_append.mp hnew with hmessage | hreport
      · obtain rfl : e = .message n.category n.level n.text := by
          by_cases hpasses : (j.judge n.category).1.passes = true
          · simpa [hpasses] using hmessage
          · simp [hpasses] at hmessage
        exact ⟨hlevel, hbound⟩
      · obtain ⟨count, -, rfl⟩ := List.mem_map.mp hreport
        -- the message that has been wanted is evidence that the category is not off
        intro hoff
        exact LogEntry.not_within_off (.message n.category n.level n.text) ⟨hlevel, hoff ▸ hbound⟩
    · exact h.entries e hold

/-- Recording any number of notices, one after the other: induction on the notices. -/
theorem foldl_record (h : Descends start j) (notices : List Notice) :
    Descends start (notices.foldl Journal.record j) := by
  induction notices generalizing j with
  | nil => exact h
  | cons n notices ih => exact ih (h.record n)

end Descends

end Journal

open Journal

/-! ## Restraint -/

/-- Whatever it does to a journal, the levels stay, and what it writes is within them. -/
def Restrained (x : Logged α) : Prop :=
  ∀ start j : Journal, Descends start j → Descends start (x.run j).2

/-- Whoever is discreet is restrained, since all that it can do to a journal is to record notices. -/
theorem Discreet.restrained {x : Logged α} (h : Discreet x) : Restrained x := by
  obtain ⟨a, notices, hrun⟩ := h
  intro start j hj
  rw [hrun]
  exact hj.foldl_record notices

namespace Restrained

theorem of_pure (a : α) : Restrained (pure a) :=
  (Discreet.of_pure a).restrained

/-- To look at the journal is not discreet, but it does the journal no harm. -/
theorem of_get : Restrained get :=
  fun _ _ h => h

/-- One computation after another is restrained, if both of them are. -/
theorem bind {x : Logged α} {f : α → Logged β} (h : Restrained x) (hnext : ∀ a, Restrained (f a)) :
    Restrained (x >>= f) :=
  fun start j hj => hnext _ start _ (h start j hj)

end Restrained

namespace Console

/-! ## Sessions -/

namespace Session

open Building (discreet_pure discreet_throw discreet_bind)

/-- To turn the error of a machine into one of a session reports nothing. -/
theorem discreet_building {x : Building α} (h : Building.Discreet x) :
    Building.Discreet (building x) := by
  have hrun : Building.Discreet (liftM x.run : ExceptT SessionError Logged (Except MachineError α)) :=
    Breadboard.Discreet.bind h fun _ => .of_pure _
  refine discreet_bind hrun fun outcome => ?_
  cases outcome with
  | ok a => exact discreet_pure a
  | error e => exact discreet_throw _

/-- Preparing a session reports what reading the images and building the machine report.  Whether there is a
    description to go by makes no difference to this. -/
theorem discreet_prepare (arguments : Arguments) (files : Files) :
    Building.Discreet (prepare arguments files) := by
  have hbuild : ∀ config : MachineConfig, Building.Discreet (do
      let slots ← building (RomSlot.ofConfig files config)
      let machine ← building (Machine.build slots {})
      return ({ arguments, pace := config.pace, machine } : Session)) := fun config =>
    discreet_bind (discreet_building (RomSlot.discreet_ofConfig files config)) fun slots =>
      discreet_bind (discreet_building (Machine.discreet_build slots {})) fun _ => discreet_pure _
  unfold prepare
  cases describe arguments files with
  | ok config => exact hbuild config
  | error e => exact discreet_bind (discreet_throw e) hbuild

/-- Running a session to its end only reports, because the machine and the pacing only report. -/
theorem discreet_run (s : Session) (fuel : Nat) : Discreet (s.run fuel) :=
  (s.machine.discreet_run s.pace fuel).bind fun _ => .of_pure _

/-- A tick of the clock runs the processor, which only reports. -/
theorem discreet_tick (s : Session) (quantum : Int64) : Discreet (s.tick quantum) :=
  (Processor.discreet_runLoop ..).bind fun _ => .of_pure _

/-- The rate of cycles is a single notice. -/
theorem discreet_reportRate (s : Session) (seconds : UInt64) : Discreet (s.reportRate seconds) :=
  (Discreet.of_note _).bind fun _ => .of_pure _

/-- A whole session on files in memory is restrained: it is prepared and run, and in the end its journal is
    looked at. -/
theorem restrained_start (arguments : Arguments) (tree : FileTree) (fuel : Nat) :
    Restrained (start arguments tree fuel) := by
  unfold start
  cases openLog arguments tree with
  | error e => exact .of_pure _
  | ok tree =>
    refine (discreet_prepare arguments tree.read).restrained.bind fun prepared => ?_
    cases prepared with
    -- the error is printed together with what has been written until then
    | error e => exact Restrained.of_get.bind fun _ => .of_pure _
    | ok s =>
      exact (s.discreet_run fuel).restrained.bind fun _ => Restrained.of_get.bind fun _ => .of_pure _

end Session

/-! ## The program in time -/

/-- What the program does to a session that is under way: it is started, its clock ticks, its rate is
    reported each second, and in the end it is finished. -/
inductive Job where
  | start
  | tick (quantum : Int64)
  | second (count : Nat)
  | finish

/-- What is left of the session after such a job, and what has been reported meanwhile. -/
def Job.perform (s : Session) : Job → Logged Session
  | .start => do
    discard s.pace.start
    return s
  | .tick quantum => do
    let (_, s) ← s.tick quantum
    return s
  | .second count => onSecond s count
  | .finish => do
    s.pace.finish
    return s

/-- Each second there is a rate to report, or nothing, or no interval has been asked for. -/
theorem discreet_onSecond (s : Session) (count : Nat) : Discreet (onSecond s count) := by
  unfold onSecond
  cases s.pace.reportInterval with
  | none => exact .of_pure _
  | some interval =>
    dsimp only
    split
    · exact s.discreet_reportRate interval
    · exact .of_pure _

/-- Every job only reports, by cases on which job it is. -/
theorem Job.discreet_perform (s : Session) (job : Job) : Discreet (job.perform s) := by
  cases job with
  | start =>
    have hstart : Discreet (discard s.pace.start) := s.pace.discreet_start.bind fun _ => .of_pure _
    exact hstart.bind fun _ => .of_pure _
  | tick quantum => exact (s.discreet_tick quantum).bind fun _ => .of_pure _
  | second count => exact discreet_onSecond s count
  | finish => exact s.pace.discreet_finish.bind fun _ => .of_pure _

/-- What the program can do next: let time go by, print what is in the journal, or see to the session. -/
inductive Turn where
  | wait (nanos : Nat)
  | flush
  | work (job : Job)

/-- A session that is under way, its journal, and the lines that have been printed. -/
structure Live where
  session : Session
  journal : Journal
  printed : List LogEntry := []

namespace Live

/-- What a turn makes of a session that is under way.  To print is to move all lines out of the journal. -/
def take (l : Live) : Turn → Live
  | .wait nanos => { l with journal := l.journal.wait nanos }
  | .flush => { l with
      journal := { l.journal with entries := [] }, printed := l.printed ++ l.journal.written }
  | .work job =>
    let (session, journal) := (job.perform l.session).run l.journal
    { l with session, journal }

/-- All lines so far, printed or not, the oldest ones first. -/
def lines (l : Live) : List LogEntry :=
  l.printed ++ l.journal.written

/-- The journal descends from another one, and so does everything that has been printed. -/
structure Descends (start : Journal) (l : Live) : Prop where
  journal : Journal.Descends start l.journal
  printed : ∀ e ∈ l.printed, e.Within (start.inForce e.category)

variable {start : Journal} {l : Live}

/-- All lines are then within the levels in force, wherever they are by now. -/
theorem Descends.lines (h : l.Descends start) : ∀ e ∈ l.lines, e.Within (start.inForce e.category) := by
  intro e he
  rcases List.mem_append.mp he with hprinted | hwritten
  · exact h.printed e hprinted
  · exact h.journal.written e hwritten

/-- Every turn keeps this up: waiting and printing leave the levels alone, and a job is restrained. -/
theorem Descends.take (h : l.Descends start) (turn : Turn) : (l.take turn).Descends start := by
  cases turn with
  | wait nanos => exact ⟨⟨h.journal.general, h.journal.own, h.journal.entries⟩, h.printed⟩
  | flush => exact ⟨⟨h.journal.general, h.journal.own, fun _ he => nomatch he⟩, h.lines⟩
  | work job => exact ⟨(job.discreet_perform l.session).restrained _ _ h.journal, h.printed⟩

/-- Any number of turns keep it up, in any order; the induction is on the turns. -/
theorem Descends.foldl_take (h : l.Descends start) (turns : List Turn) :
    (turns.foldl Live.take l).Descends start := by
  induction turns generalizing l with
  | nil => exact h
  | cons turn turns ih => exact ih (h.take turn)

end Live

/-! ## Runs -/

/-- What a whole session on files in memory has written when it is over, and its journal then. -/
def completed (tree : FileTree) (fuel clock : Nat) (arguments : Arguments) :
    List LogEntry × Journal :=
  let j := ((Session.start arguments tree fuel).run (arguments.journal.wait clock)).2
  (j.written, j)

/-- What the program has written after these turns, and its journal then.  A session that cannot be
    prepared gets no turn. -/
def launched (files : Files) (clock : Nat) (turns : List Turn) (arguments : Arguments) :
    List LogEntry × Journal :=
  match (Session.prepare arguments files).run.run (arguments.journal.wait clock) with
  | (.error _, j) => (j.written, j)
  | (.ok session, journal) =>
    let l := turns.foldl Live.take { session, journal }
    (l.lines, l.journal)

/-- The levels that the arguments ask for are in force, and they have let all lines through. -/
structure Lawful (arguments : Arguments) (result : List LogEntry × Journal) : Prop where
  lines : ∀ e ∈ result.1, e.Within (arguments.journal.inForce e.category)
  levels : ∀ category, result.2.inForce category = arguments.journal.inForce category

/-- All that depends on whether there is a level for the processor is the limit. -/
theorem Arguments.journal_eq (arguments : Arguments) :
    ∃ limit, arguments.journal = {
      general := arguments.logLevel
      own := ⟨arguments.logCpu.getD .off, .off, .off, .off, arguments.logLevel.max .info⟩
      limit } := by
  unfold Arguments.journal
  cases arguments.logCpu with
  | none => exact ⟨_, rfl⟩
  | some level =>
    by_cases htrace : level = .trace
    · exact ⟨_, if_pos htrace⟩
    · exact ⟨_, if_neg htrace⟩

/-- The journal that the arguments ask for descends from itself, whatever the clock is, as there are no
    lines yet. -/
theorem Arguments.descends_journal (arguments : Arguments) (clock : Nat) :
    Journal.Descends arguments.journal (arguments.journal.wait clock) where
  general := rfl
  own := rfl
  entries e he := by
    obtain ⟨limit, hjournal⟩ := arguments.journal_eq
    rw [hjournal] at he
    cases he

/-- A session on files in memory is lawful, for it starts from such a journal. -/
theorem lawful_completed (tree : FileTree) (fuel clock : Nat) (arguments : Arguments) :
    Lawful arguments (completed tree fuel clock arguments) := by
  have h := Session.restrained_start arguments tree fuel _ _ (arguments.descends_journal clock)
  exact ⟨h.written, h.inForce⟩

/-- So is the program as it runs in time, whether its session can be prepared or not. -/
theorem lawful_launched (files : Files) (clock : Nat) (turns : List Turn) (arguments : Arguments) :
    Lawful arguments (launched files clock turns arguments) := by
  have h := (Session.discreet_prepare arguments files).restrained _ _
    (arguments.descends_journal clock)
  unfold launched
  generalize (Session.prepare arguments files).run.run (arguments.journal.wait clock) = prepared at h
  rcases prepared with ⟨e | session, journal⟩
  · exact ⟨h.written, h.inForce⟩
  -- the session has been prepared, so there are turns to be taken
  · have hlive : Live.Descends arguments.journal { session, journal } := ⟨h, fun _ he => nomatch he⟩
    have hturns := hlive.foldl_take turns
    exact ⟨hturns.lines, hturns.journal.inForce⟩

/-! ## Without a level for the processor -/

/-- The same arguments, without a level for the processor. -/
def Arguments.withoutLogCpu (arguments : Arguments) : Arguments :=
  { arguments with logCpu := none }

/-- The same session, but remembering these arguments. -/
def Session.under (s : Session) (arguments : Arguments) : Session :=
  { s with arguments }

/-- What is prepared does not depend on the levels; the session just remembers them. -/
theorem Session.prepare_under (arguments : Arguments) (files : Files) :
    prepare arguments files = (·.under arguments) <$> prepare arguments.withoutLogCpu files := by
  have hdescribe : describe arguments.withoutLogCpu files = describe arguments files := rfl
  unfold prepare
  rw [hdescribe]
  cases describe arguments files <;> simp only [map_bind, map_pure] <;> rfl

/-- With a session on files in memory the level for the processor does nothing but go into the journal,
    which is not part of the session. -/
theorem Session.start_withoutLogCpu (arguments : Arguments) (tree : FileTree) (fuel : Nat) :
    start arguments tree fuel = start arguments.withoutLogCpu tree fuel := by
  have hopen : Session.openLog arguments.withoutLogCpu tree = Session.openLog arguments tree := rfl
  unfold start
  rw [hopen]
  cases Session.openLog arguments tree with
  | error e => rfl
  | ok tree =>
    dsimp only
    -- both sides are prepared in the same way, and nothing that follows looks at the arguments
    rw [prepare_under arguments, prepare_under arguments.withoutLogCpu]
    simp only [ExceptT.run_map, bind_map_left]
    refine bind_congr fun prepared => ?_
    cases prepared <;> rfl

/-- What happens each second does not depend on the arguments either. -/
theorem onSecond_under (s : Session) (arguments : Arguments) (count : Nat) :
    onSecond (s.under arguments) count = (·.under arguments) <$> onSecond s count := by
  have hpace : (s.under arguments).pace = s.pace := rfl
  unfold onSecond
  rw [hpace]
  cases s.pace.reportInterval with
  | none => rfl
  | some interval =>
    dsimp only
    split <;> rfl

/-- Nor does any other job; only the report of each second takes an argument apart. -/
theorem Job.perform_under (s : Session) (arguments : Arguments) (job : Job) :
    job.perform (s.under arguments) = (·.under arguments) <$> job.perform s := by
  cases job with
  | second count => exact onSecond_under s arguments count
  | start | tick | finish => rfl

namespace Live

/-- The same, but with a session that remembers these arguments. -/
def under (l : Live) (arguments : Arguments) : Live :=
  { l with session := l.session.under arguments }

/-- So a turn does the same under any arguments, to the journal and to what is printed. -/
theorem take_under (l : Live) (arguments : Arguments) (turn : Turn) :
    (l.under arguments).take turn = (l.take turn).under arguments := by
  cases turn with
  | wait nanos => rfl
  | flush => rfl
  | work job =>
    have hwork : (l.under arguments).take (.work job) = { l.under arguments with
        session := ((job.perform (l.session.under arguments)).run l.journal).1
        journal := ((job.perform (l.session.under arguments)).run l.journal).2 } := rfl
    rw [hwork, Job.perform_under]
    rfl

/-- And so do all turns together, by induction. -/
theorem foldl_take_under (turns : List Turn) (l : Live) (arguments : Arguments) :
    turns.foldl take (l.under arguments) = (turns.foldl take l).under arguments := by
  induction turns generalizing l with
  | nil => rfl
  | cons turn turns ih =>
    rw [List.foldl_cons, take_under]
    exact ih (l.take turn)

end Live

variable {arguments : Arguments} {level : LogLevel}

/-- If the journals are the same with and without a level for the processor, then so are the sessions on
    files in memory. -/
theorem completed_of_journal (tree : FileTree) (fuel clock : Nat)
    (h : arguments.journal = arguments.withoutLogCpu.journal) :
    completed tree fuel clock arguments = completed tree fuel clock arguments.withoutLogCpu := by
  unfold completed
  rw [Session.start_withoutLogCpu, h]

/-- And so are the runs of the program in time, by whatever turns. -/
theorem launched_of_journal (files : Files) (clock : Nat) (turns : List Turn)
    (h : arguments.journal = arguments.withoutLogCpu.journal) :
    launched files clock turns arguments = launched files clock turns arguments.withoutLogCpu := by
  unfold launched
  rw [Session.prepare_under, ExceptT.run_map, StateT.run_map, h]
  rcases (Session.prepare arguments.withoutLogCpu files).run.run
    (arguments.withoutLogCpu.journal.wait clock) with ⟨e | session, journal⟩
  · rfl
  · have hturns := Live.foldl_take_under turns { session, journal } arguments
    show (let l := turns.foldl Live.take (Live.under { session, journal } arguments)
      (l.lines, l.journal)) = _
    rw [hturns]
    rfl

/-! ## The processor's level -/

namespace Arguments

/-- To set the level to `off` is to make the same journal as without it: `off` is what stands there when
    nothing is said. -/
theorem journal_of_off (h : arguments.logCpu = some .off) :
    arguments.journal = arguments.withoutLogCpu.journal := by
  unfold journal
  rw [h]
  rfl

/-- A level other than `off` is in force for the processor. -/
theorem inForce_cpu (h : arguments.logCpu = some level) (hlevel : level ≠ .off) :
    arguments.journal.inForce .cpu = level := by
  obtain ⟨limit, hjournal⟩ := arguments.journal_eq
  rw [hjournal, h]
  exact if_neg hlevel

theorem inForce_withoutLogCpu_cpu (arguments : Arguments) :
    arguments.withoutLogCpu.journal.inForce .cpu = arguments.logLevel :=
  rfl

theorem inForce_withoutLogCpu {category : LogCategory} (arguments : Arguments)
    (h : category ≠ .cpu) :
    arguments.journal.inForce category = arguments.withoutLogCpu.journal.inForce category := by
  obtain ⟨limit, hjournal⟩ := arguments.journal_eq
  rw [hjournal]
  cases category with
  | cpu => exact absurd rfl h
  | signals | devices | interrupts | scheduler => rfl

end Arguments

/-- What a level for the processor comes to in runs that are given by their arguments. -/
structure Heeded (run : Arguments → List LogEntry × Journal) (arguments : Arguments)
    (level : LogLevel) : Prop where
  /-- A level that lets anything through goes before the general one. -/
  overrides : level ≠ .off → ∀ e ∈ (run arguments).1, e.category = .cpu → e.Within level
  /-- To say `off` is to say nothing. -/
  unsaid : level = .off → run arguments = run arguments.withoutLogCpu
  /-- Then the processor goes by the general level. -/
  general : level = .off → ∀ e ∈ (run arguments).1, e.category = .cpu → e.Within arguments.logLevel
  /-- For the others nothing changes. -/
  others : ∀ category, category ≠ .cpu →
    (run arguments).2.inForce category = (run arguments.withoutLogCpu).2.inForce category

/-- Runs that are lawful heed the level, if to say `off` is to say nothing in them. -/
theorem Lawful.heeded {run : Arguments → List LogEntry × Journal}
    (h : ∀ arguments, Lawful arguments (run arguments))
    (hunsaid : arguments.logCpu = some .off → run arguments = run arguments.withoutLogCpu)
    (hlevel : arguments.logCpu = some level) : Heeded run arguments level where
  -- what has been written is within the level in force, and that is the processor's own
  overrides := by
    intro hon e he hcpu
    have hwithin := (h arguments).lines e he
    rwa [hcpu, Arguments.inForce_cpu hlevel hon] at hwithin
  unsaid := by
    rintro rfl
    exact hunsaid hlevel
  general := by
    rintro rfl e he hcpu
    have hwithin := (h arguments).lines e he
    rwa [hcpu, Arguments.journal_of_off hlevel, Arguments.inForce_withoutLogCpu_cpu] at hwithin
  others := by
    intro category hcategory
    rw [(h _).levels, (h _).levels]
    exact arguments.inForce_withoutLogCpu hcategory

/-- A level that is given for the processor overrides the general one, unless it is `off`.  Whatever the
    description, the images and the general level are, and however the run goes, its length and its timing
    included: every line about the processor is within that level, and for all other categories the same
    levels are in force as without it.  If the level is `off`, the run writes exactly what it writes without
    it, so the lines about the processor are within the general level. -/
theorem override_heeded (h : arguments.logCpu = some level) (clock : Nat) :
    (∀ (tree : FileTree) (fuel : Nat), Heeded (completed tree fuel clock) arguments level) ∧
    (∀ (files : Files) (turns : List Turn), Heeded (launched files clock turns) arguments level) := by
  refine ⟨fun tree fuel => ?_, fun files turns => ?_⟩
  · exact Lawful.heeded (lawful_completed tree fuel clock)
      (fun hoff => completed_of_journal tree fuel clock (Arguments.journal_of_off hoff)) h
  · exact Lawful.heeded (lawful_launched files clock turns)
      (fun hoff => launched_of_journal files clock turns (Arguments.journal_of_off hoff)) h

/-- Where everything is traced but the processor, which is to report errors only. -/
theorem override_heeded_error :
    let arguments : Arguments := { machine := "m.json", logLevel := .trace, logCpu := some .error }
    arguments.logCpu = some .error ∧
    (∀ (tree : FileTree) (fuel : Nat), Heeded (completed tree fuel 0) arguments .error) ∧
    (∀ (files : Files) (turns : List Turn), Heeded (launched files 0 turns) arguments .error) :=
  ⟨rfl, override_heeded rfl 0⟩

/-! ## A machine whose processor cannot be silenced -/

open FileTree Config

/-- A description of a machine, and the image that it names, as files in memory. -/
def shelf (description image : Array UInt8) : FileTree where
  files := [(["m"], .bytes description), (["k"], .bytes image)]

/-- There is no slash in the names at which they could be split. -/
theorem splitOn_names : "m".splitOn "/" = ["m"] ∧ "k".splitOn "/" = ["k"] := by
  unfold String.splitOn
  constructor
  -- the end of the name is reached at the second character
  all_goals
    rw [String.splitOnAux, String.splitOnAux]
    decide +kernel

theorem read_shelf (description image : Array UInt8) :
    (shelf description image).read "m" = .ok description ∧
      (shelf description image).read "k" = .ok image := by
  have hshort : "m".utf8ByteSize ≤ maxPathSize ∧ "k".utf8ByteSize ≤ maxPathSize := by decide
  have hm : partsOf "m" = .ok ["m"] := by simp [partsOf, splitOn_names.1, hshort.1]
  have hk : partsOf "k" = .ok ["k"] := by simp [partsOf, splitOn_names.2, hshort.2]
  unfold FileTree.read
  rw [hm, hk]
  exact ⟨rfl, rfl⟩

/-- A machine with one chip, at the end of the address space. -/
def endConfig : MachineConfig := { roms := [⟨"k", "k", 0xFFFC, 2⟩] }

/-- The description of this machine, as text. -/
def endText : String :=
  "\x7b\"roms\":[\x7b\"name\":\"k\",\"path\":\"k\",\"base\":65532,\"address_lines\":2\x7d]\x7d"

/-- An image for it.  The reset vector leads to an opcode without a meaning. -/
def endImage : Array UInt8 := #[0xFE, 0xFF, 0x02, 0x00]

/-- The arguments of a session whose processor is to report nothing. -/
def silenced : Arguments :=
  { machine := "m", logCpu := some .off }

/-- The text is indeed a description of the machine, by evaluation. -/
theorem ofText_end : MachineConfig.ofText? endText = some endConfig := by
  decide +kernel

/-- The arguments change nothing about it: they override no setting, and the image is next to the
    description. -/
theorem apply_silenced : silenced.apply endConfig = endConfig := by
  have hparent : Path.parent "m" = "" := by
    unfold Path.parent
    rw [splitOn_names.1]
    decide +kernel
  have hjoin : Path.join "" "k" = "k" := by simp [Path.join]
  simp only [Arguments.apply, silenced, hparent, endConfig, List.map_cons, List.map_nil, hjoin]
  rfl

/-- So this is the machine that the session is about. -/
theorem describe_silenced :
    Session.describe silenced (shelf endText.toUTF8.data endImage).read = .ok endConfig := by
  have hread : (shelf endText.toUTF8.data endImage).read silenced.machine =
      .ok endText.toUTF8.data := (read_shelf ..).1
  have htext : String.fromUTF8? ⟨endText.toUTF8.data⟩ = some endText := dif_pos endText.isValidUTF8
  simp only [Session.describe, hread, pure_bind, htext, ofText_end, apply_silenced]
  rfl

/-- Of the files, only the image counts once the machine is known. -/
theorem ofConfig_end (description : Array UInt8) :
    RomSlot.ofConfig (shelf description endImage).read endConfig =
      RomSlot.ofConfig (fun _ => .ok endImage) endConfig := by
  have hload : Image.load (shelf description endImage).read "k" =
      Image.load (fun _ => .ok endImage) "k" := by
    unfold Image.load
    rw [(read_shelf description endImage).2]
  simp only [RomSlot.ofConfig, endConfig, List.mapM_cons, List.mapM_nil, RomSlot.ofFile, hload]

/-- All that is left of preparing the session is to load the image and to build the machine. -/
theorem prepare_silenced :
    Session.prepare silenced (shelf endText.toUTF8.data endImage).read = (do
      let slots ← Session.building (RomSlot.ofConfig (fun _ => .ok endImage) endConfig)
      let machine ← Session.building (Machine.build slots {})
      return { arguments := silenced, pace := endConfig.pace, machine }) := by
  unfold Session.prepare
  rw [describe_silenced, ← ofConfig_end]
  rfl

/-- To say `off` for the processor has it report what it reports anyway. -/
theorem override_unheeded :
    let lines := (completed (shelf endText.toUTF8.data endImage) 1 0 silenced).1
    silenced.logCpu = some .off ∧
    lines = [.message .cpu .warn "CPU: unimplemented opcode 0x02 at 0xFFFE",
      .message .cpu .error "CPU: unimplemented opcode 0x02 at 0xFFFE"] ∧
    ¬∀ e ∈ lines, e.category = .cpu → e.Within .off := by
  have hlines : (completed (shelf endText.toUTF8.data endImage) 1 0 silenced).1 =
      [.message .cpu .warn "CPU: unimplemented opcode 0x02 at 0xFFFE",
        .message .cpu .error "CPU: unimplemented opcode 0x02 at 0xFFFE"] := by
    have hopen : Session.openLog silenced (shelf endText.toUTF8.data endImage) =
        .ok (shelf endText.toUTF8.data endImage) := rfl
    unfold completed Session.start
    rw [hopen]
    dsimp only
    rw [prepare_silenced]
    decide +kernel
  refine ⟨rfl, hlines, fun hsilent => ?_⟩
  rw [hlines] at hsilent
  exact LogEntry.not_within_off _ (hsilent _ (.head _) rfl)

end Console

end Breadboard
