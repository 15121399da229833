import Breadboard.Proofs.Paced
/-
  Reporting has no say in what happens.

  A computation that reports is `Discreet` if what comes of it, and what it offers to the journal, are
  settled before it is run: some result and some notices, the same for every journal.  What becomes of the
  notices is the journal's business, and nobody asks it.  Reporting is discreet, and what is made of
  discreet parts is; so there is a rule for each way of putting computations together, and then a lemma for
  each thing that a processor, a board or a machine can be made to do.

  From that follows the two-run statement (`Discreet.unobtrusive`): under any two journals, whatever their
  levels, their limits and what their windows have counted, everything comes out the same; and a journal
  in which everything is off stays as it is.
-/
namespace Breadboard

variable {α β σ τ : Type}

/-! ## Journals -/

namespace Journal

/-- Every level is off, the general one and those of all categories. -/
structure Silent (j : Journal) : Prop where
  general : j.general = .off
  own : ∀ category, j.own.get category = .off

variable {j : Journal}

/-- A journal in which everything is off wants nothing, of any category and at any level. -/
theorem wants_of_silent (h : j.Silent) (category : LogCategory) (level : LogLevel) :
    j.wants category level = false := by
  unfold wants
  rw [h.own category, h.general]
  -- nothing but `off` itself is as low as `off`
  cases level <;> rfl

/-- Hence it records nothing, and its limits are not even asked. -/
theorem record_of_silent (h : j.Silent) (n : Notice) : j.record n = j := by
  unfold record offer
  rw [wants_of_silent h]
  rfl

/-- It is the same journal after any number of notices. -/
theorem foldl_record_of_silent (h : j.Silent) (notices : List Notice) :
    notices.foldl record j = j := by
  induction notices with
  | nil => rfl
  | cons n notices ih =>
    rw [List.foldl_cons, record_of_silent h]
    exact ih

end Journal

/-! ## Discretion -/

/-- Its result and its notices are settled, whatever is in the journal.  The journal is given the notices in
    order, and nothing goes the other way. -/
def Discreet (x : Logged α) : Prop :=
  ∃ (a : α) (notices : List Notice), ∀ j, x.run j = (a, notices.foldl Journal.record j)

/-- Nothing can be learned about the journal from what comes of it, and nothing but notices gets to the
    journal. -/
structure Unobtrusive (x : Logged α) : Prop where
  /-- Under any two journals the same comes of it. -/
  same : ∀ j k, (x.run j).1 = (x.run k).1
  /-- Every journal is offered the same. -/
  offered : ∃ notices : List Notice, ∀ j, (x.run j).2 = notices.foldl Journal.record j
  /-- A journal in which everything is off is left as it is. -/
  silent : ∀ j, j.Silent → (x.run j).2 = j

namespace Discreet

/-- What is discreet is unobtrusive, since both runs have the same result, settled before either. -/
theorem unobtrusive {x : Logged α} (h : Discreet x) : Unobtrusive x := by
  obtain ⟨a, notices, hrun⟩ := h
  constructor
  case same =>
    intro j k
    rw [hrun, hrun]
  case offered =>
    refine ⟨notices, fun j => ?_⟩
    rw [hrun]
  case silent =>
    intro j hj
    rw [hrun]
    exact Journal.foldl_record_of_silent hj notices

theorem of_pure (a : α) : Discreet (pure a) :=
  ⟨a, [], fun _ => rfl⟩

theorem of_note (n : Notice) : Discreet (note n) :=
  ⟨(), [n], fun _ => rfl⟩

/-- What the second part reports follows what the first part has reported. -/
theorem bind {x : Logged α} {f : α → Logged β} (h : Discreet x) (hnext : ∀ a, Discreet (f a)) :
    Discreet (x >>= f) := by
  obtain ⟨a, first, hx⟩ := h
  obtain ⟨b, second, hf⟩ := hnext a
  refine ⟨b, first ++ second, fun j => ?_⟩
  show (f (x.run j).1).run (x.run j).2 = _
  rw [hx j, hf, List.foldl_append]

/-- A fold of discreet steps is discreet, by induction over the list; the notices of the steps follow one
    another. -/
theorem of_foldlM {f : σ → α → Logged σ} (h : ∀ s a, Discreet (f s a)) (l : List α) (s : σ) :
    Discreet (l.foldlM f s) := by
  induction l generalizing s with
  | nil => exact .of_pure s
  | cons a l ih =>
    rw [List.foldlM_cons]
    exact (h s a).bind fun s => ih s

end Discreet

/-! ## Building -/

namespace Building

/-- What may come to nothing is discreet, also if it does. -/
abbrev Discreet {ε : Type} (x : ExceptT ε Logged α) : Prop :=
  Breadboard.Discreet x.run

/-- The rules again, for computations that can fail. -/
theorem discreet_pure {ε : Type} (a : α) : Discreet (pure a : ExceptT ε Logged α) :=
  Breadboard.Discreet.of_pure (Except.ok a)

theorem discreet_throw {ε : Type} (e : ε) : Discreet (throw e : ExceptT ε Logged α) :=
  Breadboard.Discreet.of_pure (Except.error e)

theorem discreet_lift {x : Logged α} (h : Breadboard.Discreet x) :
    Discreet (liftM x : Building α) := by
  have hlifted : Breadboard.Discreet (x >>= fun a => pure (Except.ok a : Except MachineError α)) :=
    h.bind fun a => .of_pure _
  exact hlifted

/-- After a failure there is nothing more to report. -/
theorem discreet_bind {ε : Type} {x : ExceptT ε Logged α} {f : α → ExceptT ε Logged β}
    (h : Discreet x) (hnext : ∀ a, Discreet (f a)) : Discreet (x >>= f) := by
  unfold Discreet
  rw [ExceptT.run_bind]
  refine Breadboard.Discreet.bind h fun outcome => ?_
  cases outcome with
  | ok a => exact hnext a
  | error e => exact .of_pure (Except.error e)

/-- The same computation for all elements of a list is discreet, whether or not one of them puts an end to
    it. -/
theorem discreet_mapM {f : α → Building β} (h : ∀ a, Discreet (f a)) (l : List α) :
    Discreet (l.mapM f) := by
  induction l with
  | nil => exact discreet_pure []
  | cons a l ih =>
    rw [List.mapM_cons]
    exact discreet_bind (h a) fun b => discreet_bind ih fun rest => discreet_pure (b :: rest)

/-- A look-up reports nothing, and its error is known beforehand. -/
theorem discreet_orElse (wrap : β → MachineError) (x : Except β α) :
    Discreet (Machine.orElse wrap x) := by
  cases x with
  | ok a => exact discreet_pure a
  | error e => exact discreet_throw (wrap e)

end Building

/-! ## A processor -/

namespace Processor

variable {μ : Type} [Memory μ]

/-- Powering up reports that it happens, and then does it. -/
theorem discreet_powerUp (p : Processor μ) : Discreet p.powerUp :=
  (Discreet.of_note _).bind fun _ => .of_pure _

/-- An instruction is reported before it is run.  If it has no meaning, that is reported afterwards, by what
    it did and not by what the journal says. -/
theorem discreet_run (p : Processor μ) (i : Instruction) (servicing : Option Interrupt)
    (start : UInt16) : Discreet (p.run i servicing start) := by
  refine (Discreet.of_note _).bind fun _ => ?_
  rcases p.perform (i.execute servicing start) with ⟨fault | extra, q⟩
  · cases fault with
    | unimplementedOpcode opcode pc => exact (Discreet.of_note _).bind fun _ => .of_pure _
    | _ => exact .of_pure _
  · exact .of_pure _

/-- A cycle does what the panel asks for, and reports it. -/
theorem discreet_cycle (p : Processor μ) : Discreet p.cycle := by
  unfold cycle
  -- a reset, an interrupt, or the instruction at the program counter
  by_cases hreset : p.world.panel.requests.reset = true
  · simp only [if_pos hreset]
    exact p.discreet_powerUp.bind fun _ => .of_pure _
  · simp only [if_neg hreset]
    cases p.world.panel.requests.next? with
    | some interrupt => exact (Discreet.of_note _).bind fun _ => p.discreet_run _ _ _
    | none => exact p.fetchOpcode.2.discreet_run _ _ _

theorem discreet_step (p : Processor μ) : Discreet p.step := by
  refine p.discreet_cycle.bind ?_
  rintro ⟨fault | cycles, q⟩
  · exact .of_pure _
  · exact .of_pure _

/-- A run is discreet, by induction on the fuel: before each instruction the panel is asked, and never the
    journal. -/
theorem discreet_runLoop (asleep : Panel → Option Panel) (fuel : Nat) (p : Processor μ) :
    Discreet (p.runLoop asleep fuel) := by
  induction fuel generalizing p with
  | zero => exact .of_pure _
  | succ fuel ih =>
    unfold runLoop
    cases p.world.panel.order with
    | halt => exact .of_pure _
    | hold =>
      cases asleep p.world.panel with
      | none => exact .of_pure _
      | some panel => exact ih _
    | go =>
      refine p.discreet_step.bind ?_
      rintro ⟨fault | cycles, q⟩
      -- the fault that ends the run is the only thing that the loop itself reports
      · exact (Discreet.of_note _).bind fun _ => .of_pure _
      · exact ih q

omit [Memory μ] in
/-- So are several steps in a row, with or without an address to stop at. -/
theorem discreet_advanceFor {advance : Processor μ → Logged (Except Fault Nat × Processor μ)}
    (h : ∀ p, Discreet (advance p)) (goal : Option UInt16) (n : Nat) (tally : Tally)
    (p : Processor μ) : Discreet (advanceFor advance goal n tally p) := by
  induction n generalizing tally p with
  | zero => exact .of_pure _
  | succ n ih =>
    unfold advanceFor
    by_cases hgoal : goal = some p.registers.pc
    · rw [if_pos hgoal]
      exact .of_pure _
    · rw [if_neg hgoal]
      refine (h p).bind ?_
      rintro ⟨fault | cycles, q⟩
      · exact .of_pure _
      · exact ih _ q

end Processor

/-! ## Chips and boards -/

/-- A bus that is too wide or too narrow is reported, and made as wide as it can be. -/
theorem Bus.discreet_ofWidth (width : Nat) : Discreet (Bus.ofWidth width) := by
  unfold Bus.ofWidth
  by_cases hclamped : Bus.clampWidth width ≠ width
  · simp only [if_pos hclamped]
    exact (Discreet.of_note _).bind fun _ => .of_pure _
  · simp only [if_neg hclamped]
    exact .of_pure _

/-- An image that does not fit is reported and fitted. -/
theorem Image.discreet_ofBytes (bytes : Array UInt8) (capacity : Nat) :
    Discreet (Image.ofBytes bytes capacity) := by
  unfold Image.ofBytes
  by_cases hfits : bytes.size = capacity
  · rw [if_pos hfits]
    exact .of_pure _
  · rw [if_neg hfits]
    exact (Discreet.of_note _).bind fun _ => .of_pure _

/-- A file that cannot be read is an error and not a notice. -/
theorem Image.discreet_load (files : Files) (path : String) (capacity : Nat) :
    Discreet (Image.load files path capacity) := by
  unfold Image.load
  cases files path with
  | error reason => exact .of_pure _
  | ok bytes =>
    exact (Discreet.of_note _).bind fun _ =>
      (Image.discreet_ofBytes bytes capacity).bind fun _ => .of_pure _

theorem Rom.discreet_make (name : String) (image : Array UInt8) (lines : Nat)
    (address data : BusId) (enable : WireId) :
    Discreet (Rom.make name image lines address data enable) := by
  unfold Rom.make
  cases checkLines lines with
  | error e => exact .of_pure _
  | ok _ => exact (Image.discreet_ofBytes image (span lines)).bind fun _ => .of_pure _

namespace Board

/-- The board for a processor has two buses, of widths that need no report. -/
theorem discreet_forProcessor : Discreet forProcessor :=
  (Bus.discreet_ofWidth 16).bind fun _ => (Bus.discreet_ofWidth 8).bind fun _ => .of_pure _

/-- Memory chips report that they are installed; the decoder does not. -/
theorem discreet_install (b : Board) (d : Device) : Discreet (b.install d) := by
  cases d with
  | rom chip => exact (Discreet.of_note _).bind fun _ => .of_pure _
  | ram chip => exact (Discreet.of_note _).bind fun _ => .of_pure _
  | decoder chip => exact .of_pure _

theorem discreet_installAll (b : Board) : Discreet b.installAll :=
  .of_foldlM discreet_install b.devices b

end Board

/-! ## Machines -/

open Building

/-- A ROM that is read from its file reports the reading, and a mismatch if there is one. -/
theorem RomSlot.discreet_ofFile (files : Files) (config : RomConfig) :
    Building.Discreet (RomSlot.ofFile files config) := by
  unfold RomSlot.ofFile
  dsimp only
  cases checkLines config.addressLines.toNat
  case' error => refine discreet_bind (discreet_throw _) fun _ => ?_
  -- the file is what the rest is about, whatever has come of the check
  all_goals
    refine discreet_bind (discreet_lift (Image.discreet_load ..)) ?_
    rintro (reason | image)
    · exact discreet_throw _
    · dsimp only
      cases image.fit with
      | exact => exact discreet_pure _
      | mismatch expected actual =>
        exact discreet_bind (discreet_lift (.of_note _)) fun _ => discreet_pure _

/-- All ROMs of a configuration do so in turn, up to the first that is refused. -/
theorem RomSlot.discreet_ofConfig (files : Files) (config : MachineConfig) :
    Building.Discreet (RomSlot.ofConfig files config) :=
  discreet_mapM (RomSlot.discreet_ofFile files) config.roms

namespace Pace

/-- A pace is reported before the run, be it accepted or refused. -/
theorem discreet_start (p : Pace) : Discreet p.start := by
  unfold start
  by_cases hrefused : p.quantum ≤ 0
  · rw [if_pos hrefused]
    exact (Discreet.of_note _).bind fun _ => .of_pure _
  · rw [if_neg hrefused]
    exact (Discreet.of_note _).bind fun _ => .of_pure _

/-- At the end of a run there is a report where none has been made along the way. -/
theorem discreet_finish (p : Pace) : Discreet p.finish := by
  unfold finish
  cases p.reportable with
  | true => exact .of_pure ()
  | false => exact .of_note _

end Pace

namespace Machine

/-- Whether a chip is mapped depends on where it ends, and only a chip that is mapped is reported. -/
theorem discreet_placed (slot : RomSlot) (enable : WireId) (made : Except ChipError Rom) :
    Building.Discreet (ε := MachineError) (match made with
      | .error reason => throw (.chip reason)
      | .ok rom => do
        if 0x10000 < slot.base.toNat + rom.capacity then
          throw (.romOutOfRange slot.name slot.base rom.capacity)
        note (.romMapped slot.name slot.base (slot.base.toNat + rom.capacity - 1))
        return (rom, ({ base := slot.base, length := rom.capacity, enable } : Window))) := by
  rcases made with reason | rom
  · exact discreet_throw _
  -- a ROM that has been made is refused without a report if it does not fit
  · have hreport : Building.Discreet (do
        note (.romMapped slot.name slot.base (slot.base.toNat + rom.capacity - 1))
        return (rom, ({ base := slot.base, length := rom.capacity, enable } : Window))) :=
      discreet_bind (discreet_lift (.of_note _)) fun _ => discreet_pure _
    dsimp only
    by_cases hlong : 0x10000 < slot.base.toNat + rom.capacity
    · rw [if_pos hlong]
      exact discreet_bind (discreet_throw _) fun _ => hreport
    · rw [if_neg hlong]
      exact hreport

/-- Mapping a ROM is making its chip and then placing it. -/
theorem discreet_mapRom (address data : BusId) (slot : RomSlot) (enable : WireId) :
    Building.Discreet (mapRom address data slot enable) :=
  discreet_bind (discreet_lift (Rom.discreet_make ..)) (discreet_placed slot enable)

/-- Assembling reports what its parts report; the look-ups in between are silent. -/
theorem discreet_assemble (slots : List RomSlot) : Building.Discreet (assemble slots) := by
  unfold assemble
  refine discreet_bind (discreet_lift Board.discreet_forProcessor) fun bare => ?_
  refine discreet_bind (discreet_orElse ..) fun address => ?_
  refine discreet_bind (discreet_orElse ..) fun data => ?_
  refine discreet_bind (discreet_orElse ..) fun rw => ?_
  refine discreet_bind (discreet_orElse ..) fun clock => ?_
  refine discreet_bind (discreet_orElse ..) ?_
  rintro ⟨ram, b⟩
  -- of all these steps, only making the board and making the ROMs have something to report
  have hmaps : ∀ entry : RomSlot × WireId,
      Building.Discreet (mapRom address data entry.1 entry.2) :=
    fun entry => discreet_mapRom address data entry.1 entry.2
  refine discreet_bind (discreet_mapM hmaps _) fun mapped => ?_
  exact discreet_bind (discreet_orElse ..) fun plugged => discreet_pure _

theorem discreet_boot (b : Board) (ram : Ram) (budget : Budget) :
    Building.Discreet (boot b ram budget) := by
  refine discreet_bind (discreet_orElse ..) fun nmi => ?_
  refine discreet_bind (discreet_orElse ..) fun irq => ?_
  refine discreet_bind (discreet_orElse ..) fun reset => ?_
  refine discreet_bind (discreet_lift b.discreet_installAll) fun installed => ?_
  exact discreet_bind (discreet_lift (Processor.discreet_powerUp _)) fun p => discreet_pure _

/-- Thus building a machine is discreet, from the first bus to the last reset. -/
theorem discreet_build (slots : List RomSlot) (budget : Budget) :
    Building.Discreet (build slots budget) := by
  refine discreet_bind (discreet_assemble slots) ?_
  rintro ⟨b, ram⟩
  exact discreet_boot b ram budget

/-- A paced run of a machine is discreet too: the pace, the loop, and the end. -/
theorem discreet_run (m : Machine) (pace : Pace) (fuel : Nat) : Discreet (m.run pace fuel) := by
  refine pace.discreet_start.bind ?_
  rintro (reason | quantum)
  · exact .of_pure _
  · refine (Processor.discreet_runLoop _ fuel _).bind ?_
    rintro ⟨ending, p⟩
    exact pace.discreet_finish.bind fun _ => .of_pure _

end Machine

/-! ## Whatever they are made to do -/

/-- What comes back from a processor, a board or a machine that has been made to do something. -/
inductive Reply where
  | done
  | outcome (outcome : Except Fault Nat)
  | tally (tally : Processor.Tally)
  | ending (ending : Ending)
  | taken (cycles : UInt64)
  | level (previous : Level)
  | image (image : Image)
  | events (events : List Event)
  | unnamed (reason : BoardError)
  | unmade (reason : ChipError)
  | unbuilt (reason : MachineError)
  | ran (outcome : Except MachineError Machine.RunOutcome)

/-- One task after the other, and all replies in their order. -/
def pursueAll (pursue : σ → τ → Logged (Reply × σ)) : List τ → σ → Logged (List Reply × σ)
  | [], s => return ([], s)
  | task :: tasks, s => do
    let (reply, s) ← pursue s task
    let (replies, s) ← pursueAll pursue tasks s
    return (reply :: replies, s)

/-- If each task is discreet, any sequence of them is, by induction over the tasks. -/
theorem discreet_pursueAll {pursue : σ → τ → Logged (Reply × σ)}
    (h : ∀ s task, Discreet (pursue s task)) (tasks : List τ) (s : σ) :
    Discreet (pursueAll pursue tasks s) := by
  induction tasks generalizing s with
  | nil => exact .of_pure _
  | cons task tasks ih =>
    refine (h s task).bind ?_
    rintro ⟨reply, s'⟩
    refine (ih s').bind ?_
    rintro ⟨replies, last⟩
    exact .of_pure _

namespace Processor

/-- What a processor on some memory can be made to do, and what can be done to it. -/
inductive Task (μ : Type) where
  | powerUp
  | cycle
  | step
  /-- So many steps, or up to an address. -/
  | advance (goal : Option UInt16) (count : Nat)
  /-- A run, with what others do to the panel while the processor waits. -/
  | run (asleep : Panel → Option Panel) (fuel : Nat)
  /-- A run with requests, grants and stops after its instructions. -/
  | scheduled (s : Schedule) (asleep : Panel → Option Panel) (fuel : Nat)
  | act (act : Act)
  | takeExecuted
  | setRegisters (change : Registers → Registers)
  /-- Something happens at the other end of the pins. -/
  | rewire (change : World μ → World μ)

variable {μ : Type} [Memory μ]

/-- What comes of a task for a processor. -/
def pursue (p : Processor μ) : Task μ → Logged (Reply × Processor μ)
  | .powerUp => do
    let p ← p.powerUp
    return (.done, p)
  | .cycle => do
    let (outcome, p) ← p.cycle
    return (.outcome outcome, p)
  | .step => do
    let (outcome, p) ← p.step
    return (.outcome outcome, p)
  | .advance goal count => do
    let (tally, p) ← advanceFor step goal count {} p
    return (.tally tally, p)
  | .run asleep fuel => do
    let (ending, p) ← p.runLoop asleep fuel
    return (.ending ending, p)
  | .scheduled s asleep fuel => do
    let (ending, p) ← (p.under s).runLoop asleep fuel
    return (.ending ending, { registers := p.registers, world := Attended.bare p.world })
  | .act act => return (.done, p.onPanel act.apply)
  | .takeExecuted =>
    let (executed, budget) := p.world.panel.budget.takeExecuted
    return (.taken executed, p.onPanel fun panel => { panel with budget })
  | .setRegisters change => return (.done, { p with registers := change p.registers })
  | .rewire change => return (.done, { p with world := change p.world })

/-- Every task for a processor is discreet. -/
theorem discreet_pursue (p : Processor μ) (task : Task μ) : Discreet (p.pursue task) := by
  cases task with
  | powerUp => exact p.discreet_powerUp.bind fun _ => .of_pure _
  | cycle => exact p.discreet_cycle.bind fun _ => .of_pure _
  | step => exact p.discreet_step.bind fun _ => .of_pure _
  | advance goal count =>
    exact (discreet_advanceFor discreet_step goal count {} p).bind fun _ => .of_pure _
  | run asleep fuel => exact (discreet_runLoop asleep fuel p).bind fun _ => .of_pure _
  | scheduled s asleep fuel =>
    exact (discreet_runLoop asleep fuel (p.under s)).bind fun _ => .of_pure _
  | act | takeExecuted | setRegisters | rewire => exact .of_pure _

end Processor

namespace Board

/-- What can be done to a board. -/
inductive Task where
  /-- A new board for a processor takes its place. -/
  | replace
  | addLine (name : String)
  | addBus (name : String) (width : Nat)
  | plugIn
  | attachInterrupts (nmi irq reset : WireId)
  | fitImage (bytes : Array UInt8) (capacity : Nat)
  | loadImage (files : Files) (path : String) (capacity : Nat)
  | addRom (name : String) (image : Array UInt8) (lines : Nat) (address data : BusId)
      (enable : WireId)
  | addRam (lines : Nat) (address data : BusId) (rw select : WireId)
  | addDevice (d : Device)
  | install (d : Device)
  | installAll
  | powerUp (d : Device)
  | powerUpAll
  | drive (wire : WireId) (level : Level)
  | listen (line : String) (level : Level) (s : NamedScript)
  | watch (names : List String)
  | poke (address : UInt16) (v : UInt8) (d : Device)
  | takeEvents

/-- What comes of a task for a board: a reply, and the board as it is then. -/
def pursue (b : Board) : Task → Logged (Reply × Board)
  | .replace => do
    let b ← forProcessor
    return (.done, b)
  | .addLine name => return (.done, (b.addLine name).2)
  | .addBus name width => do
    let bus ← Bus.ofWidth width
    return (.done, (b.addBus name bus).2)
  | .plugIn =>
    match b.plugIn with
    | .ok b => return (.done, b)
    | .error reason => return (.unnamed reason, b)
  | .attachInterrupts nmi irq reset => return (.done, b.attachInterrupts nmi irq reset)
  | .fitImage bytes capacity => do
    let image ← Image.ofBytes bytes capacity
    return (.image image, b)
  | .loadImage files path capacity => do
    match ← Image.load files path capacity with
    | .ok image => return (.image image, b)
    | .error reason => return (.unmade reason, b)
  | .addRom name image lines address data enable => do
    match ← Rom.make name image lines address data enable with
    | .ok rom => return (.done, b.addDevice (.rom rom))
    | .error reason => return (.unmade reason, b)
  | .addRam lines address data rw select =>
    match b.makeRam lines address data rw select with
    | .ok (ram, b) => return (.done, b.addDevice (.ram ram))
    | .error reason => return (.unmade reason, b)
  | .addDevice d => return (.done, b.addDevice d)
  | .install d => do
    let b ← b.install d
    return (.done, b)
  | .installAll => do
    let b ← b.installAll
    return (.done, b)
  | .powerUp d => return (.done, b.powerUp d)
  | .powerUpAll => return (.done, b.powerUpAll)
  | .drive wire level =>
    let (previous, b) := b.drive wire level
    return (.level previous, b)
  | .listen line level s =>
    match b.listen line level s with
    | .ok b => return (.done, b)
    | .error reason => return (.unnamed reason, b)
  | .watch names =>
    match b.watch names with
    | (none, b) => return (.done, b)
    | (some reason, b) => return (.unnamed reason, b)
  | .poke address v d => return (.done, b.poke address v d)
  | .takeEvents =>
    let (events, b) := b.takeEvents
    return (.events events, b)

/-- Every task for a board is discreet; most of them report nothing at all. -/
theorem discreet_pursue (b : Board) (task : Task) : Discreet (b.pursue task) := by
  cases task with
  | replace => exact discreet_forProcessor.bind fun _ => .of_pure _
  | addBus name width => exact (Bus.discreet_ofWidth width).bind fun _ => .of_pure _
  | fitImage bytes capacity =>
    exact (Image.discreet_ofBytes bytes capacity).bind fun _ => .of_pure _
  | loadImage files path capacity =>
    refine (Image.discreet_load files path capacity).bind ?_
    rintro (reason | image) <;> exact .of_pure _
  | addRom name image lines address data enable =>
    refine (Rom.discreet_make name image lines address data enable).bind ?_
    rintro (reason | rom) <;> exact .of_pure _
  | install d => exact (b.discreet_install d).bind fun _ => .of_pure _
  | installAll => exact b.discreet_installAll.bind fun _ => .of_pure _
  | plugIn =>
    simp only [pursue]
    cases b.plugIn <;> exact .of_pure _
  | addRam lines address data rw select =>
    simp only [pursue]
    rcases b.makeRam lines address data rw select with reason | ⟨ram, b'⟩ <;> exact .of_pure _
  | listen line level s =>
    simp only [pursue]
    cases b.listen line level s <;> exact .of_pure _
  | watch names =>
    simp only [pursue]
    rcases b.watch names with ⟨_ | reason, b'⟩ <;> exact .of_pure _
  -- the rest of what can be done to a board is done without a word
  | addLine | attachInterrupts | addDevice | powerUp | powerUpAll | drive | poke | takeEvents =>
    exact .of_pure _

end Board

namespace Machine

/-- What can be done to a machine, and to its parts. -/
inductive Task where
  | processor (task : Processor.Task Fabric)
  | board (task : Board.Task)
  | step
  /-- A wire is driven low and then high, by its name. -/
  | pulse (name : String)
  | countClock
  /-- A run at a pace. -/
  | run (pace : Pace) (fuel : Nat)
  /-- A new machine takes its place, if it can be built. -/
  | rebuild (slots : List RomSlot) (budget : Budget)
  /-- The same, with the images in files. -/
  | rebuildFrom (files : Files) (config : MachineConfig) (budget : Budget)

/-- The machine that was built, or the old one and what was wrong. -/
def orStay (m : Machine) : Except MachineError Machine → Reply × Machine
  | .ok m => (.done, m)
  | .error reason => (.unbuilt reason, m)

/-- What comes of a task for a machine.  Tasks for its parts leave the rest of it alone. -/
def pursue (m : Machine) : Task → Logged (Reply × Machine)
  | .processor task => do
    let (reply, p) ← m.processor.pursue task
    return (reply, m.withProcessor p)
  | .board task => do
    let (reply, board) ← m.board.pursue task
    return (reply, { m with board })
  | .step => do
    let (outcome, m) ← m.step
    return (.outcome outcome, m)
  | .pulse name =>
    match m.pulse name with
    | .ok m => return (.done, m)
    | .error reason => return (.unnamed reason, m)
  | .countClock =>
    match m.countClock with
    | .ok m => return (.done, m)
    | .error reason => return (.unnamed reason, m)
  | .run pace fuel => do
    let (outcome, m) ← m.run pace fuel
    return (.ran outcome, m)
  | .rebuild slots budget => do
    let built ← (build slots budget).run
    return m.orStay built
  | .rebuildFrom files config budget => do
    let built ← (RomSlot.ofConfig files config >>= fun slots => build slots budget).run
    return m.orStay built

/-- Every task for a machine is discreet, those for its parts because they are so for the parts. -/
theorem discreet_pursue (m : Machine) (task : Task) : Discreet (m.pursue task) := by
  cases task with
  | processor task => exact (m.processor.discreet_pursue task).bind fun _ => .of_pure _
  | board task => exact (m.board.discreet_pursue task).bind fun _ => .of_pure _
  | step =>
    have hstep : Discreet m.step := m.processor.discreet_step.bind fun _ => .of_pure _
    exact hstep.bind fun _ => .of_pure _
  | pulse name =>
    simp only [pursue]
    cases m.pulse name <;> exact .of_pure _
  | countClock =>
    simp only [pursue]
    cases m.countClock <;> exact .of_pure _
  | run pace fuel => exact (m.discreet_run pace fuel).bind fun _ => .of_pure _
  | rebuild slots budget => exact (discreet_build slots budget).bind fun _ => .of_pure _
  | rebuildFrom files config budget =>
    have hbuild := discreet_bind (RomSlot.discreet_ofConfig files config)
      fun slots => discreet_build slots budget
    exact hbuild.bind fun _ => .of_pure _

end Machine

/-- Reporting never influences what happens.  Under any two journals, whatever their levels, their limits
    and the history of their limiters, the same tasks in the same order bring the same replies, faults and
    other errors included, and the same processor, board or machine: registers, memory, levels of wires,
    pending requests and budget.  The journals are offered the same notices, and one in which every level
    is off writes nothing, and does not change at all.  The same goes for building a machine where there
    was none. -/
theorem reporting_unobtrusive :
    (∀ {μ : Type} [Memory μ] (tasks : List (Processor.Task μ)) (p : Processor μ),
      Unobtrusive (pursueAll Processor.pursue tasks p)) ∧
    (∀ (tasks : List Board.Task) (b : Board), Unobtrusive (pursueAll Board.pursue tasks b)) ∧
    (∀ (tasks : List Machine.Task) (m : Machine), Unobtrusive (pursueAll Machine.pursue tasks m)) ∧
    (∀ (files : Files) (config : MachineConfig), Unobtrusive (RomSlot.ofConfig files config).run) ∧
    ∀ (slots : List RomSlot) (budget : Budget), Unobtrusive (Machine.build slots budget).run := by
  refine ⟨?_, ?_, ?_, ?_, ?_⟩
  · intro μ _ tasks p
    exact (discreet_pursueAll Processor.discreet_pursue tasks p).unobtrusive
  · intro tasks b
    exact (discreet_pursueAll Board.discreet_pursue tasks b).unobtrusive
  · intro tasks m
    exact (discreet_pursueAll Machine.discreet_pursue tasks m).unobtrusive
  · intro files config
    exact (RomSlot.discreet_ofConfig files config).unobtrusive
  · intro slots budget
    exact (Machine.discreet_build slots budget).unobtrusive

/-- The first cycle on a blank memory is written down by a journal that traces, and by no other. -/
example :
    let p : Processor Flat := { world := { memory := {} } }
    ((p.cycle.run { general := .trace }).2.entries.length,
      (p.cycle.run { general := .debug }).2.entries.length) = (1, 0) := by
  rfl

end Breadboard
