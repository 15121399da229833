import Breadboard.Chip.Parts
import Breadboard.Memory.World
import Breadboard.Signal.Wires
import Breadboard.Text.Shown
/-
  The fabric of a circuit: its wires and buses, and what hangs on them.

  A wire keeps two lists of listeners, one for each level.  Whoever drives the wire to a level calls
  the listeners of that level, whether or not the wire was there before.  The lists only ever grow, at
  their end.

  Besides chips, scripts can listen: short lists of actions, for trying a circuit out.  What scripts
  and watches see is kept as a list of events.
-/
namespace Breadboard

/-- A script says what to do when its wire is driven.  It does nothing unless the bus in `condition`
    holds the value there, and nothing once it has been called as often as `limit` says. -/
structure Script (α β : Type) where
  tag : String
  limit : Option Nat := none
  condition : Option (β × Nat) := none
  actions : List α

/-- What a script can do, to wires `ω` and buses `β`, which are names while it is written and numbers once
    it is wired up. -/
inductive Action (ω β : Type) where
  /-- Drive a wire, and report the level it had. -/
  | drive (wire : ω) (level : Level)
  | write (bus : β) (value : Nat)
  | copy (source target : β)
  /-- Report what is on a bus. -/
  | read (bus : β) (name : String)
  /-- Report the level of a wire. -/
  | probe (wire : ω) (name : String)
  /-- Let another script listen from now on. -/
  | listen (wire : ω) (level : Level) (script : Script (Action ω β) β)

/-- A script that is wired up, with the numbers of its wires and buses. -/
abbrev Probe := Script (Action WireId BusId) BusId

/-- Something that scripts and watches report, each with the tag or the name it goes by. -/
inductive Event where
  | fired (tag : String)
  | previous (tag : String) (level : Level)
  | bus (tag name : String) (value : Nat)
  | wire (tag name : String) (level : Level)
  | access (name : String) (level : Level) (address data : Nat)
deriving DecidableEq, Repr

open Text in
/-- A report in words, with the tag in front; what a watch has seen is in hexadecimal. -/
def Event.text : Event → String
  | .fired tag => tag
  | .previous tag level => s!"{tag} prev {level.name}"
  | .bus tag name value => s!"{tag} {name}={value}"
  | .wire tag name level => s!"{tag} {name}={level.name}"
  | .access name level address data =>
    s!"{name} {level.name} {Hex.padded 4 address} {Hex.padded 2 data}"

/-- What is called when a wire is driven.  All chips of the machine work in this way, and nothing else
    does. -/
inductive Listener where
  /-- The chip puts the byte at the bus address onto the data bus. -/
  | rom (chip : Rom)
  /-- The chip is read or written, as its read/write wire says. -/
  | ram (chip : Ram)
  /-- The decoder pulls the wire of one chip low. -/
  | select (chip : Decoder)
  /-- The decoder lets all its wires go high. -/
  | release (chip : Decoder)
  /-- A request is latched at the panel. -/
  | request (kind : Request)
  /-- The panel counts down the clock cycles of a run. -/
  | countdown
  | script (counter : CounterId) (script : Probe)
  /-- The level and the buses are reported. -/
  | watch (name : String) (level : Level) (address data : BusId)

/-- A wire: its level, and who is called when it is driven low or high. -/
structure Wire where
  level : Level := .low
  /-- Called when it is driven low, in this order. -/
  onLow : List Listener := []
  /-- Called when it is driven high, in this order. -/
  onHigh : List Listener := []

namespace Wire

instance : Inhabited Wire := ⟨{}⟩

/-- Those who are called when a wire is driven to a level. -/
def listeners (w : Wire) : Level → List Listener
  | .low => w.onLow
  | .high => w.onHigh

/-- Adds a listener after those that are there, so that it is called last. -/
def listen (w : Wire) (level : Level) (l : Listener) : Wire :=
  match level with
  | .low => { w with onLow := w.onLow ++ [l] }
  | .high => { w with onHigh := w.onHigh ++ [l] }

end Wire

/-- Where the processor is plugged in: the buses and wires that it drives itself. -/
structure Socket where
  address : BusId := ⟨0⟩
  data : BusId := ⟨1⟩
  rw : WireId := ⟨0⟩
  clock : WireId := ⟨4⟩
deriving DecidableEq, Repr, Inhabited

/-- Everything that a circuit is made of, by number.  Reading a number that was never used gives the
    default. -/
structure Fabric where
  wires : Rack Wire := {}
  buses : Rack Bus := {}
  stores : Rack Store := {}
  /-- How often each script has been called. -/
  counters : Rack Nat := {}
  socket : Socket := {}
  /-- What was reported, the latest first. -/
  events : List Event := []

/-- A circuit at work: its fabric, and the panel that it can reach. -/
abbrev Circuit := World Fabric

namespace Fabric

/-- The wire of a number, with its level and its listeners. -/
def wire (f : Fabric) (w : WireId) : Wire :=
  f.wires.get w.index

/-- The bus of a number, with its width and what is on it. -/
def bus (f : Fabric) (b : BusId) : Bus :=
  f.buses.get b.index

/-- The memory cells of a number, which belong to a RAM. -/
def store (f : Fabric) (s : StoreId) : Store :=
  f.stores.get s.index

/-- How often a script has been called, by the number of its counter. -/
def counter (f : Fabric) (c : CounterId) : Nat :=
  f.counters.get c.index

/-- What is on a bus, as the number that its wires make up. -/
def readBus (f : Fabric) (b : BusId) : Nat :=
  (f.bus b).value

/-- What is on a bus, as an address; a wider bus would be cut down to sixteen wires. -/
def readAddress (f : Fabric) (b : BusId) : UInt16 :=
  UInt16.ofNat (f.readBus b)

/-- Drives a bus.  Nobody is called for that: only wires have listeners. -/
def writeBus (f : Fabric) (b : BusId) (v : Nat) : Fabric :=
  { f with buses := f.buses.set b.index ((f.bus b).write v) }

/-- Sets the level of a wire, and calls nobody.  Driving the wire comes down to this and the calls. -/
def setLevel (f : Fabric) (w : WireId) (level : Level) : Fabric :=
  { f with wires := f.wires.set w.index { f.wire w with level } }

/-- Lets somebody listen on a wire, after those who do already. -/
def listen (f : Fabric) (w : WireId) (level : Level) (l : Listener) : Fabric :=
  { f with wires := f.wires.set w.index ((f.wire w).listen level l) }

/-- Puts memory cells in the place of others, as writing a byte does. -/
def setStore (f : Fabric) (s : StoreId) (store : Store) : Fabric :=
  { f with stores := f.stores.set s.index store }

/-- Sets the counter of a script, as every call does in which the script acts. -/
def setCounter (f : Fabric) (c : CounterId) (n : Nat) : Fabric :=
  { f with counters := f.counters.set c.index n }

/-- Puts down a report, on top of those before it. -/
def report (f : Fabric) (e : Event) : Fabric :=
  { f with events := e :: f.events }

/-- Lays a new wire, and says which number it has. -/
def addWire (f : Fabric) (w : Wire) : WireId × Fabric :=
  let (index, wires) := f.wires.add w
  (⟨index⟩, { f with wires })

/-- Lays a new bus, and says which number it has. -/
def addBus (f : Fabric) (b : Bus) : BusId × Fabric :=
  let (index, buses) := f.buses.add b
  (⟨index⟩, { f with buses })

/-- Makes new memory cells, and says which number they have. -/
def addStore (f : Fabric) (s : Store) : StoreId × Fabric :=
  let (index, stores) := f.stores.add s
  (⟨index⟩, { f with stores })

/-- Lets a script listen, with a counter of its own, so that the same script in two places is counted
    twice. -/
def listenScript (f : Fabric) (w : WireId) (level : Level) (s : Probe) : Fabric :=
  -- the counter is not part of the script, which is the same in both places
  let (index, counters) := f.counters.add 0
  { f with counters }.listen w level (.script ⟨index⟩ s)

/-! ## What a change leaves as it was -/

/-- Setting a level changes that wire only, and of it only the level. -/
theorem wire_setLevel (f : Fabric) (w v : WireId) (level : Level) :
    (f.setLevel w level).wire v = if v = w then { f.wire w with level } else f.wire v := by
  obtain ⟨i⟩ := w
  obtain ⟨j⟩ := v
  simp only [setLevel, wire, Rack.get_set, WireId.mk.injEq]

/-- A new listener changes that wire only, and leaves its level as it is. -/
theorem wire_listen (f : Fabric) (w v : WireId) (level : Level) (l : Listener) :
    (f.listen w level l).wire v = if v = w then (f.wire w).listen level l else f.wire v := by
  obtain ⟨i⟩ := w
  obtain ⟨j⟩ := v
  simp only [listen, wire, Rack.get_set, WireId.mk.injEq]

theorem bus_writeBus (f : Fabric) (b c : BusId) (v : Nat) :
    (f.writeBus b v).bus c = if c = b then (f.bus b).write v else f.bus c := by
  obtain ⟨i⟩ := b
  obtain ⟨j⟩ := c
  simp only [writeBus, bus, Rack.get_set, BusId.mk.injEq]

/-- What is on a bus after it was driven, cut down to its width. -/
theorem readBus_writeBus (f : Fabric) (b : BusId) (v : Nat) :
    (f.writeBus b v).readBus b = v % span (f.bus b).width := by
  rw [readBus, bus_writeBus, if_pos rfl, Bus.value_write]

theorem readBus_writeBus_of_ne {b c : BusId} (h : c ≠ b) (f : Fabric) (v : Nat) :
    (f.writeBus b v).readBus c = f.readBus c := by
  rw [readBus, bus_writeBus, if_neg h, readBus]

/-- Replaced cells are where they were put, and all others are as they were. -/
theorem store_setStore (f : Fabric) (s t : StoreId) (store : Store) :
    (f.setStore s store).store t = if t = s then store else f.store t := by
  obtain ⟨i⟩ := s
  obtain ⟨j⟩ := t
  simp only [setStore, Fabric.store, Rack.get_set, StoreId.mk.injEq]

/-- The same listeners on every wire, the same widths, and the same socket: what is left to differ is
    what a circuit is in the middle of. -/
structure SameBuild (f g : Fabric) : Prop where
  onLow : ∀ w, (g.wire w).onLow = (f.wire w).onLow
  onHigh : ∀ w, (g.wire w).onHigh = (f.wire w).onHigh
  width : ∀ b, (g.bus b).width = (f.bus b).width
  socket : g.socket = f.socket

/-- A fabric is built as it is built; with `SameBuild.trans` this lets a whole access be followed step by
    step. -/
theorem SameBuild.refl (f : Fabric) : SameBuild f f :=
  ⟨fun _ => rfl, fun _ => rfl, fun _ => rfl, rfl⟩

/-- Two steps that keep the build keep it together. -/
theorem SameBuild.trans {f g h : Fabric} (hfg : SameBuild f g) (hgh : SameBuild g h) :
    SameBuild f h where
  onLow w := (hgh.onLow w).trans (hfg.onLow w)
  onHigh w := (hgh.onHigh w).trans (hfg.onHigh w)
  width b := (hgh.width b).trans (hfg.width b)
  socket := hgh.socket.trans hfg.socket

/-- The same build means the same listeners, on every wire and for both levels: those are what an access
    calls. -/
theorem SameBuild.listeners {f g : Fabric} (h : SameBuild f g) (w : WireId) (level : Level) :
    (g.wire w).listeners level = (f.wire w).listeners level := by
  cases level with
  | low => exact h.onLow w
  | high => exact h.onHigh w

/-- Setting a level is not building: who listens where, and how wide the buses are, is as before. -/
theorem sameBuild_setLevel (f : Fabric) (w : WireId) (level : Level) :
    SameBuild f (f.setLevel w level) where
  onLow v := by
    rw [wire_setLevel]
    by_cases h : v = w
    · rw [if_pos h, h]
    · rw [if_neg h]
  onHigh v := by
    rw [wire_setLevel]
    by_cases h : v = w
    · rw [if_pos h, h]
    · rw [if_neg h]
  width _ := rfl
  socket := rfl

/-- Driving a bus is not building: the bus keeps its width. -/
theorem sameBuild_writeBus (f : Fabric) (b : BusId) (v : Nat) : SameBuild f (f.writeBus b v) where
  onLow _ := rfl
  onHigh _ := rfl
  width c := by
    rw [bus_writeBus]
    by_cases h : c = b
    · rw [if_pos h, h]
      rfl
    · rw [if_neg h]
  socket := rfl

/-- Writing into memory cells is not building. -/
theorem sameBuild_setStore (f : Fabric) (s : StoreId) (store : Store) :
    SameBuild f (f.setStore s store) :=
  ⟨fun _ => rfl, fun _ => rfl, fun _ => rfl, rfl⟩

end Fabric

end Breadboard
