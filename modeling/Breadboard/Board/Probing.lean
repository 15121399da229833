import Breadboard.Board.Basic
/-
  Trying a board out: scripts and watches, placed by name.

  A script names wires and buses; wiring it up finds them all before anything is registered, first the
  wire it listens on, then the bus of its condition, then those of its actions in order, and so on
  inside actions that place scripts themselves.  The first name that is missing is the error.
-/
namespace Breadboard

/-- A script as it is written, with names in place of wires and buses. -/
abbrev NamedScript := Script (Action String String) String

namespace Board

/-- The bus of a condition, found by its name when the script is wired up and not again later. -/
def wireCondition (b : Board) :
    Option (String × Nat) → Except BoardError (Option (BusId × Nat))
  | none => return none
  | some (name, value) => return some (← b.bus name, value)

mutual

/-- Finds what an action names.  A script inside it is wired up with it. -/
def wireAction (b : Board) :
    Action String String → Except BoardError (Action WireId BusId)
  | .drive line level => return .drive (← b.line line) level
  | .write bus value => return .write (← b.bus bus) value
  | .copy source target => return .copy (← b.bus source) (← b.bus target)
  | .read bus name => return .read (← b.bus bus) name
  | .probe line name => return .probe (← b.line line) name
  | .listen line level ⟨tag, limit, condition, actions⟩ => do
    let wire ← b.line line
    let condition ← b.wireCondition condition
    return .listen wire level ⟨tag, limit, condition, ← b.wireActions actions⟩

/-- Finds what actions name, one after the other; the first name that is missing is the error. -/
def wireActions (b : Board) :
    List (Action String String) → Except BoardError (List (Action WireId BusId))
  | [] => return []
  | action :: actions => do
    let action ← b.wireAction action
    return action :: (← b.wireActions actions)

end

/-- Lets a script listen on a wire, after everything it names has been found. -/
def listen (b : Board) (line : String) (level : Level) (s : NamedScript) :
    Except BoardError Board := do
  let wire ← b.line line
  let condition ← b.wireCondition s.condition
  -- if anything is missing, nothing has been registered yet
  let actions ← b.wireActions s.actions
  return b.onFabric (·.listenScript wire level { s with condition, actions })

/-- Watches wires one by one, on low and then on high, as long as their names are known. -/
def watchLines (b : Board) (address data : BusId) : List String → Option BoardError × Board
  | [] => (none, b)
  | name :: names =>
    match b.line name with
    -- the wires before this one are watched, those behind it are not
    | .error e => (some e, b)
    | .ok wire =>
      let b := b.onFabric fun f =>
        (f.listen wire .low (.watch name .low address data)).listen wire .high
          (.watch name .high address data)
      b.watchLines address data names

/-- Watches wires together with the address and data buses; without these buses nothing is watched. -/
def watch (b : Board) (names : List String) : Option BoardError × Board :=
  match b.bus addressBus, b.bus dataBus with
  | .error e, _ => (some e, b)
  | .ok _, .error e => (some e, b)
  | .ok address, .ok data => b.watchLines address data names

/-- Takes what has been reported since the last time, in order, so that nothing is taken twice. -/
def takeEvents (b : Board) : List Event × Board :=
  (b.fabric.events.reverse, b.onFabric fun f => { f with events := [] })

/-! ## How wires, buses and chips are shown -/

/-- The level of a wire and how many listeners it has, as a wire shows itself to somebody who asks. -/
def showLine (b : Board) (w : WireId) : String :=
  let wire := b.fabric.wire w
  let listeners := s!"low_listeners: {wire.onLow.length}, high_listeners: {wire.onHigh.length}"
  "Line \x7b level: " ++ wire.level.capitalName ++ ", " ++ listeners ++ " \x7d"

/-- The width of a bus and what is on it, as a bus shows itself to somebody who asks. -/
def showBus (b : Board) (id : BusId) : String :=
  let bus := b.fabric.bus id
  "Bus \x7b width: " ++ toString bus.width ++ ", value: " ++ Text.Hex.marked 1 bus.value ++ " \x7d"

/-- The kind of a chip and how large it is, in one line. -/
def showDevice : Device → String
  | .rom chip => s!"Rom {chip.name} {chip.capacity}"
  | .ram chip => s!"Ram {chip.capacity}"
  | .decoder chip => s!"Decoder {chip.windows.length}"

/-! ## The insides of chips -/

/-- The byte that a chip holds at an address, without any access on the wires.  A decoder holds none. -/
def peek (b : Board) (address : UInt16) : Device → UInt8
  | .rom chip => chip.read address
  | .ram chip => (b.fabric.store chip.store).read address
  | .decoder _ => 0

/-- Changes a byte of a RAM, without any access on the wires.  Other chips cannot be changed. -/
def poke (b : Board) (address : UInt16) (v : UInt8) : Device → Board
  | .ram chip =>
    b.onFabric fun f => f.setStore chip.store ((f.store chip.store).write address v)
  | _ => b

/-- All bytes of a chip, in the order of their addresses. -/
def dump (b : Board) : Device → List UInt8
  | .rom chip => chip.cells.toList
  | .ram chip => (b.fabric.store chip.store).cells.toList
  | .decoder _ => []

/-- The wire that selects a chip; a decoder is not selected by anything. -/
def selectWire : Device → Option WireId
  | .rom chip => some chip.enable
  | .ram chip => some chip.select
  | .decoder _ => none

end Board

end Breadboard
