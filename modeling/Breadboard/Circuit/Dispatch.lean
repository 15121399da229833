import Breadboard.Circuit.Fabric
/-
  Driving wires.

  To drive a wire is to set its level, then to call the listeners that were registered for that level
  at that moment, in their order, and to answer with the level it had before.  A listener may drive
  wires in turn, the same one too, and may register more listeners; the calls nest.

  `drive?` follows such calls down to a given depth and answers nothing if they nest deeper.
  `drive` allows a depth that no circuit with an end to its calls comes near.
-/
namespace Breadboard

/-- How a circuit's wires are driven from within.  There is no answer where calls nest deeper than can be
    followed. -/
abbrev Driver := WireId → Level → Circuit → Option (Level × Circuit)

namespace Circuit

/-- Changes the fabric, and leaves the panel alone.  Most of what listeners do is of this kind. -/
def onFabric (c : Circuit) (f : Fabric → Fabric) : Circuit :=
  { c with memory := f c.memory }

/-- Changes the panel, and leaves the fabric alone, as the latches of the interrupt wires do. -/
def onPanel (c : Circuit) (f : Panel → Panel) : Circuit :=
  { c with panel := f c.panel }

end Circuit

/-- What a script does when it is called; wires are driven by whatever driver it is given. -/
def Action.run (drive : Driver) (tag : String) (c : Circuit) :
    Action WireId BusId → Option Circuit
  | .drive wire level => do
    let (previous, c) ← drive wire level c
    return Circuit.onFabric c (·.report (.previous tag previous))
  | .write bus value => some (Circuit.onFabric c (·.writeBus bus value))
  | .copy source target => some (Circuit.onFabric c fun f => f.writeBus target (f.readBus source))
  | .read bus name => some (Circuit.onFabric c fun f => f.report (.bus tag name (f.readBus bus)))
  | .probe wire name =>
    some (Circuit.onFabric c fun f => f.report (.wire tag name (f.wire wire).level))
  | .listen wire level script => some (Circuit.onFabric c (·.listenScript wire level script))

/-- Whether a script that has been called so often is to act: its condition has to hold, and its limit may
    not be used up. -/
def Probe.due (s : Probe) (f : Fabric) (calls : Nat) : Bool :=
  s.condition.all (fun (bus, value) => f.readBus bus = value) && s.limit.all (calls < ·)

namespace Listener

/-- What a listener does when it is called.  Only scripts and decoders drive wires in turn. -/
def respond (drive : Driver) (c : Circuit) : Listener → Option Circuit
  | .rom chip =>
    some (Circuit.onFabric c fun f =>
      f.writeBus chip.data (chip.read (f.readAddress chip.address)).toNat)
  | .ram chip =>
    some (Circuit.onFabric c fun f =>
      let address := f.readAddress chip.address
      if (f.wire chip.rw).level.isHigh then
        f.writeBus chip.data ((f.store chip.store).read address).toNat
      else
        let v := UInt8.ofNat (f.readBus chip.data)
        -- a write to a RAM takes the byte from the data bus
        f.setStore chip.store ((f.store chip.store).write address v))
  | .select chip => do
    let f := c.memory
    let wire := chip.selected (f.readAddress chip.address) (f.wire chip.rw).level.isHigh
    -- calling the chip is all that this wire is for; the other listener of the decoder lets it go again
    return (← drive wire .low c).2
  | .release chip =>
    chip.outputs.foldlM (fun c wire => (drive wire .high c).map (·.2)) c
  | .request kind => some (Circuit.onPanel c (·.raise kind))
  | .countdown => some (Circuit.onPanel c (·.countDown))
  | .script counter s =>
    let calls := c.memory.counter counter
    if Probe.due s c.memory calls then
      -- the call counts before the actions, which may call this script again
      let c := Circuit.onFabric c fun f =>
        (f.setCounter counter (calls + 1)).report (.fired s.tag)
      s.actions.foldlM (fun c action => action.run drive s.tag c) c
    else some c
  | .watch name level address data =>
    some (Circuit.onFabric c fun f =>
      f.report (.access name level (f.readBus address) (f.readBus data)))

end Listener

namespace Circuit

/-- Drives a wire, following calls down to a depth.  Who is called is settled when the level has just been
    set, before anybody is called. -/
def drive? : Nat → Driver
  | 0, _, _, _ => none
  | depth + 1, wire, level, c => do
    let before := c.memory.wire wire
    let c := onFabric c (·.setLevel wire level)
    -- the list is that of `before`, so a listener that is added by one of these calls waits for the next
    -- time
    let c ← (before.listeners level).foldlM (fun c l => l.respond (drive? depth) c) c
    return (before.level, c)

/-- How deep calls may nest, which is deeper than those of any circuit that comes to rest. -/
def maxDepth : Nat := 1000000

/-- Drives a wire; the result is the level it had before.  When the calls have no end, only the level
    is set. -/
def drive (wire : WireId) (level : Level) (c : Circuit) : Level × Circuit :=
  -- the second part is for circuits whose calls have no end
  (drive? maxDepth wire level c).getD
    ((c.memory.wire wire).level, onFabric c (·.setLevel wire level))

/-- The circuit after a wire has been driven, for those who do not ask what its level was. -/
def driven (wire : WireId) (level : Level) (c : Circuit) : Circuit :=
  (drive wire level c).2

end Circuit

/-! ## The processor's socket

How an access looks on the wires.  For every access the address is put on its bus, a written byte on the data
bus, and the read/write wire is driven; then the clock is driven high, and the chips do their work within
that.  A read takes what is on the data bus afterwards.  The clock goes low at the end of the cycle. -/

namespace Circuit

/-- Reads a byte through the socket: the address, the read/write wire, the clock, and then what is on the
    data bus. -/
def readPins (address : UInt16) (c : Circuit) : UInt8 × Circuit :=
  let pins := c.memory.socket
  let c := onFabric c (·.writeBus pins.address address.toNat)
  -- the chip that is selected answers while the clock is going high
  let c := driven pins.clock .high (driven pins.rw .high c)
  (UInt8.ofNat (c.memory.readBus pins.data), c)

/-- Writes a byte through the socket: the address and the byte, the read/write wire, and then the clock. -/
def writePins (address : UInt16) (v : UInt8) (c : Circuit) : Circuit :=
  let pins := c.memory.socket
  let c := onFabric c fun f => (f.writeBus pins.address address.toNat).writeBus pins.data v.toNat
  driven pins.clock .high (driven pins.rw .low c)

/-- Ends a clock cycle: the clock goes low, and whoever listens to that is called. -/
def endPins (c : Circuit) : Circuit :=
  driven c.memory.socket.clock .low c

end Circuit

instance : Memory Fabric where
  read := Circuit.readPins
  write := Circuit.writePins
  endCycle := Circuit.endPins

end Breadboard
