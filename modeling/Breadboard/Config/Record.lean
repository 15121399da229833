import Breadboard.Config.Json
import Breadboard.Cpu.Registers
import Breadboard.Pacing.Pace
/-
  Descriptions of machines, and reading them from JSON.

  A description and its pace have a default for every field; a ROM needs all of its fields, and so do
  flags.  A field that is not known is skipped.
-/
namespace Breadboard

/-- One ROM chip of a machine, as it is described: where its image is, and where it answers. -/
structure RomConfig where
  /-- What the chip is called; its enable wire is named after it. -/
  name : String
  /-- The file that the image is read from. -/
  path : String
  /-- The first address at which it answers. -/
  base : UInt16
  /-- How many address lines it has: its size is two to this power. -/
  addressLines : UInt32
deriving DecidableEq, Repr

/-- The description of a machine.  Everything in it may be left out. -/
structure MachineConfig where
  pace : Pace := {}
  roms : List RomConfig := []
deriving DecidableEq, Repr

namespace Config

open Json

/-- A number of seconds, or `null` for none, which is not the same as leaving the field out. -/
def interval? : Json → Option (Option UInt64)
  -- the outer one says that the field is right, the inner one that there are to be no reports
  | .null => some none
  | v => (natural? UInt64.size v).map fun n => some (UInt64.ofNat n)

/-- Reads a pace.  A field that is left out has the value that a pace has by default. -/
def pace? (v : Json) : Option Pace := do
  match ← fields? ["target_hz", "ticks_per_second", "report_interval_secs"] v with
  | [hz, ticks, interval] =>
    let default : Pace := {}
    return {
      targetHz := ← optional default.targetHz (fun v => (natural? UInt64.size v).map .ofNat) hz
      ticksPerSecond :=
        ← optional default.ticksPerSecond (fun v => (natural? UInt32.size v).map .ofNat) ticks
      reportInterval := ← optional default.reportInterval interval? interval }
  | _ => none

/-- Reads the description of a ROM, which has to be given in full. -/
def rom? (v : Json) : Option RomConfig := do
  match ← fields? ["name", "path", "base", "address_lines"] v with
  | [name, path, base, addressLines] =>
    return {
      name := ← required text? name
      path := ← required text? path
      base := ← required (fun v => (natural? UInt16.size v).map .ofNat) base
      addressLines := ← required (fun v => (natural? UInt32.size v).map .ofNat) addressLines }
  | _ => none

/-- Reads the descriptions of the ROMs, in their order; one that is wrong makes all of them wrong. -/
def roms? (v : Json) : Option (List RomConfig) := do
  (← v.elements?).mapM rom?

/-- Reads the description of a machine: its pace and its ROMs. -/
def machine? (v : Json) : Option MachineConfig := do
  match ← fields? ["scheduler", "roms"] v with
  | [pace, roms] =>
    let default : MachineConfig := {}
    return {
      pace := ← optional default.pace pace? pace
      roms := ← optional default.roms roms? roms }
  | _ => none

/-- The names of the flags in a record of them, in their order. -/
def flagNames : List String :=
  ["negative", "overflow", "unused", "brk", "decimal", "interrupt_disable", "zero", "carry"]

/-- Reads the flags, all eight of them, of which none may be left out. -/
def flags? (v : Json) : Option Flags := do
  match ← (← fields? flagNames v).mapM (required bool?) with
  | [negative, overflow, unused, brk, decimal, interruptDisable, zero, carry] =>
    return { negative, overflow, unused, brk, decimal, interruptDisable, zero, carry }
  | _ => none

end Config

/-- Reads a pace from JSON text, which has to be one value and nothing else. -/
def Pace.ofText? (s : String) : Option Pace :=
  (Config.Json.ofText? s).bind Config.pace?

/-- Reads a machine's description from JSON text, which has to be one value and nothing else. -/
def MachineConfig.ofText? (s : String) : Option MachineConfig :=
  (Config.Json.ofText? s).bind Config.machine?

/-- Reads flags from JSON text, which has to be one value and nothing else. -/
def Flags.ofText? (s : String) : Option Flags :=
  (Config.Json.ofText? s).bind Config.flags?

/-! ## Writing descriptions -/

open Config

/-- The flags by name, as truth values, in the order in which they are read. -/
def Flags.toJson (f : Flags) : Json :=
  .ofMembers (flagNames.zip
    ([f.negative, f.overflow, f.unused, f.brk, f.decimal, f.interruptDisable, f.zero, f.carry].map
      .bool))

/-- A pace as it would be described, with `null` for no reports. -/
def Pace.toJson (p : Pace) : Json :=
  .ofMembers [
    ("target_hz", .ofNat p.targetHz.toNat), ("ticks_per_second", .ofNat p.ticksPerSecond.toNat),
    ("report_interval_secs",
      match p.reportInterval with
      | none => .null
      | some secs => .ofNat secs.toNat)]

/-- A ROM as it would be described, with all of its fields. -/
def RomConfig.toJson (r : RomConfig) : Json :=
  .ofMembers [
    ("name", .text r.name), ("path", .text r.path), ("base", .ofNat r.base.toNat),
    ("address_lines", .ofNat r.addressLines.toNat)]

/-- A machine as it would be described, with nothing left out. -/
def MachineConfig.toJson (c : MachineConfig) : Json :=
  .ofMembers [("scheduler", c.pace.toJson), ("roms", .array (c.roms.map (·.toJson)))]

end Breadboard
