import Breadboard.Log.Journal
/-
  Images: the bytes that go into a ROM.

  A chip with k address lines, 1 to 16 of them, holds `span k` bytes.  An image is fitted to that
  length: what is too long is cut off, what is too short is filled up with zeros, and the result says
  which it was.
-/
namespace Breadboard

/-- The widest chip that the address bus can select, in address lines. -/
def maxAddressLines : Nat := 16

/-- Why a file cannot be read or written; what is not told apart here is in words. -/
inductive FileError where
  | notFound
  | isDirectory
  | notDirectory
  | nameTooLong
  /-- The file takes no more bytes. -/
  | noSpace
  /-- No path can hold the null character. -/
  | nullCharacter
  | other (text : String)
deriving DecidableEq, Repr

/-- The reason in the words of the system that the files are on. -/
def FileError.message : FileError → String
  | .notFound => "No such file or directory (os error 2)"
  | .isDirectory => "Is a directory (os error 21)"
  | .notDirectory => "Not a directory (os error 20)"
  | .nameTooLong => "File name too long (os error 36)"
  | .noSpace => "No space left on device (os error 28)"
  | .nullCharacter => "file name contained an unexpected NUL byte"
  | .other text => text

/-- What every path leads to.  Whatever reads files takes them from here, so a session can be run on files
    that are kept in memory. -/
abbrev Files := String → Except FileError (Array UInt8)

/-- Why a chip cannot be made.  Nothing has been put on a board then. -/
inductive ChipError where
  /-- The file of its image could not be read. -/
  | imageLoad (path : String) (reason : FileError)
  /-- No chip has so many address lines, or so few. -/
  | addressLines (lines : Nat)
deriving DecidableEq, Repr

/-- The reason in words, with the path or the number that was wrong. -/
def ChipError.message : ChipError → String
  | .imageLoad path reason => s!"cannot load image {path}: {reason.message}"
  | .addressLines lines => s!"{lines} address lines is outside 1..=16"

/-- Refuses a number of address lines that chips cannot have.  This comes before anything is read or made. -/
def checkLines (lines : Nat) : Except ChipError Unit :=
  if lines = 0 ∨ maxAddressLines < lines then .error (.addressLines lines) else .ok ()

/-- How the length of an image compares with its chip: the same, or both lengths. -/
inductive Fit where
  | exact
  | mismatch (expected actual : Nat)
deriving DecidableEq, Repr

/-- Bytes as long as their chip, and how they compared with it before they were cut off or filled up. -/
structure Image where
  bytes : Array UInt8
  fit : Fit
deriving DecidableEq, Repr

namespace Image

/-- Bytes cut off, or filled up with zeros, to a length.  The bytes that stay keep their places. -/
def resize (bytes : Array UInt8) (size : Nat) : Array UInt8 :=
  if size ≤ bytes.size then bytes.extract 0 size
  else bytes ++ Array.replicate (size - bytes.size) 0

/-- Fitted bytes have the length that was asked for, whatever the length was before. -/
theorem size_resize (bytes : Array UInt8) (size : Nat) : (resize bytes size).size = size := by
  unfold resize
  split
  · rw [Array.size_extract]; omega
  · rw [Array.size_append, Array.size_replicate]; omega

/-- Fits bytes to a chip, and reports it if they did not fit as they were. -/
def ofBytes (bytes : Array UInt8) (capacity : Nat) : Logged Image := do
  if bytes.size = capacity then
    return { bytes, fit := .exact }
  else
    note (.sizeMismatch bytes.size capacity)
    return { bytes := resize bytes capacity, fit := .mismatch capacity bytes.size }

/-- Reads a file and fits it to a chip; the length that is reported is that of the file. -/
def load (files : Files) (path : String) (capacity : Nat) : Logged (Except ChipError Image) := do
  match files path with
  | .error reason => return .error (.imageLoad path reason)
  | .ok bytes =>
    note (.imageLoaded path bytes.size)
    return .ok (← ofBytes bytes capacity)

end Image

end Breadboard
