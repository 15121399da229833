import Breadboard.Chip.Image
/-
  A tree of files that is kept in memory.

  A place is the list of the names that lead to it from the top.  A path starts at the top when a slash
  comes first, and in the current directory otherwise.  A name on the way must be a directory, which
  every beginning of a file's place is.  Two dots lead back up; from the top there is no way up.

  A slash at the end of a path asks for a directory.  To read, there must be one; to write, the path is
  refused as that of a directory before anybody looks what is there.
-/
namespace Breadboard

/-- What has the name of a file; only some of them keep what is written to them. -/
inductive FileEntry where
  /-- An ordinary file. -/
  | bytes (contents : Array UInt8)
  /-- Shows all that has ever been written to it. -/
  | stream (shown : Array UInt8)
  /-- Takes what is written, and keeps nothing of it. -/
  | sink
  /-- Can be opened for writing, but has no room for anything. -/
  | full
deriving DecidableEq, Repr

namespace FileEntry

/-- What is read from an entry; those that keep nothing are always empty. -/
def contents : FileEntry → Array UInt8
  | .bytes contents | .stream contents => contents
  | .sink | .full => #[]

/-- What is left when a file is opened to be written anew: only an ordinary file loses what it had. -/
def emptied : FileEntry → FileEntry
  | .bytes _ => .bytes #[]
  | entry => entry

/-- What there is after so many bytes, at least one, have been added. -/
def extend (entry : FileEntry) (bytes : Array UInt8) : Except FileError FileEntry :=
  match entry with
  | .bytes contents => .ok (.bytes (contents ++ bytes))
  | .stream shown => .ok (.stream (shown ++ bytes))
  | .sink => .ok .sink
  | .full => .error .noSpace

end FileEntry

/-- Files and directories kept in memory.  A path is followed name by name, as a system does it. -/
structure FileTree where
  /-- The directory in which a path starts that does not start at the top. -/
  current : List String := []
  /-- The files by their places. -/
  files : List (List String × FileEntry) := []
  /-- Directories that are there even if no file is in them. -/
  directories : List (List String) := []

namespace FileTree

/-- Where a path leads, as far as it leads anywhere. -/
inductive Place where
  | file (names : List String)
  | directory (names : List String)
  /-- To a name that is not there, in a directory that is. -/
  | vacant (names : List String)
deriving DecidableEq, Repr

/-- Whether names lead to a directory: one that was made, or one that something is in. -/
def isDirectory (t : FileTree) (names : List String) : Bool :=
  names.isEmpty ||
    (t.current :: t.directories ++ t.files.map (·.1.dropLast)).any (names.isPrefixOf ·)

/-- The longest name that a directory can hold, in bytes of its encoding. -/
def maxNameSize : Nat := 255

/-- The longest path that can be followed at all, in bytes of its encoding. -/
def maxPathSize : Nat := 4095

/-- Goes on from a place by one part of a path.  Nothing can be inside a file, or inside what is not there. -/
def follow (t : FileTree) (place : Place) (part : String) : Except FileError Place :=
  match place with
  | .file _ => .error .notDirectory
  | .vacant _ => .error .notFound
  | .directory names =>
    -- these lead nowhere else, but only inside of a directory
    if part = "" || part = "." then .ok place
    -- above the top there is the top again
    else if part = ".." then .ok (.directory names.dropLast)
    else if maxNameSize < part.utf8ByteSize then .error .nameTooLong
    else
      let inside := names ++ [part]
      if t.isDirectory inside then .ok (.directory inside)
      else if (t.files.lookup inside).isSome then .ok (.file inside)
      else .ok (.vacant inside)

/-- The parts of a path, if a path can be like this; whether it leads anywhere is another question. -/
def partsOf (path : String) : Except FileError (List String) :=
  if path.contains '\x00' then .error .nullCharacter
  else if maxPathSize < path.utf8ByteSize then .error .nameTooLong
  -- an empty path is not the directory one is in
  else if path = "" then .error .notFound
  else .ok (path.splitOn "/")

/-- Where parts lead; an empty one in front says that they start at the top. -/
def walk (t : FileTree) (parts : List String) : Except FileError Place :=
  parts.foldlM t.follow (.directory (if parts.head? = some "" then [] else t.current))

/-- The contents of the file that a path leads to, or why there are none. -/
def read (t : FileTree) (path : String) : Except FileError (Array UInt8) := do
  match ← t.walk (← partsOf path) with
  | .file names => return (t.files.lookup names).elim #[] (·.contents)
  | .directory _ => throw .isDirectory
  | .vacant _ => throw .notFound

/-- The parts of a path that is to be written.  When a slash is at the end, what the name before it
    leads to does not matter: a dot takes its place. -/
def dotted (parts : List String) : List String :=
  match parts.reverse with
  | "" :: before => ((before.dropWhile (· = "")).drop 1).reverse ++ ["."]
  | _ => parts

/-- Where a file could be written: a file that is there, or a free name in a directory that is there. -/
def target (t : FileTree) (path : String) : Except FileError (List String) := do
  match ← t.walk (dotted (← partsOf path)) with
  | .file names | .vacant names => return names
  | .directory _ => throw .isDirectory

/-- The tree with a file at a place, instead of any that was there. -/
def put (t : FileTree) (names : List String) (entry : FileEntry) : FileTree :=
  { t with files := (names, entry) :: t.files.filter (·.1 ≠ names) }

/-- What is at a place, once a file has been opened there that is made if it is not there. -/
def opened (t : FileTree) (names : List String) : FileEntry :=
  (t.files.lookup names).getD (.bytes #[])

/-- The tree with a file opened for adding to it, which makes the file if it is not there. -/
def touch (t : FileTree) (path : String) : Except FileError FileTree := do
  let names ← t.target path
  return t.put names (t.opened names)

/-- The tree with bytes added to a file, at the end of what it has. -/
def append (t : FileTree) (path : String) (bytes : Array UInt8) : Except FileError FileTree := do
  let names ← t.target path
  return t.put names (← (t.opened names).extend bytes)

/-- The tree with a file written anew, so that nothing of it stays. -/
def write (t : FileTree) (path : String) (bytes : Array UInt8) : Except FileError FileTree := do
  let names ← t.target path
  -- a stream is not emptied by being opened, what is written to it comes at the end
  return t.put names (← (t.opened names).emptied.extend bytes)

/-- Goes into a directory, which is made if it is not there; a file stands in the way. -/
def enter : FileTree × List String → String → Except FileError (FileTree × List String)
  | (t, names), part => do
    match ← t.follow (.directory names) part with
    | .file _ => throw .notDirectory
    | .directory inside => return (t, inside)
    | .vacant inside => return ({ t with directories := inside :: t.directories }, inside)

/-- The tree with a file, in directories that are made if they are not there.  The path starts at the
    top. -/
def install (t : FileTree) (path : String) (bytes : Array UInt8) : Except FileError FileTree := do
  let (t, _) ← (path.splitOn "/").dropLast.foldlM enter (t, [])
  t.write path bytes

/-- The directories that every system has, whether or not anything is in them. -/
def systemDirectories : List String := [
  "bin", "boot", "dev/fd", "dev/mqueue", "dev/pts", "dev/shm", "etc/default", "etc/init.d", "etc/opt",
  "home", "lib", "lib64", "media", "mnt", "opt", "proc/self/fd", "proc/sys", "root", "run/lock", "sbin",
  "srv", "sys/block", "sys/bus", "sys/class", "sys/dev", "sys/devices", "sys/fs", "sys/kernel",
  "tmp", "usr/bin", "usr/games", "usr/include", "usr/lib", "usr/local/bin", "usr/local/etc",
  "usr/local/include", "usr/local/lib", "usr/local/sbin", "usr/local/share", "usr/local/src",
  "usr/sbin", "usr/share", "usr/src", "var/backups", "var/cache", "var/lib", "var/local", "var/lock",
  "var/log", "var/mail", "var/opt", "var/run", "var/spool", "var/tmp"]

/-- The files that every system has for its devices, and for what a program reads and prints. -/
def systemFiles : List (String × FileEntry) := [
  ("null", .sink), ("zero", .sink), ("random", .sink), ("urandom", .sink), ("full", .full),
  ("stdin", .sink), ("stdout", .stream #[]), ("stderr", .stream #[])]

/-- A system in which nobody has worked yet: no files but those of the system. -/
def bare : FileTree := {
  current := ["home", "breadboard"]
  files := systemFiles.map fun (name, entry) => (["dev", name], entry)
  directories := systemDirectories.map (·.splitOn "/") }

end FileTree

end Breadboard
