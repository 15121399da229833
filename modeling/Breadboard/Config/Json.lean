import Breadboard.Config.Token
import Breadboard.Text.Shown
/-
  JSON values: reading them from text, and writing them as text for people.

  Reading is strict: one value, nothing after it, no comments, no commas too many.  The reader takes
  one token at a time; the arrays and objects that are still open lie on a stack, so any depth will
  do.  An object keeps all its members, in their order, even those of the same name: what to make of
  them is up to whoever reads a record from it.

  A written value has one element or member on each line, indented by two spaces.  For objects whose members
  have no order of their own there is the order of names.
-/
namespace Breadboard.Config

/-- A JSON value.  Numbers are kept as they are written, since what they may be depends on the field they
    are for. -/
inductive Json where
  | null
  | bool (value : Bool)
  /-- A number as it is written. -/
  | number (digits : List Char)
  | text (value : Option String)
  | array (elements : List Json)
  | object (members : List (Option String × Json))

namespace Json

/-- Something that has been opened and not yet been closed, the latest entry first. -/
inductive Frame where
  | array (elements : List Json)
  | object (members : List (Option String × Json))
  /-- An object whose next member has this name. -/
  | member (members : List (Option String × Json)) (name : Option String)

/-- What the next token may be; in each state the reader has one way to go on, or two at the beginning and
    the end of things. -/
inductive Wanted where
  | value
  /-- A value, or the end of the array just opened. -/
  | firstElement
  | name
  /-- A name, or the end of the object just opened. -/
  | firstName
  | colon
  /-- A comma, or the end of what is open. -/
  | more
  /-- Nothing. -/
  | nothing (result : Json)

/-- A reader in the middle of a text: what it wants next, and what is still open. -/
structure Reader where
  wanted : Wanted := .value
  frames : List Frame := []

namespace Reader

/-- A value is complete, and goes into what is open around it; if nothing is, the text may not go on. -/
def complete (v : Json) : List Frame → Option Reader
  | [] => some ⟨.nothing v, []⟩
  | .array elements :: frames => some ⟨.more, .array (v :: elements) :: frames⟩
  | .member members name :: frames => some ⟨.more, .object ((name, v) :: members) :: frames⟩
  | .object _ :: _ => none

/-- The first token of a value, which is all of it unless it opens something. -/
def value (frames : List Frame) : Token → Option Reader
  | .openArray => some ⟨.firstElement, .array [] :: frames⟩
  | .openObject => some ⟨.firstName, .object [] :: frames⟩
  | .text s => complete (.text s) frames
  | .number digits => complete (.number digits) frames
  -- the only place where a word means something
  | .word letters =>
    if letters = ['n', 'u', 'l', 'l'] then complete .null frames
    else if letters = ['t', 'r', 'u', 'e'] then complete (.bool true) frames
    else if letters = ['f', 'a', 'l', 's', 'e'] then complete (.bool false) frames
    else none
  | _ => none

/-- The end of what is open, which has to be of the same kind. -/
def close : Token → List Frame → Option Reader
  -- they have been put on top of each other, so the last one comes first
  | .closeArray, .array elements :: frames => complete (.array elements.reverse) frames
  | .closeObject, .object members :: frames => complete (.object members.reverse) frames
  | _, _ => none

/-- The name of a member; it waits for its value in a frame of its own. -/
def name : Token → List Frame → Option Reader
  | .text name, .object members :: frames => some ⟨.colon, .member members name :: frames⟩
  | _, _ => none

/-- One token further, if the text may go on with this token. -/
def next (r : Reader) (t : Token) : Option Reader :=
  match r.wanted with
  | .value => value r.frames t
  | .firstElement => if t = .closeArray then close t r.frames else value r.frames t
  | .name => name t r.frames
  | .firstName => if t = .closeObject then close t r.frames else name t r.frames
  | .colon => if t = .colon then some ⟨.value, r.frames⟩ else none
  | .more =>
    if t = .comma then
      -- what may follow a comma depends on what is open
      match r.frames with
      | .array _ :: _ => some ⟨.value, r.frames⟩
      | .object _ :: _ => some ⟨.name, r.frames⟩
      | _ => none
    else close t r.frames
  | .nothing _ => none

end Reader

/-- The value that a text is, if it is one: nothing may be left open, and nothing may follow. -/
def ofText? (s : String) : Option Json := do
  let tokens ← Token.scan? s.toList
  let reader ← tokens.foldlM Reader.next {}
  match reader.wanted with
  | .nothing result => some result
  | _ => none

/-! ## Reading records -/

/-- A natural number below `bound`, written with digits only: no sign, no point, no exponent. -/
def natural? (bound : Nat) : Json → Option Nat
  | .number digits =>
    if digits.all Token.isDigit then
      let n := digits.foldl (fun n d => 10 * n + (d.toNat - 48)) 0
      if n < bound then some n else none
    else none
  | _ => none

/-- The truth value that a field gives, if it is one. -/
def bool? : Json → Option Bool
  | .bool b => some b
  | _ => none

/-- The text that a field gives, if it is a string that makes up one. -/
def text? : Json → Option String
  | .text s => s
  | _ => none

/-- The elements of an array, in their order; nothing else has elements. -/
def elements? : Json → Option (List Json)
  | .array elements => some elements
  | _ => none

/-- The only value under a name, or nothing at all; two of them are an error. -/
def member? (members : List (Option String × Json)) (name : String) : Option (Option Json) :=
  match members.filter (·.1 = some name) with
  | [] => some none
  | [(_, v)] => some (some v)
  | _ => none

/-- The fields of a record.  An object gives them by name, in any order and among others; an array
    gives the first of them in order.  A field that is not given is `none`. -/
def fields? (names : List String) : Json → Option (List (Option Json))
  | .object members =>
    -- a name that stands for no text spoils the whole object, even if nobody asks for it
    if members.any (·.1.isNone) then none else names.mapM (member? members)
  | .array elements =>
    if elements.length ≤ names.length then
      some (elements.map some ++ List.replicate (names.length - elements.length) none)
    else none
  | _ => none

/-- A field that may be left out, and then has a default; what is given has to be right. -/
def optional {α : Type} (default : α) (read : Json → Option α) : Option Json → Option α
  | none => some default
  | some v => read v

/-- A field that must be given, and has to be right. -/
def required {α : Type} (read : Json → Option α) : Option Json → Option α
  | none => none
  | some v => read v

end Json

/-! ## Writing -/

namespace Json

/-- A natural number as a value, written in decimal. -/
def ofNat (n : Nat) : Json :=
  .number (toString n).toList

/-- A whole number, written in decimal and with its sign. -/
def ofInt (n : Int) : Json :=
  .number (toString n).toList

/-- An object with these members, in this order, each name being a text. -/
def ofMembers (members : List (String × Json)) : Json :=
  .object (members.map fun (name, v) => (some name, v))

mutual

/-- The same value, its members and those of all objects inside it in the order of their names. -/
def sorted : Json → Json
  | .array elements => .array (sortedElements elements)
  | .object members =>
    .object ((sortedMembers members).mergeSort fun a b => a.1.getD "" ≤ b.1.getD "")
  | v => v

/-- Sorts what is inside the elements of an array; the elements stay in their order. -/
def sortedElements : List Json → List Json
  | [] => []
  | v :: vs => sorted v :: sortedElements vs

/-- Sorts what is inside the members of an object; the members themselves are sorted afterwards. -/
def sortedMembers : List (Option String × Json) → List (Option String × Json)
  | [] => []
  | (name, v) :: vs => (name, sorted v) :: sortedMembers vs

end

/-- A character inside a JSON string, with a backslash or by its number if it may not stand there itself. -/
def escaped : Char → String
  | '"' => "\\\""
  | '\\' => "\\\\"
  | '\n' => "\\n"
  | '\r' => "\\r"
  | '\t' => "\\t"
  | '\x08' => "\\b"
  | '\x0c' => "\\f"
  | c =>
    if c.toNat < 0x20 then
      "\\u" ++ String.ofList ((Text.Hex.padded 4 c.toNat).toList.map Char.toLower)
    else c.toString

/-- A text as a JSON string, between quotes and character by character. -/
def quote (s : String) : String :=
  "\"" ++ String.join (s.toList.map escaped) ++ "\""

/-- The text of a string, if it has one; otherwise nothing stands between the quotes. -/
def quote? (s : Option String) : String :=
  quote (s.getD "")

/-- Items on lines of their own, between two marks; without items the marks stand together. -/
def block (mark closing indent : String) : List String → String
  -- an empty one stays on its line
  | [] => mark ++ closing
  | items =>
    let inner := "\n" ++ indent ++ "  "
    mark ++ inner ++ String.intercalate ("," ++ inner) items ++ "\n" ++ indent ++ closing

mutual

/-- A value as text, where lines after the first are indented by what is around the value. -/
def pretty (indent : String) : Json → String
  | .null => "null"
  | .bool true => "true"
  | .bool false => "false"
  | .number digits => String.ofList digits
  | .text s => quote? s
  | .array elements => block "[" "]" indent (prettyElements (indent ++ "  ") elements)
  | .object members => block "\x7b" "\x7d" indent (prettyMembers (indent ++ "  ") members)

/-- The elements of an array as text, one by one. -/
def prettyElements (indent : String) : List Json → List String
  | [] => []
  | v :: vs => pretty indent v :: prettyElements indent vs

/-- The members of an object as text, each with its name in front. -/
def prettyMembers (indent : String) : List (Option String × Json) → List String
  | [] => []
  | (name, v) :: vs => (quote? name ++ ": " ++ pretty indent v) :: prettyMembers indent vs

end

end Json

end Breadboard.Config
