/-
  The lexical level of JSON text.

  A text is cut into tokens: the six marks, strings, numbers and the three words.  Numbers are kept as
  they are written.  A string is kept as its text, or as nothing when its escapes leave half of a
  surrogate pair alone: such a string is well formed, but it stands for no text.
-/
namespace Breadboard.Config

/-- What JSON text is made of, once the blanks between have been passed over. -/
inductive Token where
  | openArray
  | closeArray
  | openObject
  | closeObject
  | comma
  | colon
  /-- A string; there is no text if its escapes do not make up one. -/
  | text (value : Option String)
  /-- A number, with the characters it is written with. -/
  | number (digits : List Char)
  /-- Letters without quotes; only three words mean something. -/
  | word (letters : List Char)
deriving DecidableEq, Repr

namespace Token

/-! ## Strings -/

/-- One unit of a string's body: a character that stands for itself or is escaped by a letter, or a
    UTF-16 unit that is escaped by its number. -/
inductive Piece where
  | char (c : Char)
  | unit (n : Nat)
deriving DecidableEq, Repr

/-- The value of a hexadecimal digit, in upper or lower case. -/
def hexValue? (c : Char) : Option Nat :=
  if '0' ≤ c && c ≤ '9' then some (c.toNat - 48)
  else if 'a' ≤ c && c ≤ 'f' then some (c.toNat - 87)
  else if 'A' ≤ c && c ≤ 'F' then some (c.toNat - 55)
  else none

/-- The number that four hexadecimal digits make, most significant first. -/
def unit? (a b c d : Char) : Option Nat := do
  return (((← hexValue? a) * 16 + (← hexValue? b)) * 16 + (← hexValue? c)) * 16 + (← hexValue? d)

/-- What a letter stands for after a backslash; the letter u is not here, because digits follow it. -/
def escape? : Char → Option Char
  | '"' => some '"'
  | '\\' => some '\\'
  | '/' => some '/'
  | 'b' => some '\x08'
  | 'f' => some '\x0c'
  | 'n' => some '\n'
  | 'r' => some '\r'
  | 't' => some '\t'
  | _ => none

/-- The body of a string, up to its closing quote, and what follows the quote. -/
def body? (pieces : List Piece) : List Char → Option (List Piece × List Char)
  | [] => none
  | '"' :: rest => some (pieces.reverse, rest)
  -- before any other escape, since the letter u is not one of those
  | '\\' :: 'u' :: a :: b :: c :: d :: rest => do
    body? (.unit (← unit? a b c d) :: pieces) rest
  | '\\' :: c :: rest => do
    body? (.char (← escape? c) :: pieces) rest
  | c :: rest => if c.toNat < 0x20 then none else body? (.char c :: pieces) rest

/-- The text that pieces stand for: two surrogate units in a row make one character. -/
def join? : List Piece → Option (List Char)
  | [] => some []
  | .char c :: rest => (join? rest).map (c :: ·)
  | .unit n :: rest =>
    -- the second half of a pair without the first
    if 0xDC00 ≤ n && n ≤ 0xDFFF then none
    else if 0xD800 ≤ n && n ≤ 0xDBFF then
      match rest with
      | .unit m :: rest =>
        if 0xDC00 ≤ m && m ≤ 0xDFFF then
          (join? rest).map (Char.ofNat (0x10000 + (n - 0xD800) * 0x400 + (m - 0xDC00)) :: ·)
        else none
      | _ => none
    else (join? rest).map (Char.ofNat n :: ·)

/-- Reading a string uses up text, so reading token after token comes to an end. -/
theorem length_of_body? {pieces found : List Piece} {cs rest : List Char}
    (h : body? pieces cs = some (found, rest)) : rest.length < cs.length := by
  fun_induction body? pieces cs generalizing found rest with
  | case1 => simp at h
  | case2 => simp at h; simp [← h.2]
  | case3 pieces a b c d cs ih =>
    obtain ⟨n, _, h⟩ := Option.bind_eq_some_iff.1 h
    have := ih n h; simp; omega
  | case4 pieces c cs _ ih =>
    obtain ⟨e, _, h⟩ := Option.bind_eq_some_iff.1 h
    have := ih e h; simp; omega
  | case5 => simp at h
  | case6 pieces c cs _ _ _ _ ih => have := ih h; simp; omega

/-! ## Numbers and words -/

/-- Whether a character is a decimal digit, from `0` to `9`. -/
def isDigit (c : Char) : Bool :=
  '0' ≤ c && c ≤ '9'

/-- Whether a character can be part of a number; which of them make one is looked at afterwards. -/
def isNumeric (c : Char) : Bool :=
  isDigit c || c = '-' || c = '+' || c = '.' || c = 'e' || c = 'E'

/-- Whether a character can be part of a word without quotes. -/
def isLetter (c : Char) : Bool :=
  'a' ≤ c && c ≤ 'z'

/-- At least one digit, and what follows the digits; no digit is no number. -/
def digits? (cs : List Char) : Option (List Char) :=
  match cs.takeWhile isDigit with
  | [] => none
  | _ => some (cs.dropWhile isDigit)

/-- Whether an exponent, or nothing, is left: that is how a number may end. -/
def endsNumber : List Char → Bool
  | [] => true
  | e :: rest =>
    if e = 'e' || e = 'E' then
      match rest with
      | '+' :: rest | '-' :: rest => digits? rest = some []
      | rest => digits? rest = some []
    else false

/-- Whether characters make up a number: no zero in front of other digits, digits on both sides of
    the point. -/
def isNumber (cs : List Char) : Bool :=
  let unsigned := if cs.head? = some '-' then cs.tail else cs
  match digits? unsigned with
  | none => false
  | some rest =>
    let leading := unsigned.length - rest.length
    -- a zero in front has to be the only digit there
    (unsigned.head? != some '0' || leading = 1) &&
      match rest with
      | '.' :: rest =>
        match digits? rest with
        | none => false
        | some rest => endsNumber rest
      | rest => endsNumber rest

/-! ## The tokens of a text -/

/-- The token that a single mark is, if the character is one of the six. -/
def mark? : Char → Option Token
  | '[' => some .openArray
  | ']' => some .closeArray
  | '\x7b' => some .openObject
  | '\x7d' => some .closeObject
  | ',' => some .comma
  | ':' => some .colon
  | _ => none

/-- Whether a character may stand between tokens and means nothing there. -/
def isBlank (c : Char) : Bool :=
  c = ' ' || c = '\n' || c = '\t' || c = '\r'

/-- All tokens of a text, if it can be cut into tokens at all. -/
def scan? (cs : List Char) : Option (List Token) :=
  match cs with
  | [] => some []
  | c :: rest =>
    if isBlank c then scan? rest
    else
      match mark? c with
      | some token => (scan? rest).map (token :: ·)
      | none =>
        if c = '"' then
          match _h : body? [] rest with
          | none => none
          | some (pieces, rest) =>
            (scan? rest).map (.text ((join? pieces).map String.ofList) :: ·)
        -- a number is cut off where its characters end, and then has to be right as a whole
        else if isNumeric c then
          let digits := c :: rest.takeWhile isNumeric
          if isNumber digits then (scan? (rest.dropWhile isNumeric)).map (.number digits :: ·)
          else none
        else if isLetter c then
          let letters := c :: rest.takeWhile isLetter
          (scan? (rest.dropWhile isLetter)).map (.word letters :: ·)
        else none
termination_by cs.length
decreasing_by
  · simp
  · simp
  · have := length_of_body? _h; simp; omega
  · have := (rest.dropWhile_suffix isNumeric).length_le; simp; omega
  · have := (rest.dropWhile_suffix isLetter).length_le; simp; omega

end Token

end Breadboard.Config
