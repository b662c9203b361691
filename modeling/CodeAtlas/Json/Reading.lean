import CodeAtlas.Json.Numeral
import CodeAtlas.Json.Value

/-!
# Reading JSON text

A text is read from the left up to its end or up to its first syntax error. What stands before the
error is kept, with a mark where the reading was cut, so that someone who looks for data can find
a problem with the data first if it comes first in the text. Strings keep whether their escapes
pair up, and numbers keep their spelling, because neither matters for a value that nobody looks at.

## Main definitions

* `Reading`: a value as far as it has been read.
* `scanValue`: read one value from the front of a text.
* `Document.read`: read a whole text.
-/
namespace CodeAtlas.Json

/-- A value as far as it has been read. A string has no text if an escape in it is half of a
surrogate pair. Items and members stand in the order of the text; an array or object that is not
closed ends in a syntax error after its last entry. -/
inductive Reading where
  | null
  | bool (b : Bool)
  | number (n : Numeral)
  | string (text : Option String)
  | array (items : List Reading) (closed : Bool)
  | object (members : List (Option String × Reading)) (closed : Bool)
  /-- The reading stops here with a syntax error. -/
  | cut

/-! ## Strings -/

/-- A part of a string: a character, or half of a surrogate pair given by an escape. -/
inductive Piece where
  | char (c : Char)
  | surrogate (unit : Nat)

/-- What an escape of four hexadecimal digits stands for. -/
def Piece.ofUnit (unit : Nat) : Piece :=
  if 0xD800 ≤ unit && unit < 0xE000 then .surrogate unit else .char (Char.ofNat unit)

/-- The character that a letter after a backslash stands for. -/
def escapeLetter? (c : Char) : Option Char :=
  match c with
  | '"' => some '"'
  | '\\' => some '\\'
  | '/' => some '/'
  | 'b' => some '\x08'
  | 'f' => some '\x0c'
  | 'n' => some '\n'
  | 'r' => some '\r'
  | 't' => some '\t'
  | _ => none

/-- The pieces of a string after its opening quote, and what follows its closing quote. -/
def scanPieces : List Char → Option (List Piece × List Char)
  | [] => none
  | '"' :: rest => some ([], rest)
  | '\\' :: 'u' :: a :: b :: c :: d :: rest => do
    let unit ← Text.hexNumber? [a, b, c, d]
    let (pieces, rest) ← scanPieces rest
    return (.ofUnit unit :: pieces, rest)
  | '\\' :: e :: rest => do
    let c ← escapeLetter? e
    let (pieces, rest) ← scanPieces rest
    return (.char c :: pieces, rest)
  | c :: rest =>
    if c = '\\' || c.toNat < 0x20 then none
    else do
      let (pieces, rest) ← scanPieces rest
      return (.char c :: pieces, rest)

/-- The characters of a string, if its surrogates come in pairs of a high and a low one. -/
def joinPieces : List Piece → Option (List Char)
  | [] => some []
  | .char c :: rest => (joinPieces rest).map (c :: ·)
  | .surrogate high :: .surrogate low :: rest =>
    if high < 0xDC00 && 0xDC00 ≤ low then
      (joinPieces rest).map
        (Char.ofNat (0x10000 + 0x400 * (high - 0xD800) + (low - 0xDC00)) :: ·)
    else none
  | .surrogate _ :: _ => none

/-- A string after its opening quote: its text, if it has one, and what follows it. -/
def scanString (s : List Char) : Option (Option String × List Char) :=
  (scanPieces s).map fun (pieces, rest) => ((joinPieces pieces).map String.ofList, rest)

/-! ## Numbers -/

/-- The values of the digits at the front of a text, and what follows them. -/
def scanDigits (s : List Char) : List Nat × List Char :=
  ((s.takeWhile Char.isDigit).map fun c => c.toNat - 48, s.dropWhile Char.isDigit)

/-- The digits before the point: a lone zero, or digits that do not start with zero. -/
def scanWhole (s : List Char) : Option (List Nat × List Char) :=
  match scanDigits s with
  | ([], _) => none
  | (0 :: _ :: _, _) => none
  | found => some found

/-- The point and the digits after it, of which there is at least one. -/
def scanFraction : List Char → Option (Option (List Nat) × List Char)
  | '.' :: rest =>
    match scanDigits rest with
    | ([], _) => none
    | (digits, rest) => some (some digits, rest)
  | s => some (none, s)

/-- The sign at the front of an exponent: whether it is a minus. -/
def scanSign : List Char → Bool × List Char
  | '-' :: rest => (true, rest)
  | '+' :: rest => (false, rest)
  | s => (false, s)

/-- The exponent, whose digits are at least one. -/
def scanExponent : List Char → Option (Option (Bool × List Nat) × List Char)
  | c :: rest =>
    if c = 'e' || c = 'E' then
      let (minus, rest) := scanSign rest
      match scanDigits rest with
      | ([], _) => none
      | (digits, rest) => some (some (minus, digits), rest)
    else some (none, c :: rest)
  | [] => some (none, [])

/-- A number at the front of a text. -/
def scanNumeral (s : List Char) : Option (Numeral × List Char) := do
  let (negative, s) := match s with
    | '-' :: rest => (true, rest)
    | s => (false, s)
  let (whole, s) ← scanWhole s
  let (fraction, s) ← scanFraction s
  let (exponent, s) ← scanExponent s
  return (⟨negative, whole, fraction, exponent⟩, s)

/-! ## Values -/

/-- Space between the tokens of a text. -/
def isSpace (c : Char) : Bool := c = ' ' || c = '\n' || c = '\t' || c = '\r'

/-- A text without the space at its front. -/
def skipSpace (s : List Char) : List Char := s.dropWhile isSpace

/-- A value that holds no others: a word, a number or a string. -/
def scanScalar (s : List Char) : Reading × Option (List Char) :=
  match s with
  | 'n' :: 'u' :: 'l' :: 'l' :: rest => (.null, some rest)
  | 't' :: 'r' :: 'u' :: 'e' :: rest => (.bool true, some rest)
  | 'f' :: 'a' :: 'l' :: 's' :: 'e' :: rest => (.bool false, some rest)
  | '"' :: rest =>
    match scanString rest with
    | some (t, rest) => (.string t, some rest)
    | none => (.cut, none)
  | s =>
    match scanNumeral s with
    | some (n, rest) => (.number n, some rest)
    | none => (.cut, none)

mutual

/-- A value at the front of a text and what follows it; nothing follows if the reading was cut. The
first argument bounds the number of values, items and members. -/
def scanValue : Nat → List Char → Reading × Option (List Char)
  | 0, _ => (.cut, none)
  | fuel + 1, s =>
    match skipSpace s with
    | '[' :: rest =>
      match skipSpace rest with
      | ']' :: rest => (.array [] true, some rest)
      | rest =>
        match scanValue fuel rest with
        | (first, none) => (.array [first] false, none)
        | (first, some rest) =>
          let (items, rest) := scanItems fuel rest
          (.array (first :: items) rest.isSome, rest)
    | c :: rest =>
      if c = openBrace then
        match skipSpace rest with
        | '"' :: rest =>
          let (members, rest) := scanMember fuel rest
          (.object members rest.isSome, rest)
        | d :: rest =>
          if d = closeBrace then (.object [] true, some rest) else (.object [] false, none)
        | [] => (.object [] false, none)
      else scanScalar (c :: rest)
    | [] => (.cut, none)

/-- The items after the first one, up to the bracket that closes their array. -/
def scanItems : Nat → List Char → List Reading × Option (List Char)
  | 0, _ => ([], none)
  | fuel + 1, s =>
    match skipSpace s with
    | ']' :: rest => ([], some rest)
    | ',' :: rest =>
      match skipSpace rest with
      | ']' :: _ => ([], none)
      | rest =>
        match scanValue fuel rest with
        | (item, none) => ([item], none)
        | (item, some rest) =>
          let (items, rest) := scanItems fuel rest
          (item :: items, rest)
    | _ => ([], none)

/-- A member after the opening quote of its key, and the members after it. -/
def scanMember : Nat → List Char → List (Option String × Reading) × Option (List Char)
  | 0, _ => ([], none)
  | fuel + 1, s =>
    match scanString s with
    | none => ([], none)
    | some (key, rest) =>
      match skipSpace rest with
      | ':' :: rest =>
        match scanValue fuel rest with
        | (value, none) => ([(key, value)], none)
        | (value, some rest) =>
          let (members, rest) := scanMembers fuel rest
          ((key, value) :: members, rest)
      | _ => ([(key, .cut)], none)

/-- The members after the first one, up to the brace that closes their object. -/
def scanMembers : Nat → List Char → List (Option String × Reading) × Option (List Char)
  | 0, _ => ([], none)
  | fuel + 1, s =>
    match skipSpace s with
    | ',' :: rest =>
      match skipSpace rest with
      | '"' :: rest => scanMember fuel rest
      | _ => ([], none)
    | c :: rest => if c = closeBrace then ([], some rest) else ([], none)
    | [] => ([], none)

end

/-- A whole text: its value, and whether nothing but space follows it. -/
structure Document where
  value : Reading
  ended : Bool

/-- Read a whole text. Each value, item and member takes a character, so the bound is not met. -/
def Document.read (text : String) : Document :=
  let s := text.toList
  let (value, rest) := scanValue (2 * s.length + 2) s
  ⟨value, rest.any fun r => (skipSpace r).isEmpty⟩

end CodeAtlas.Json
