import CodeAtlas.Text.Hexadecimal

/-!
# JSON values and their text

The values that the library writes, with the members of an object in the order in which they are
given. Two layouts are produced: a compact one without any space, which fingerprints are taken of,
and an indented one for people. Reading is not done on this type: a text that is being read may
stop in the middle of a value, which `Json.Reading` records.

## Main definitions

* `Json`: booleans, natural numbers, texts, arrays and objects.
* `Json.compact`, `Json.indented`: the two layouts.
-/
namespace CodeAtlas

/-- A JSON value to be written. -/
inductive Json where
  | bool (b : Bool)
  | nat (n : Nat)
  | text (s : String)
  | array (items : List Json)
  | object (members : List (String × Json))

namespace Json

/-- The opening brace of an object. -/
def openBrace : Char := '\x7b'

/-- The closing brace of an object. -/
def closeBrace : Char := '\x7d'

/-- A character inside a string: the quote, the backslash and the controls are escaped, the latter
by a letter where there is one and by two hexadecimal digits otherwise. -/
def escaped (c : Char) : List Char :=
  if c = '"' then ['\\', '"']
  else if c = '\\' then ['\\', '\\']
  else if c = '\x08' then ['\\', 'b']
  else if c = '\x0c' then ['\\', 'f']
  else if c = '\n' then ['\\', 'n']
  else if c = '\r' then ['\\', 'r']
  else if c = '\t' then ['\\', 't']
  else if c.toNat < 0x20 then
    ['\\', 'u', '0', '0', Text.hexDigit (c.toNat / 16), Text.hexDigit (c.toNat % 16)]
  else [c]

/-- A string with its two quotes. -/
def stringChars (s : String) : List Char := '"' :: (s.toList.flatMap escaped ++ ['"'])

/-- The two spellings of a boolean. -/
def boolChars : Bool → List Char
  | true => ['t', 'r', 'u', 'e']
  | false => ['f', 'a', 'l', 's', 'e']

mutual

/-- The characters of a value without any space between its parts. -/
def chars : Json → List Char
  | .bool b => boolChars b
  | .nat n => Nat.toDigits 10 n
  | .text s => stringChars s
  | .array [] => ['[', ']']
  | .array (x :: xs) => '[' :: (chars x ++ itemsTail xs)
  | .object [] => [openBrace, closeBrace]
  | .object ((k, v) :: ms) => openBrace :: (stringChars k ++ ':' :: (chars v ++ membersTail ms))

/-- What follows the first item of an array. -/
def itemsTail : List Json → List Char
  | [] => [']']
  | x :: xs => ',' :: (chars x ++ itemsTail xs)

/-- What follows the first member of an object. -/
def membersTail : List (String × Json) → List Char
  | [] => [closeBrace]
  | (k, v) :: ms => ',' :: (stringChars k ++ ':' :: (chars v ++ membersTail ms))

end

/-- A line end and the indentation of a depth, two spaces a level. -/
def newline (depth : Nat) : List Char := '\n' :: List.replicate (2 * depth) ' '

mutual

/-- The characters of a value that stands at a depth, one item or member to a line. -/
def indentedChars (depth : Nat) : Json → List Char
  | .bool b => boolChars b
  | .nat n => Nat.toDigits 10 n
  | .text s => stringChars s
  | .array [] => ['[', ']']
  | .array (x :: xs) =>
    '[' :: (newline (depth + 1) ++ indentedChars (depth + 1) x ++ indentedItems depth xs)
  | .object [] => [openBrace, closeBrace]
  | .object ((k, v) :: ms) =>
    openBrace :: (newline (depth + 1) ++ stringChars k ++ ':' :: ' ' ::
      (indentedChars (depth + 1) v ++ indentedMembers depth ms))

/-- What follows the first item of an indented array. -/
def indentedItems (depth : Nat) : List Json → List Char
  | [] => newline depth ++ [']']
  | x :: xs =>
    ',' :: (newline (depth + 1) ++ indentedChars (depth + 1) x ++ indentedItems depth xs)

/-- What follows the first member of an indented object. -/
def indentedMembers (depth : Nat) : List (String × Json) → List Char
  | [] => newline depth ++ [closeBrace]
  | (k, v) :: ms =>
    ',' :: (newline (depth + 1) ++ stringChars k ++ ':' :: ' ' ::
      (indentedChars (depth + 1) v ++ indentedMembers depth ms))

end

/-- The compact text of a value. -/
def compact (j : Json) : String := String.ofList j.chars

/-- The indented text of a value. -/
def indented (j : Json) : String := String.ofList (j.indentedChars 0)

@[simp] theorem toList_compact (j : Json) : j.compact.toList = j.chars := by simp [compact]

end Json
end CodeAtlas
