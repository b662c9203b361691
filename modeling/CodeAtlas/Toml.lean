import CodeAtlas.Text.Hexadecimal

/-!
# Flat TOML documents

The part of TOML in which settings are written: assignments of booleans, strings and arrays of
strings to undotted keys, in any of the spellings that TOML has for them. Tables, dotted keys and
all other kinds of values are refused together with what is no TOML at all.

## Main definitions

* `Toml.Value`: the values that can be assigned.
* `Toml.read`: the assignments of a document in their order.
-/
namespace CodeAtlas.Toml

/-- A value that can be assigned. -/
inductive Value where
  | flag (b : Bool)
  | text (s : String)
  | texts (ss : List String)
deriving DecidableEq

/-! ## Line ends -/

/-- A control character that may stand nowhere in a document. -/
def isForbidden (c : Char) : Bool := (c.toNat < 0x20 && c != '\t' && c != '\n') || c.toNat = 0x7F

/-- The characters of a document with every line end as one character. A carriage return that is
not part of a line end is refused like other controls. -/
def plain : List Char → Option (List Char)
  | [] => some []
  | '\r' :: '\n' :: rest => (plain rest).map ('\n' :: ·)
  | c :: rest => if isForbidden c then none else (plain rest).map (c :: ·)

/-- Space within a line. -/
def isSpace (c : Char) : Bool := c = ' ' || c = '\t'

/-- Space within a line or between lines. -/
def isGap (c : Char) : Bool := isSpace c || c = '\n'

/-- What follows space, line ends and comments; `inComment` tells whether a comment has begun. -/
def skipGaps (inComment : Bool) : List Char → List Char
  | [] => []
  | c :: rest =>
    if inComment then skipGaps (c != '\n') rest
    else if c = '#' then skipGaps true rest
    else if isGap c then skipGaps false rest
    else c :: rest

/-- Whether a line ends here, apart from space and a comment. -/
def endsLine (s : List Char) : Bool :=
  match s.dropWhile isSpace with
  | [] | '\n' :: _ | '#' :: _ => true
  | _ => false

/-! ## Strings -/

/-- The two quotation marks: escapes are understood between double ones only. -/
def isQuote (c : Char) : Bool := c = '"' || c = '\x27'

/-- The raw text up to the closing quote of a string on one line, and what follows the quote. -/
def cutLine (quote : Char) : List Char → Option (List Char × List Char)
  | [] => none
  | c :: rest =>
    if c = '\n' then none
    else if c = quote then some ([], rest)
    else if c = '\\' && quote = '"' then
      match rest with
      | [] => none
      | d :: rest =>
        if d = '\n' then none else (cutLine quote rest).map fun (t, r) => (c :: d :: t, r)
    else (cutLine quote rest).map fun (t, r) => (c :: t, r)

/-- The raw text up to the three closing quotes of a string over several lines, and what follows
them. Up to two quotes just before the closing ones belong to the text. -/
def cutLines (quote : Char) : List Char → Option (List Char × List Char)
  | [] => none
  | c :: rest =>
    if c = quote && rest.take 2 = [quote, quote] then
      let more := ((rest.drop 2).takeWhile (· = quote)).take 2
      some (more, rest.drop (2 + more.length))
    else if c = '\\' && quote = '"' then
      match rest with
      | [] => none
      | d :: rest => (cutLines quote rest).map fun (t, r) => (c :: d :: t, r)
    else (cutLines quote rest).map fun (t, r) => (c :: t, r)

/-- The character that a letter after a backslash stands for. -/
def escapeLetter? (c : Char) : Option Char :=
  match c with
  | 'b' => some '\x08'
  | 't' => some '\t'
  | 'n' => some '\n'
  | 'f' => some '\x0c'
  | 'r' => some '\r'
  | '"' => some '"'
  | '\\' => some '\\'
  | _ => none

/-- The character that hexadecimal digits stand for; surrogates and numbers beyond the last
character stand for none. -/
def escapeDigits? (digits : List Char) : Option Char := do
  let n ← Text.hexNumber? digits
  if h : n.isValidChar then some (Char.ofNatAux n h) else none

/-- The text that a raw text with escapes stands for. A backslash at a line end takes with it all
space up to the next visible character; `joining` tells whether that is under way. -/
def unescape (joining : Bool) : List Char → Option (List Char)
  | [] => some []
  | '\\' :: 'u' :: a :: b :: c :: d :: rest => do
    let x ← escapeDigits? [a, b, c, d]
    (unescape false rest).map (x :: ·)
  | '\\' :: 'U' :: a :: b :: c :: d :: e :: f :: g :: h :: rest => do
    let x ← escapeDigits? [a, b, c, d, e, f, g, h]
    (unescape false rest).map (x :: ·)
  | '\\' :: c :: rest =>
    match escapeLetter? c with
    | some x => (unescape false rest).map (x :: ·)
    | none => if ((c :: rest).dropWhile isSpace).head? = some '\n' then unescape true rest else none
  | c :: rest =>
    if joining && isGap c then unescape true rest
    else if c = '\\' then none
    else (unescape false rest).map (c :: ·)

/-- The text of a string between quotes of the given kind. -/
def decode (quote : Char) (raw : List Char) : Option String :=
  (if quote = '"' then unescape false raw else some raw).map String.ofList

/-- A text without a line end at its front. -/
def dropLineEnd : List Char → List Char
  | '\n' :: rest => rest
  | s => s

/-- A string at the front of a text, and what follows it. -/
def scanString : List Char → Option (String × List Char)
  | [] => none
  | quote :: rest =>
    if isQuote quote then do
      let (raw, rest) ←
        if rest.take 2 = [quote, quote] then cutLines quote (dropLineEnd (rest.drop 2))
        else cutLine quote rest
      return (← decode quote raw, rest)
    else none

/-! ## Assignments -/

/-- A character of a key without quotes. -/
def isKeyChar (c : Char) : Bool := c.isAlphanum || c = '_' || c = '-'

/-- A key at the front of a text, and what follows it. -/
def scanKey : List Char → Option (String × List Char)
  | [] => none
  | c :: rest =>
    if isQuote c then do
      let (raw, rest) ← cutLine c rest
      return (← decode c raw, rest)
    else if isKeyChar c then
      some (String.ofList (c :: rest.takeWhile isKeyChar), rest.dropWhile isKeyChar)
    else none

/-- The items of an array after its opening bracket or after a comma, and what follows the closing
bracket. The first argument bounds their number. -/
def scanItems : Nat → List Char → Option (List String × List Char)
  | 0, _ => none
  | fuel + 1, s =>
    match skipGaps false s with
    | ']' :: rest => some ([], rest)
    | s => do
      let (item, rest) ← scanString s
      match skipGaps false rest with
      | ']' :: rest => return ([item], rest)
      | ',' :: rest =>
        let (items, rest) ← scanItems fuel rest
        return (item :: items, rest)
      | _ => none

/-- A value at the front of a text, and what follows it. -/
def scanValue : List Char → Option (Value × List Char)
  | 't' :: 'r' :: 'u' :: 'e' :: rest => some (.flag true, rest)
  | 'f' :: 'a' :: 'l' :: 's' :: 'e' :: rest => some (.flag false, rest)
  | '[' :: rest => (scanItems (rest.length + 1) rest).map fun (items, rest) => (.texts items, rest)
  | s => (scanString s).map fun (t, rest) => (.text t, rest)

/-- An assignment at the front of a text, and what follows it. -/
def scanAssignment (s : List Char) : Option ((String × Value) × List Char) := do
  let (key, s) ← scanKey s
  match s.dropWhile isSpace with
  | '=' :: s =>
    let (value, s) ← scanValue (s.dropWhile isSpace)
    if endsLine s then some ((key, value), s) else none
  | _ => none

/-- All assignments of a text; the first argument bounds their number. -/
def scanAssignments : Nat → List Char → Option (List (String × Value))
  | 0, _ => none
  | fuel + 1, s =>
    match skipGaps false s with
    | [] => some []
    | s => do
      let (assignment, rest) ← scanAssignment s
      (scanAssignments fuel rest).map (assignment :: ·)

/-- The assignments of a document in their order. No key may be assigned twice. A mark of the byte
order may stand in front. -/
def read (text : String) : Option (List (String × Value)) := do
  let s := match text.toList with
    | '\uFEFF' :: rest => rest
    | s => s
  let s ← plain s
  let assignments ← scanAssignments (s.length + 1) s
  if (assignments.map (·.1)).Nodup then some assignments else none

end CodeAtlas.Toml
