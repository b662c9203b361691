import CodeAtlas.Decimal.Shortest
import CodeAtlas.Text.Quoted

/-!
# What can be wrong with a JSON text

A text that is not JSON has one problem, whatever the place and kind of its first syntax error.
A text that is JSON may still not be the data that was asked for, and then the problem says what
was found and what was expected.

## Main definitions

* `Problem`: the causes.
* `Problem.message`: their wording.
-/
namespace CodeAtlas.Json

/-- What stands where something else was expected. -/
inductive Found where
  | null
  | bool (b : Bool)
  | integer (n : Int)
  /-- A floating point number, by its text. -/
  | float (digits : String)
  | text (s : String)
  | object
  | array
deriving DecidableEq

/-- Why a text does not give the data that was asked for. -/
inductive Problem where
  /-- The text is not JSON. -/
  | malformed
  | missingField (name : String)
  | duplicateField (name : String)
  | unknownVariant (given : String) (known : List String)
  | wrongType (found : Found) (expected : String)
  | outOfRange (n : Int) (expected : String)
  | wrongLength (length : Nat) (expected : String)
deriving DecidableEq

/-- The text of a floating point number: positional from 0.00001 up to sixteen digits before the
point, and with a signed exponent otherwise. A whole number keeps a zero after its point. -/
def floatText (x : Float) : String :=
  let sign := if x.toBits.toNat < 1 <<< 63 then "" else "-"
  match Decimal.Binary.ofFloat? x with
  | none => if x.isNaN then "NaN" else sign ++ "inf"
  | some b =>
    if b.mantissa = 0 then sign ++ "0.0" else
    let (d, e) := b.shortest
    let digits := Nat.toDigits 10 d
    let point : Int := digits.length + e
    let body : List Char :=
      if 0 ≤ e && point ≤ 16 then digits ++ List.replicate e.toNat '0' ++ ['.', '0']
      else if 0 < point && point ≤ 16 then
        digits.take point.toNat ++ '.' :: digits.drop point.toNat
      else if -5 < point && point ≤ 0 then
        '0' :: '.' :: List.replicate (-point).toNat '0' ++ digits
      else
        let power := (if 0 < point then ['+'] else []) ++ (toString (point - 1)).toList
        match digits with
        | [c] => c :: 'e' :: power
        | c :: rest => c :: '.' :: rest ++ 'e' :: power
        | [] => []
    sign ++ String.ofList body

/-- The wording of what was found. -/
def Found.message : Found → String
  | .null => "null"
  | .bool b => "boolean `" ++ (if b then "true" else "false") ++ "`"
  | .integer n => "integer `" ++ toString n ++ "`"
  | .float digits => "floating point `" ++ digits ++ "`"
  | .text s => "string " ++ Text.quoted s
  | .object => "map"
  | .array => "sequence"

/-- A name between backquotes. -/
def backquoted (name : String) : String := "`" ++ name ++ "`"

/-- The names that would have been understood. -/
def expectedNames : List String → String
  | [] => "there are no variants"
  | [a] => "expected " ++ backquoted a
  | [a, b] => "expected " ++ backquoted a ++ " or " ++ backquoted b
  | names => "expected one of " ++ ", ".intercalate (names.map backquoted)

/-- The wording of a problem. -/
def Problem.message : Problem → String
  | .malformed => "malformed JSON"
  | .missingField name => "missing field " ++ backquoted name
  | .duplicateField name => "duplicate field " ++ backquoted name
  | .unknownVariant given known =>
    "unknown variant " ++ backquoted given ++ ", " ++ expectedNames known
  | .wrongType found expected => "invalid type: " ++ found.message ++ ", expected " ++ expected
  | .outOfRange n expected =>
    "invalid value: " ++ (Found.integer n).message ++ ", expected " ++ expected
  | .wrongLength length expected =>
    "invalid length " ++ toString length ++ ", expected " ++ expected

end CodeAtlas.Json
