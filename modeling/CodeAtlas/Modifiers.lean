import CodeAtlas.Json.Decode
import CodeAtlas.Json.Value

/-!
# Modifiers of program elements

The access and property flags of an element are the bits of one 32-bit word. One bit beyond those
that source code can set marks methods whose abstractness was found out from a declaration outside
the project.

## Main definitions

* `Modifiers`, and the flags `static`, `abstract` and `abstractInferred`.
* `Modifiers.isMarkedAbstract`: whether a method counts as abstract.
* `Modifiers.inferred`: the modifiers to record for a declaration outside the project.
* `Modifiers.text`, `Modifiers.json`: the written forms.
-/
namespace CodeAtlas

/-- The flags of an element. -/
structure Modifiers where
  bits : UInt32 := 0
deriving DecidableEq

namespace Modifiers

/-- No flag is set. -/
def empty : Modifiers := ⟨0⟩

/-- The flag of members that belong to the type itself. -/
def static : Modifiers := ⟨0x0008⟩

/-- The flag of methods without a body and of types that have such methods. -/
def abstract : Modifiers := ⟨0x0400⟩

/-- The flag of methods that are known to be abstract from a declaration. -/
def abstractInferred : Modifiers := ⟨0x4000⟩

/-- Whether all flags of `other` are set. -/
def contains (m other : Modifiers) : Bool := m.bits &&& other.bits = other.bits

/-- The flags that are set in one of two. -/
def union (m other : Modifiers) : Modifiers := ⟨m.bits ||| other.bits⟩

instance : Union Modifiers := ⟨union⟩

/-- Whether the element belongs to the type itself. -/
def isStatic (m : Modifiers) : Bool := m.contains static

/-- Whether the element is declared abstract. -/
def isAbstract (m : Modifiers) : Bool := m.contains abstract

/-- Whether a method counts as abstract: it carries the inferred flag or any flag above it. -/
def isMarkedAbstract (m : Modifiers) : Bool := abstractInferred.bits ≤ m.bits

/-- The modifiers to record for what is declared outside the project. -/
def inferred (declared : Modifiers) : Modifiers :=
  if declared.isAbstract then declared ∪ abstractInferred else declared

/-- The word in hexadecimal digits, of which there are at least four. -/
def text (m : Modifiers) : String :=
  let digits := Nat.toDigits 16 m.bits.toNat
  String.ofList ('0' :: 'x' :: List.replicate (4 - digits.length) '0' ++ digits)

/-- The word as a JSON number. -/
def json (m : Modifiers) : Json := .nat m.bits.toNat

/-- Modifiers from a JSON number. -/
def decode : Json.Decode Modifiers := fun r => (Json.Decode.word r).map mk

end Modifiers
end CodeAtlas
