/-!
# JSON numbers

A number is kept as it is spelled until someone asks for its quantity. Whole numbers that fit into
64 bits are exact; all others are floating point numbers, computed as the digits that fit into 64
bits times a power of ten, so the last place need not be the nearest one. A quantity beyond the
largest finite number does not exist.

## Main definitions

* `Numeral`: the parts of a spelled number.
* `Numeral.quantity?`: what it stands for.
-/
namespace CodeAtlas.Json

/-- The parts of a spelled number; digits are given by their values. -/
structure Numeral where
  /-- Whether a minus sign stands in front. -/
  negative : Bool
  /-- The digits before the point. -/
  whole : List Nat
  /-- The digits after the point, if there is one. -/
  fraction : Option (List Nat)
  /-- The sign (true for minus) and digits of the exponent, if there is one. -/
  exponent : Option (Bool × List Nat)

/-- What a spelled number stands for. -/
inductive Quantity where
  | natural (n : Nat)
  /-- The negative of a positive number. -/
  | negative (n : Nat)
  | float (x : Float)

/-- The number that decimal digits spell. -/
def ofDigits (digits : List Nat) : Nat := digits.foldl (fun n d => 10 * n + d) 0

/-- The quantities of 64 bits without a sign are below this. -/
def wordLimit : Nat := 18446744073709551616

namespace Numeral

/-- The digits taken so far and the power of ten that they are to be multiplied with. -/
structure Significand where
  digits : Nat
  scale : Int

/-- Take the digits before the point; from the first that no longer fits on, they only count. -/
def takeWhole : List Nat → Nat → Significand
  | [], n => ⟨n, 0⟩
  | d :: ds, n => if 10 * n + d < wordLimit then takeWhole ds (10 * n + d) else ⟨n, ds.length + 1⟩

/-- Take the digits after the point up to the first that no longer fits. -/
def takeFraction : List Nat → Significand → Significand
  | [], s => s
  | d :: ds, s =>
    if 10 * s.digits + d < wordLimit then takeFraction ds ⟨10 * s.digits + d, s.scale - 1⟩ else s

/-- A power of ten that a floating point number can hold. -/
def tenTo (n : Nat) : Float := Float.ofScientific 1 false n

/-- A significand times a power of ten, divided in at most two steps for small results. -/
def scaled (digits : Nat) (scale : Int) : Option Float :=
  let x := (UInt64.ofNat digits).toFloat
  if 308 < scale then
    if digits = 0 then some x else none
  else if 0 ≤ scale then
    let y := x * tenTo scale.toNat
    if y.isInf then none else some y
  else if -308 ≤ scale then some (x / tenTo (-scale).toNat)
  else if -616 ≤ scale then some (x / tenTo 308 / tenTo (-scale - 308).toNat)
  else some 0.0

/-- The floating point number that is spelled, without its sign. -/
def magnitude? (n : Numeral) : Option Float :=
  let s := takeFraction (n.fraction.getD []) (takeWhole n.whole 0)
  match n.exponent with
  | none => scaled s.digits s.scale
  | some (minus, digits) =>
    let e := ofDigits digits
    if 2147483648 ≤ e then if s.digits = 0 || minus then some 0.0 else none
    else scaled s.digits (if minus then s.scale - e else s.scale + e)

/-- What the numeral stands for, if it is within range. Minus zero is a floating point number. -/
def quantity? (n : Numeral) : Option Quantity :=
  let whole := ofDigits n.whole
  if n.fraction.isNone && n.exponent.isNone && !n.negative && whole < wordLimit then
    some (.natural whole)
  else if n.fraction.isNone && n.exponent.isNone && n.negative && 0 < whole &&
      2 * whole ≤ wordLimit then
    some (.negative whole)
  else n.magnitude?.map fun x => .float (if n.negative then -x else x)

end Numeral
end CodeAtlas.Json
