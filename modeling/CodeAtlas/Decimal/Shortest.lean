/-!
# Shortest decimal text of a floating point number

Of the decimal numbers that read back as a given double, one with the fewest digits is chosen, and
among those the nearest. The choice is made in exact arithmetic on natural numbers. How the digits
are laid out is decided where they are printed.

## Main definitions

* `Binary`: a finite positive double as `mantissa * 2 ^ exponent`.
* `Binary.shortest`: the digits and the power of ten of its shortest decimal.
-/
namespace CodeAtlas.Decimal

/-- A positive number `mantissa * 2 ^ exponent`. When the mantissa is the smallest of its exponent,
the gap to the next smaller number is half of the gap to the next larger one. -/
structure Binary where
  mantissa : Nat
  exponent : Int
  /-- Whether the next smaller number is only half as far away as the next larger one. -/
  narrowBelow : Bool

/-- The magnitude of a double from its bits; infinities and NaN have none. -/
def Binary.ofFloat? (x : Float) : Option Binary :=
  let bits := x.toBits.toNat % (1 <<< 63)
  let field : Nat := bits >>> 52
  let fraction := bits % (1 <<< 52)
  if field = 2047 then none
  else if field = 0 then some ⟨fraction, -1074, false⟩
  else some ⟨(1 <<< 52) + fraction, (field : Int) - 1075, fraction == 0 && 1 < field⟩

/-- Two natural numbers in the ratio of `10 ^ e` to one. -/
def powerOfTen (e : Int) : Nat × Nat := (Nat.pow 10 e.toNat, Nat.pow 10 (-e).toNat)

/-- The multiple of `10 ^ e` that reads back as the number, the nearer one if there are two. -/
def Binary.onGrid? (b : Binary) (e : Int) : Option Nat :=
  let (up, down) := powerOfTen e
  -- One unit is a quarter of the number's last binary place.
  let unit := 1 <<< (b.exponent - 2).toNat
  let scale := 1 <<< (2 - b.exponent).toNat
  let value := 4 * b.mantissa * unit * down
  let low := (4 * b.mantissa - (if b.narrowBelow then 1 else 2)) * unit * down
  let high := (4 * b.mantissa + 2) * unit * down
  let step := up * scale
  let even := b.mantissa % 2 = 0
  let reads := fun d : Nat =>
    if even then low ≤ d * step && d * step ≤ high else low < d * step && d * step < high
  let floor := value / step
  match reads floor, reads (floor + 1) with
  | true, true =>
    let below := value - floor * step
    let above := (floor + 1) * step - value
    some (if below < above || (below = above && floor % 2 = 0) then floor else floor + 1)
  | true, false => some floor
  | false, true => some (floor + 1)
  | false, false => none

/-- The first grid from `10 ^ e` down that holds a number which reads back. -/
def Binary.search (b : Binary) : Nat → Int → Nat × Int
  | 0, e => (b.mantissa, e)
  | n + 1, e =>
    match b.onGrid? e with
    | some d => (d, e)
    | none => b.search n (e - 1)

/-- The digits and the power of ten of the shortest decimal that reads back. -/
def Binary.shortest (b : Binary) : Nat × Int :=
  let size := ((b.mantissa.log2 : Int) + b.exponent) * 30103 / 100000 + 2
  b.search 24 size

end CodeAtlas.Decimal
