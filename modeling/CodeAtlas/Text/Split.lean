/-!
# Cutting text at a separator

A text is cut in two at the first or at the last occurrence of a character, or compared without
regard to ASCII case. Cutting into all pieces is `List.splitOn`.

## Main definitions

* `cutFirst`, `cutLast`: the texts on the two sides of one occurrence, if there is one.
* `sameIgnoringCase`: equality up to the case of ASCII letters.
-/
namespace CodeAtlas.Text

/-- The texts before and after the first occurrence of `c`. -/
def cutFirst (c : Char) : List Char → Option (List Char × List Char)
  | [] => none
  | x :: rest =>
    if x = c then some ([], rest) else (cutFirst c rest).map fun p => (x :: p.1, p.2)

/-- The texts before and after the last occurrence of `c`. -/
def cutLast (c : Char) : List Char → Option (List Char × List Char)
  | [] => none
  | x :: rest =>
    match cutLast c rest with
    | some p => some (x :: p.1, p.2)
    | none => if x = c then some ([], rest) else none

theorem cutFirst_eq_none {c : Char} {s : List Char} : cutFirst c s = none ↔ c ∉ s := by
  induction s with
  | nil => simp [cutFirst]
  | cons x rest ih =>
    rw [cutFirst]
    split <;> grind [Option.map_eq_none_iff]

theorem cutFirst_eq_some {c : Char} {s a b : List Char} :
    cutFirst c s = some (a, b) ↔ s = a ++ c :: b ∧ c ∉ a := by
  induction s generalizing a with
  | nil => simp [cutFirst]
  | cons x rest ih =>
    rw [cutFirst]
    cases a with
    | nil => split <;> simp_all
    | cons y a =>
      have := @ih a
      split <;> simp_all
      grind

theorem cutLast_eq_none {c : Char} {s : List Char} : cutLast c s = none ↔ c ∉ s := by
  induction s with
  | nil => simp [cutLast]
  | cons x rest ih =>
    rw [cutLast]
    split <;> grind

theorem cutLast_eq_some {c : Char} {s a b : List Char} :
    cutLast c s = some (a, b) ↔ s = a ++ c :: b ∧ c ∉ b := by
  induction s generalizing a b with
  | nil => simp [cutLast]
  | cons x rest ih =>
    rw [cutLast]
    split
    next p hp =>
      obtain ⟨front, back⟩ := p
      have hrest := ih.1 hp
      cases a with
      | nil => grind
      | cons y a =>
        have := @ih a b
        grind
    next hn =>
      have hmem := cutLast_eq_none.1 hn
      cases a <;> grind

/-- Equality of two texts up to the case of ASCII letters. -/
def sameIgnoringCase (s t : String) : Bool :=
  s.toList.map Char.toLower == t.toList.map Char.toLower

end CodeAtlas.Text
