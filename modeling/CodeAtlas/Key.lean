import CodeAtlas.Fault

/-!
# Element keys

A key names a program element by its category and its id, and is written with a colon between the
two. The id of a key may be any text; whether it is the id of an element is decided by
`CodeAtlas.Element.Shape`.

## Main definitions

* `Key`, with its order: by category, then by the code points of the id.
* `Key.text`, `Key.read`: the written form and its reading.
-/
namespace CodeAtlas

/-- The name of a program element. -/
structure Key where
  category : Category
  id : String
deriving DecidableEq

namespace Key

/-- The written form of a key. -/
def text (k : Key) : String := k.category.name ++ ":" ++ k.id

/-- The key of a written form, whose category is in any ASCII case. The id may hold colons. -/
def read (s : String) : Except Fault Key :=
  match Text.cutFirst ':' s.toList with
  | none => .error (.invalidKey s .noCategory)
  | some (category, id) =>
    (Category.read (String.ofList category)).map fun c => ⟨c, String.ofList id⟩

/-- Keys are ordered by category and then by id. -/
protected def compare : Key → Key → Ordering :=
  compareLex (compareOn category) (compareOn id)

instance : Ord Key := ⟨Key.compare⟩

instance : Std.TransOrd Key :=
  inferInstanceAs (Std.TransCmp (compareLex (compareOn category) (compareOn id)))

instance : Std.LawfulEqOrd Key where
  compare_self {_} := @Std.ReflCmp.compare_self _ (compareLex (compareOn category) (compareOn id)) _ _
  eq_of_compare {a b} h := by
    obtain ⟨hc, hi⟩ := Ordering.then_eq_eq.1 h
    have hc := @Std.LawfulEqCmp.eq_of_compare _ compare _ _ _ hc
    have hi := @Std.LawfulEqCmp.eq_of_compare _ compare _ _ _ hi
    cases a
    cases b
    simp_all

end Key
end CodeAtlas
