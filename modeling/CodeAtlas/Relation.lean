import CodeAtlas.Category

/-!
# Relations between program elements

Nine links are read from left to right ("a class declares a method"), and each of them has its
transpose, which is read from right to left. A relation fixes the categories of the elements on its
two sides. Which elements are related is not known here.

## Main definitions

* `Link`: the nine links.
* `Relation`: a link with its direction; `Relation.transpose` turns it around.
* `Relation.accepts`: whether two categories fit the two sides.
* `Relation.supertypes`: the relations that lead from a type to its direct supertypes.
-/
namespace CodeAtlas

/-- What one program element may have to do with another. -/
inductive Link where
  | declaresType
  | declaresMethod
  | declaresField
  | extendsClass
  | implementsInterface
  | extendsInterfaces
  | calls
  | accesses
  | overrides
deriving DecidableEq

namespace Link

/-- All links in their order. -/
def all : List Link :=
  [declaresType, declaresMethod, declaresField, extendsClass, implementsInterface,
    extendsInterfaces, calls, accesses, overrides]

/-- The written name of a link. -/
def name : Link → String
  | declaresType => "DECLARES_TYPE"
  | declaresMethod => "DECLARES_METHOD"
  | declaresField => "DECLARES_FIELD"
  | extendsClass => "EXTENDS_CLASS"
  | implementsInterface => "IMPLEMENTS_INTERFACE"
  | extendsInterfaces => "EXTENDS_INTERFACES"
  | calls => "CALLS"
  | accesses => "ACCESSES"
  | overrides => "OVERRIDES"

/-- The position of a link among all. -/
def rank : Link → Nat
  | declaresType => 0
  | declaresMethod => 1
  | declaresField => 2
  | extendsClass => 3
  | implementsInterface => 4
  | extendsInterfaces => 5
  | calls => 6
  | accesses => 7
  | overrides => 8

/-- The category on the left of a link. -/
def source : Link → Category
  | calls | accesses | overrides => .method
  | _ => .type

/-- The category on the right of a link. -/
def target : Link → Category
  | declaresMethod | calls | overrides => .method
  | declaresField | accesses => .field
  | _ => .type

theorem rank_injective {a b : Link} (h : a.rank = b.rank) : a = b := by
  cases a <;> cases b <;> simp_all [rank]

theorem rank_lt (a : Link) : a.rank < 9 := by cases a <;> decide

end Link

/-- A link read in one of its two directions. -/
structure Relation where
  link : Link
  /-- Whether the link is read from right to left. -/
  reversed : Bool := false
deriving DecidableEq

namespace Relation

/-- From a type to the types declared in it. -/
@[match_pattern] abbrev declaresType : Relation := ⟨.declaresType, false⟩
/-- From a type to its methods. -/
@[match_pattern] abbrev declaresMethod : Relation := ⟨.declaresMethod, false⟩
/-- From a type to its fields. -/
@[match_pattern] abbrev declaresField : Relation := ⟨.declaresField, false⟩
/-- From a class to its direct superclass. -/
@[match_pattern] abbrev extendsClass : Relation := ⟨.extendsClass, false⟩
/-- From a class to the interfaces that it names. -/
@[match_pattern] abbrev implementsInterface : Relation := ⟨.implementsInterface, false⟩
/-- From an interface to the interfaces that it names. -/
@[match_pattern] abbrev extendsInterfaces : Relation := ⟨.extendsInterfaces, false⟩
/-- From a method to the methods of supertypes that it overrides. -/
@[match_pattern] abbrev overrides : Relation := ⟨.overrides, false⟩

/-- All relations in their order: the links, and then their transposes. -/
def all : List Relation := Link.all.map (⟨·, false⟩) ++ Link.all.map (⟨·, true⟩)

/-- The same link in the other direction. -/
def transpose (r : Relation) : Relation := { r with reversed := !r.reversed }

/-- The written name of a relation; a transpose is marked in front. -/
def name (r : Relation) : String := (if r.reversed then "T_" else "") ++ r.link.name

/-- The relation of a name in any ASCII case. -/
def read? (s : String) : Option Relation := all.find? fun r => Text.sameIgnoringCase r.name s

/-- The position of a relation among all. -/
def rank (r : Relation) : Nat := (if r.reversed then 9 else 0) + r.link.rank

/-- The category of the elements that a relation leads from. -/
def domain (r : Relation) : Category := if r.reversed then r.link.target else r.link.source

/-- The category of the elements that a relation leads to. -/
def range (r : Relation) : Category := if r.reversed then r.link.source else r.link.target

/-- Whether elements of two categories may stand on the two sides of a relation. -/
def accepts (r : Relation) (d e : Category) : Bool := r.domain = d && r.range = e

/-- Whether a relation is computed by hierarchy analysis rather than recorded from units. -/
def isComputed (r : Relation) : Bool := r.link = .overrides

/-- Whether a relation says what a type declares or extends. -/
def isDeclarative (r : Relation) : Bool :=
  !r.reversed &&
    match r.link with
    | .calls | .accesses | .overrides => false
    | _ => true

/-- The relations that lead from a type to its direct supertypes, in the order of their search. -/
def supertypes : List Relation := [extendsClass, implementsInterface, extendsInterfaces]

@[simp] theorem transpose_transpose (r : Relation) : r.transpose.transpose = r := by
  simp [transpose]

@[simp] theorem transpose_link (r : Relation) : r.transpose.link = r.link := rfl

@[simp] theorem domain_transpose (r : Relation) : r.transpose.domain = r.range := by
  rcases r with ⟨l, _ | _⟩ <;> rfl

@[simp] theorem range_transpose (r : Relation) : r.transpose.range = r.domain := by
  rcases r with ⟨l, _ | _⟩ <;> rfl

theorem rank_injective {a b : Relation} (h : a.rank = b.rank) : a = b := by
  obtain ⟨l, d⟩ := a
  obtain ⟨m, e⟩ := b
  have := l.rank_lt
  have := m.rank_lt
  cases d <;> cases e <;> simp only [rank] at h <;> grind [Link.rank_injective]

instance : Ord Relation := ⟨compareOn rank⟩
instance : Std.TransOrd Relation := inferInstanceAs (Std.TransCmp (compareOn rank))
instance : Std.LawfulEqOrd Relation where
  compare_self {_} := @Std.ReflCmp.compare_self _ (compareOn rank) _ _
  eq_of_compare h := rank_injective (@Std.LawfulEqCmp.eq_of_compare _ compare _ _ _ h)

end Relation
end CodeAtlas
