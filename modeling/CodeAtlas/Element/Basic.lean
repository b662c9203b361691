import CodeAtlas.Element.Shape
import CodeAtlas.Key

/-!
# Program elements

A program element is a type, a method or a field with a well-formed id. It carries its id taken
apart, and a proof that it is the id's shape, so an element is determined by its key: equality and
order look at the key alone.

## Main definitions

* `Element`, with its order; `Element.key`.
* `Element.read`: the element that a key names.
* `Element.owner?`: the type that declares a member.
* `Element.package`, `Element.simpleName`: the parts of its name.
* `ElementSet`: sets of elements, listed in their order.
* `inOrder`: such a set of what stands for elements.
-/
namespace CodeAtlas

/-- A program element. -/
structure Element where
  id : String
  shape : Shape
  reads : Shape.read? shape.category id = some shape

namespace Element

/-- The category of an element. -/
def category (e : Element) : Category := e.shape.category

/-- The key of an element. -/
def key (e : Element) : Key := ⟨e.category, e.id⟩

theorem key_injective {a b : Element} (h : a.key = b.key) : a = b := by
  obtain ⟨id, shape, reads⟩ := a
  obtain ⟨id', shape', reads'⟩ := b
  simp only [key, category, Key.mk.injEq] at h
  obtain ⟨hc, rfl⟩ := h
  rw [hc, reads'] at reads
  simp_all

instance : DecidableEq Element := fun a b =>
  if h : a.key = b.key then isTrue (key_injective h) else isFalse fun e => h (e ▸ rfl)

/-- Elements are ordered by their keys. -/
instance : Ord Element := ⟨compareOn key⟩
instance : Std.TransOrd Element := inferInstanceAs (Std.TransCmp (compareOn key))
instance : Std.LawfulEqOrd Element where
  compare_self {_} := @Std.ReflCmp.compare_self _ (compareOn key) _ _
  eq_of_compare h := key_injective (@Std.LawfulEqCmp.eq_of_compare _ compare _ _ _ h)

/-- The element of a category and an id that is formed as the category asks. -/
def read? (k : Key) : Option Element :=
  match h : Shape.read? k.category k.id with
  | some shape => some ⟨k.id, shape, by rw [Shape.category_of_read? h]; exact h⟩
  | none => none

/-- What is wrong with a key that names no element. -/
def flaw (k : Key) : KeyFlaw := if k.id = "" then .emptyId else .malformedId k.category

/-- The element that a key names. -/
def read (k : Key) : Except Fault Element :=
  match read? k with
  | some e => .ok e
  | none => .error (.invalidKey k.id (flaw k))

theorem read_eq_ok {k : Key} {e : Element} : read k = .ok e ↔ read? k = some e := by
  cases h : read? k <;> simp [read, h]

theorem key_of_read? {k : Key} {e : Element} (h : read? k = some e) : e.key = k := by
  unfold read? at h
  split at h
  next shape hs =>
    cases h
    obtain ⟨c, id⟩ := k
    simp only [key, category, Key.mk.injEq, and_true]
    exact Shape.category_of_read? hs
  next => simp at h

@[simp] theorem read?_key (e : Element) : read? e.key = some e := by
  unfold read?
  split
  next shape hs =>
    have := e.reads
    simp only [key, category] at hs
    rw [this] at hs
    cases hs
    rfl
  next hs =>
    have := e.reads
    simp only [key, category] at hs
    simp [this] at hs

/-- Whether the element is a type. -/
def isType (e : Element) : Bool := e.category = .type

/-- Whether the element is a method. -/
def isMethod (e : Element) : Bool := e.category = .method

/-- The id of the type that declares a member. -/
def ownerId? (e : Element) : Option String :=
  match e.shape with
  | .type => none
  | .method owner _ _ => some owner
  | .field owner _ => some owner

/-- The type that declares a member. -/
def owner? (e : Element) : Option Element :=
  e.ownerId?.bind fun owner => read? ⟨.type, owner⟩

/-- The name of a method, without its type and its parameters. -/
def methodName? (e : Element) : Option String :=
  match e.shape with
  | .method _ name _ => some name
  | _ => none

/-- Whether the name of a method begins like that of a constructor or of a static initializer. -/
def isInitializer (e : Element) : Bool :=
  match e.methodName? with
  | some name =>
    constructorName.isPrefixOf name.toList || staticInitializerName.isPrefixOf name.toList
  | none => false

/-- The part of a dotted name before its last dot; empty if there is no dot. -/
def packageOf (id : String) : String :=
  match Text.cutLast '.' id.toList with
  | some (package, _) => String.ofList package
  | none => ""

/-- The package of an element: that of its type, for members. -/
def package (e : Element) : String := packageOf (e.ownerId?.getD e.id)

/-- The short name of an element: the last part of a type's name, the name and parameters of a
method, or the name of a field. -/
def simpleName (e : Element) : String :=
  match e.shape with
  | .type =>
    match Text.cutLast '.' e.id.toList with
    | some (_, name) => String.ofList name
    | none => e.id
  | .method _ name parameters => name ++ "(" ++ ",".intercalate parameters ++ ")"
  | .field _ name => name

/-- A method has a name, and there is a type that declares it. -/
theorem exists_owner {m : Element} (h : m.isMethod = true) :
    ∃ name owner, m.methodName? = some name ∧ m.owner? = some owner := by
  obtain ⟨id, shape, reads⟩ := m
  cases shape with
  | type => simp [isMethod, category, Shape.category] at h
  | field => simp [isMethod, category, Shape.category] at h
  | method owner name parameters =>
    have hread : read? ⟨.type, owner⟩ = some ⟨owner, .type, Shape.read?_owner_of_method reads⟩ :=
      read?_key ⟨owner, .type, Shape.read?_owner_of_method reads⟩
    exact ⟨name, _, rfl, hread⟩

end Element

/-- A set of elements. -/
abbrev ElementSet := Std.ExtTreeSet Element

/-- What stands for elements, in the order of the elements. Of what stands for the same element the
first is listed. -/
def inOrder (element : α → Element) (xs : List α) : List α :=
  (Std.ExtTreeSet.ofList (xs.map element)).toList.filterMap fun e => xs.find? (element · = e)

end CodeAtlas
