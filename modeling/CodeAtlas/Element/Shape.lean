import CodeAtlas.Category
import CodeAtlas.Text.Blank
import CodeAtlas.Text.Word

/-!
# The shape of element ids

The id of a type is a dotted name. The id of a field is the dotted name of its type, a dot and an
identifier. The id of a method is the dotted name of its type, a dot, a name, and its parameters in
parentheses. Parameters are free text without parentheses; they are listed by cutting that text at
commas. Nothing is said here about whether such an element exists.

## Main definitions

* `isIdentifier`, `isDotted`, `isMethodName`: the parts of ids.
* `Shape`: an id taken apart.
* `Shape.read?`: take an id of a category apart.
-/
namespace CodeAtlas

/-- The characters that an identifier may start with. -/
def isIdentifierStart (c : Char) : Bool := c.isAlpha || c = '_' || c = '$'

/-- The characters that an identifier may go on with. -/
def isIdentifierPart (c : Char) : Bool := Text.isWord c || c = '$'

/-- An identifier starts with an ASCII letter, an underscore or a dollar sign, and goes on with
word characters and dollar signs. -/
def isIdentifier : List Char → Bool
  | [] => false
  | c :: rest => isIdentifierStart c && rest.all isIdentifierPart

/-- One or more identifiers with dots between them. -/
def isDotted (s : List Char) : Bool := (s.splitOn '.').all isIdentifier

/-- The name of constructors. -/
def constructorName : List Char := ['<', 'i', 'n', 'i', 't', '>']

/-- The name of static initializers. -/
def staticInitializerName : List Char := ['<', 'c', 'l', 'i', 'n', 'i', 't', '>']

/-- The name of a method is an identifier or the name of one of the two kinds of initializers. -/
def isMethodName (s : List Char) : Bool :=
  s = constructorName || s = staticInitializerName || isIdentifier s

/-- The parameters that are listed between commas, without the blanks around them. A place between
two commas that holds only blanks is no parameter. -/
def parameterList (s : List Char) : List (List Char) :=
  ((s.splitOn ',').map Text.trim).filter fun p => !p.isEmpty

/-- An id taken apart; members start with the id of the type that declares them. -/
inductive Shape where
  | type
  | method (owner name : String) (parameters : List String)
  | field (owner name : String)
deriving DecidableEq

namespace Shape

/-- The category of an id. -/
def category : Shape → Category
  | type => .type
  | method _ _ _ => .method
  | field _ _ => .field

/-- The text between an opening parenthesis that is already gone and a closing one at the end. -/
def enclosed? (s : List Char) : Option (List Char) :=
  match Text.cutFirst ')' s with
  | some (inner, []) => if '(' ∈ inner then none else some inner
  | _ => none

/-- The declaring type and the name of a member. -/
def member? (s : List Char) (isName : List Char → Bool) : Option (String × String) :=
  match Text.cutLast '.' s with
  | some (owner, name) =>
    if isDotted owner && isName name then some (String.ofList owner, String.ofList name) else none
  | none => none

/-- Take an id of a category apart; none if it is not formed as its category asks. -/
def read? (category : Category) (id : String) : Option Shape :=
  match category with
  | .type => if isDotted id.toList then some .type else none
  | .field => (member? id.toList isIdentifier).map fun (owner, name) => .field owner name
  | .method => do
    let (front, rest) ← Text.cutFirst '(' id.toList
    let inner ← enclosed? rest
    let (owner, name) ← member? front isMethodName
    return .method owner name ((parameterList inner).map String.ofList)

theorem category_of_read? {c : Category} {id : String} {s : Shape} (h : read? c id = some s) :
    s.category = c := by
  cases c with
  | type => simp only [read?] at h; split at h <;> simp_all [category]; subst h; rfl
  | field =>
    simp only [read?, Option.map_eq_some_iff] at h
    obtain ⟨p, -, rfl⟩ := h
    rfl
  | method =>
    simp only [read?, Option.bind_eq_bind, Option.bind_eq_some_iff] at h
    obtain ⟨p, -, q, -, r, -, h⟩ := h
    simp_all [category]
    subst h
    rfl

/-- The type that declares a member has a dotted name. -/
theorem isDotted_of_member? {s : List Char} {isName : List Char → Bool} {owner name : String}
    (h : member? s isName = some (owner, name)) : isDotted owner.toList = true := by
  unfold member? at h
  split at h
  next front _ hcut =>
    split at h
    next hparts =>
      obtain ⟨rfl, -⟩ := Prod.mk.inj (Option.some.inj h)
      simpa using (Bool.and_eq_true_iff.mp hparts).1
    next => cases h
  next => cases h

/-- The id of a method starts with the id of a type. -/
theorem read?_owner_of_method {id owner name : String} {parameters : List String}
    (h : read? .method id = some (.method owner name parameters)) :
    read? .type owner = some .type := by
  simp only [read?, Option.bind_eq_bind, Option.bind_eq_some_iff] at h
  obtain ⟨p, -, q, -, member, hmember, h⟩ := h
  obtain ⟨rfl, rfl, rfl⟩ : member.1 = owner ∧ member.2 = name ∧ _ = parameters := by simpa using h
  rw [read?, if_pos (isDotted_of_member? hmember)]

end Shape
end CodeAtlas
