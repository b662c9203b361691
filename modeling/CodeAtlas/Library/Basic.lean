import CodeAtlas.Modifiers
import CodeAtlas.Registry

/-!
# Declarations from outside the project

A catalogue lists types that the project uses but does not contain, with what each of them
declares. Keys in it are as they were written: they need not name elements, and a type may name
others that are not listed. Types and members are kept by key in one table, in which a later entry
takes the place of an earlier one. A library is a catalogue, or there is none.

## Main definitions

* `Declaration`: what is declared under one key.
* `TypeEntry`, `Catalogue.insert`: a listed type and its way into the table.
* `Library.declaration`, `Library.element`, `Library.handle`: the two directions of the look-up.
* `Library.resolve`, `Library.instances`: what is asked for on the way from declarations to elements.
* `Library.range`: the elements that a type is declared to be related to.
-/
namespace CodeAtlas

/-- What is declared under one key. Members have modifiers alone. -/
structure Declaration where
  modifiers : Modifiers := {}
  isInterface : Bool := false
  superclass : Option Key := none
  interfaces : List Key := []
  memberTypes : List Key := []
  methods : List Key := []
  fields : List Key := []
deriving DecidableEq

/-- The keys that a type is declared to be related to. The interfaces that an interface names are
those it extends, and those that a class names are those it implements. -/
def Declaration.related (d : Declaration) (r : Relation) : List Key :=
  match r with
  | .declaresType => d.memberTypes
  | .declaresMethod => d.methods
  | .declaresField => d.fields
  | .extendsClass => d.superclass.toList
  | .implementsInterface => if d.isInterface then [] else d.interfaces
  | .extendsInterfaces => if d.isInterface then d.interfaces else []
  | _ => []

/-- A method or a field that a listed type declares. -/
structure MemberEntry where
  id : String
  modifiers : Modifiers := {}
deriving DecidableEq

/-- A listed type. -/
structure TypeEntry where
  id : String := ""
  modifiers : Modifiers := {}
  isInterface : Bool := false
  superclass : Option String := none
  interfaces : List String := []
  memberTypes : List String := []
  methods : List MemberEntry := []
  fields : List MemberEntry := []
deriving DecidableEq

/-- The declaration of a listed type. -/
def TypeEntry.declaration (t : TypeEntry) : Declaration where
  modifiers := t.modifiers
  isInterface := t.isInterface
  superclass := t.superclass.map (⟨.type, ·⟩)
  interfaces := t.interfaces.map (⟨.type, ·⟩)
  memberTypes := t.memberTypes.map (⟨.type, ·⟩)
  methods := t.methods.map (⟨.method, ·.id⟩)
  fields := t.fields.map (⟨.field, ·.id⟩)

/-- What a listed type declares, in the order in which it enters the table: its methods, its
fields, and the type itself. -/
def TypeEntry.declarations (t : TypeEntry) : List (Key × Declaration) :=
  t.methods.map (fun m => (⟨.method, m.id⟩, { modifiers := m.modifiers })) ++
    t.fields.map (fun f => (⟨.field, f.id⟩, { modifiers := f.modifiers })) ++
    [(⟨.type, t.id⟩, t.declaration)]

/-- Declarations by key. -/
structure Catalogue where
  table : Std.ExtTreeMap Key Declaration := ∅

namespace Catalogue

/-- The number of keys under which something is declared. -/
def size (c : Catalogue) : Nat := c.table.size

/-- List one more type. -/
def insert (c : Catalogue) (t : TypeEntry) : Catalogue :=
  ⟨t.declarations.foldl (fun table (k, d) => table.insert k d) c.table⟩

/-- The catalogue of a list of types. -/
def ofList (types : List TypeEntry) : Catalogue := types.foldl insert {}

end Catalogue

/-- Where declarations from outside the project come from. -/
inductive Library where
  | absent
  | catalogue (c : Catalogue)

namespace Library

/-- What is declared under a key. -/
def declaration? (l : Library) (k : Key) : Option Declaration :=
  match l with
  | absent => none
  | catalogue c => c.table[k]?

/-- What is declared under a key, or the fault that nothing is. -/
def declaration (l : Library) (k : Key) : Except Fault Declaration :=
  match l with
  | absent => .error (.conversion k.text .noDeclarations)
  | catalogue c =>
    match c.table[k]? with
    | some d => .ok d
    | none => .error (.conversion k.text .undeclared)

/-- The key under which an element is declared, or the fault that it is not. -/
def handle (l : Library) (e : Element) : Except Fault Key :=
  match l with
  | absent => .error (.conversion e.id .noDeclarations)
  | catalogue c =>
    if e.key ∈ c.table then .ok e.key else .error (.conversion e.key.text .undeclared)

/-- Ask for the instance that a key names, where there is a catalogue at all. The key need not be
listed. -/
def resolve (l : Library) (k : Key) : Asking (Except Fault Interned) :=
  match l with
  | absent => return .error (.conversion k.text .noDeclarations)
  | catalogue _ => do
    let found ← Asking.get k
    return found.mapError (.ofDeclaration k.text)

/-- The element that a key names, where there is a catalogue at all. The key need not be listed. -/
def element (l : Library) (k : Key) : Except Fault Element :=
  match l with
  | absent => .error (.conversion k.text .noDeclarations)
  | catalogue _ =>
    match Element.read? k with
    | some e => .ok e
    | none => .error (.conversion k.text (.invalidKey k.id (Element.flaw k)))

/-- The declared modifiers of an element. -/
def modifiers (l : Library) (e : Element) : Except Fault Modifiers := do
  let k ← l.handle e
  let d ← l.declaration k
  return d.modifiers

/-- Ask for the instances that keys name, in the order of their elements. Keys that name no element
are passed over. -/
def resolveAll (l : Library) (ks : List Key) : Asking (List Interned) := do
  let found ← ks.mapM l.resolve
  return inOrder Interned.element (found.filterMap Except.toOption)

/-- Ask for the instances that a type is declared to be related to. There are none for a type that
is not declared. -/
def instances (l : Library) (c : Element) (r : Relation) : Asking (List Interned) :=
  match l.handle c >>= l.declaration with
  | .ok d => l.resolveAll (d.related r)
  | .error _ => return []

/-- The elements that a type is declared to be related to. Keys that name no element are passed
over. -/
def range (l : Library) (c : Element) (r : Relation) : ElementSet :=
  match l.declaration? c.key with
  | some d => .ofList ((d.related r).filterMap Element.read?)
  | none => ∅

/-- A bound on the number of types that are named as supertypes. -/
def extent (l : Library) : Nat :=
  match l with
  | absent => 0
  | catalogue c =>
    c.table.foldr (fun _ d n => d.superclass.toList.length + d.interfaces.length + n) 0

/-- With a catalogue, the modifiers are those that stand under the key. -/
theorem modifiers_catalogue (c : Catalogue) (e : Element) : modifiers (.catalogue c) e =
    match c.table[e.key]? with
    | some d => .ok d.modifiers
    | none => .error (.conversion e.key.text .undeclared) := by
  cases hd : c.table[e.key]? with
  | some d =>
    have hmem : e.key ∈ c.table := Std.ExtTreeMap.mem_iff_isSome_getElem?.mpr (by simp [hd])
    simp only [modifiers, handle, if_pos hmem, declaration, bind, Except.bind, hd]
    rfl
  | none =>
    have hmem : e.key ∉ c.table := by
      rw [Std.ExtTreeMap.mem_iff_isSome_getElem?, hd]
      simp
    simp only [modifiers, handle, if_neg hmem, bind, Except.bind]

end Library
end CodeAtlas
