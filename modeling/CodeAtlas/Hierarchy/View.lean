import CodeAtlas.Library.Basic
import CodeAtlas.Packages
import CodeAtlas.Store

/-!
# What is known of a program

A view joins the recorded facts, the project's packages and the declarations from outside. What a
type of the project declares and extends is what is recorded; what any other type declares and
extends is what the library says. All other relations are as recorded. A view only looks, but to look
at the library is to ask the registry for the instances of the elements that are named there.

## Main definitions

* `Scope` and `View`, with `View.range` and `View.range?`.
* `Finding`, with `View.findings` and `View.findings?`: the same as instances.
* `View.supertypes`: the direct supertypes of a type.
-/
namespace CodeAtlas

/-- What hierarchies are seen in the light of: the packages of the project, and the declarations
of everything else. -/
structure Scope where
  project : Packages
  library : Library

/-- The sources of knowledge about a program. -/
structure View extends Scope where
  store : Store

namespace View

/-- Whether a relation of an element is looked up in the library. -/
def isForeign (v : View) (d : Element) (r : Relation) : Bool :=
  r.isDeclarative && d.isType && !v.project.owns d

/-- The elements that an element is related to. -/
def range (v : View) (d : Element) (r : Relation) : ElementSet :=
  if v.isForeign d r then v.library.range d r else v.store.range d r

/-- The elements that an element is related to, or the fault that they may not be asked for. -/
def range? (v : View) (d : Element) (r : Relation) : Except Fault ElementSet :=
  if v.isForeign d r then .ok (v.library.range d r) else v.store.range? d r

end View

/-- An instance that is come upon: that of a recorded tuple, or that of a key that the library
names. -/
inductive Finding where
  | recorded (d : Element) (r : Relation) (e : Element)
  | interned (i : Interned)

/-- The element that is come upon. -/
def Finding.element : Finding → Element
  | recorded _ _ e => e
  | interned i => i.element

namespace View

/-- Look for the instances that an element is related to. -/
def findings (v : View) (d : Element) (r : Relation) : Asking (List Finding) :=
  if v.isForeign d r then do
    let found ← v.library.instances d r
    return found.map .interned
  else return (v.store.range d r).toList.map (.recorded d r)

/-- Look for the instances that an element is related to, or give the fault that they may not be
asked for. -/
def findings? (v : View) (d : Element) (r : Relation) : Asking (Except Fault (List Finding)) :=
  if v.isForeign d r then do
    let found ← v.library.instances d r
    return .ok (found.map .interned)
  else return (v.store.range? d r).map fun range => range.toList.map (.recorded d r)

/-- The recorded elements of the project that an element is related to. -/
def projectRange? (v : View) (d : Element) (r : Relation) : Except Fault ElementSet :=
  (v.store.range? d r).map fun range => range.filter v.project.owns

/-- The direct supertypes of a type, superclasses first. One that is named twice is listed twice. -/
def supertypes (v : View) (t : Element) : List Element :=
  Relation.supertypes.flatMap fun r => (v.range t r).toList

/-- A bound on the number of types that are supertypes of others. -/
def extent (v : View) : Nat := v.store.size + v.library.extent

/-- What is not refused is the plain range. -/
theorem range?_eq_ok {v : View} {d : Element} {r : Relation} {s : ElementSet}
    (h : v.range? d r = .ok s) : s = v.range d r := by
  by_cases hf : v.isForeign d r
  · simp_all [range?, range]
  · by_cases ha : v.store.answers r <;> simp_all [range?, range, Store.range?]

/-- A relation that is not computed may always be asked for. -/
theorem range?_of_not_computed {v : View} {d : Element} {r : Relation}
    (hr : r.isComputed = false) : v.range? d r = .ok (v.range d r) := by
  by_cases hf : v.isForeign d r <;> simp [range?, range, hf, Store.range?, Store.answers, hr]

end View
end CodeAtlas
