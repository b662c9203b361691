import CodeAtlas.Element.Basic
import Std.Data.ExtTreeMap

/-!
# The registry of interned elements

A session reads each key into an element once and hands out the same instance from then on. An
instance is told apart from others by its serial number. A key that names no element leaves the
registry as it is. Which elements are facts of a program is not recorded here.

## Main definitions

* `Registry`, with `Registry.get` and `Registry.getNamed`.
* `Registry.owner`: the instance of the type that declares a member.
* `Asking`: computations that ask a registry on their way.
* `Registry.addAll`: intern elements whose instances nobody asks for.
-/
namespace CodeAtlas

/-- An instance of an element. -/
structure Interned where
  element : Element
  /-- The number of instances that were there before. -/
  serial : Nat
deriving DecidableEq

/-- The instances of a session by their keys. -/
structure Registry where
  instances : Std.ExtTreeMap Key Interned := ∅
  keyed : ∀ (k : Key) (i : Interned), instances[k]? = some i → i.element.key = k := by simp

namespace Registry

/-- A registry without instances. -/
def empty : Registry := {}

/-- The number of interned elements. -/
def size (r : Registry) : Nat := r.instances.size

/-- Intern an element whose key has no instance yet. -/
def add (r : Registry) (e : Element) : Registry where
  instances := r.instances.insert e.key ⟨e, r.size⟩
  keyed k i h := by
    rw [Std.ExtTreeMap.getElem?_insert] at h
    split at h
    next heq =>
      cases h
      exact Std.LawfulEqCmp.eq_of_compare heq
    next => exact r.keyed k i h

/-- The instance that a key names; the first request makes it. -/
def get (r : Registry) (k : Key) : Except Fault Interned × Registry :=
  match r.instances[k]? with
  | some i => (.ok i, r)
  | none =>
    match Element.read k with
    | .ok e => (.ok ⟨e, r.size⟩, r.add e)
    | .error fault => (.error fault, r)

/-- The instance that an id names together with the name of its category. -/
def getNamed (r : Registry) (category id : String) : Except Fault Interned × Registry :=
  match Category.read category with
  | .ok c => r.get ⟨c, id⟩
  | .error fault => (.error fault, r)

/-- The instance of the type that declares a member. -/
def owner (r : Registry) (e : Element) : Option Interned × Registry :=
  match e.ownerId? with
  | none => (none, r)
  | some id =>
    let (found, r) := r.get ⟨.type, id⟩
    (found.toOption, r)

/-- Intern elements whose instances nobody asks for. -/
def addAll (r : Registry) (es : List Element) : Registry :=
  es.foldl (fun r e => (r.get e.key).2) r

theorem read_of_instance {r : Registry} {k : Key} {i : Interned} (h : r.instances[k]? = some i) :
    Element.read k = .ok i.element := by
  have hk := r.keyed k i h
  subst hk
  simp [Element.read]

/-- The registry only saves work: the element is the one that the key names by itself. -/
theorem element_get (r : Registry) (k : Key) :
    (r.get k).1.map Interned.element = Element.read k := by
  unfold get
  split
  next i h => rw [read_of_instance h]; rfl
  next => split <;> simp_all [Except.map]

end Registry

/-- A computation that asks a registry for instances on its way. -/
abbrev Asking := StateM Registry

namespace Asking

/-- Ask for the instance that a key names. -/
def get (k : Key) : Asking (Except Fault Interned) := fun r => r.get k

/-- Ask for the instance of the type that declares a member. -/
def owner (e : Element) : Asking (Option Interned) := fun r => r.owner e

end Asking
end CodeAtlas
