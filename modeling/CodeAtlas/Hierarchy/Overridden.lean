import CodeAtlas.Hierarchy.View

/-!
# Overridden methods

A method overrides, in every proper supertype of its type, the first declared method of the same
name that is neither static nor an initializer. Parameters are not compared. Supertypes are
searched breadth first, each one once, so hierarchies with cycles do no harm.

## Main definitions

* `explore`: breadth-first search.
* `View.ancestors`: the supertypes of a type at any distance.
* `View.overridden`: the methods that a method overrides.
* `exploreIn`, `View.overriddenIn`: the same, asking a registry on the way.
-/
namespace CodeAtlas

/-- The elements of a list that have not been seen, each once, and all that have been seen then. -/
def newcomers (seen : ElementSet) : List Element → List Element × ElementSet
  | [] => ([], seen)
  | t :: rest =>
    if t ∈ seen then newcomers seen rest
    else
      let (fresh, seen) := newcomers (seen.insert t) rest
      (t :: fresh, seen)

/-- Breadth-first search from the elements of a queue, all of which have been seen. The first
argument bounds the number of elements that are visited. -/
def explore (next : Element → List Element) : Nat → ElementSet → List Element → List Element
  | 0, _, _ => []
  | _ + 1, _, [] => []
  | n + 1, seen, t :: queue =>
    let (fresh, seen) := newcomers seen (next t)
    t :: explore next n seen (queue ++ fresh)

namespace View

/-- The supertypes of a type at any distance, without the type itself. -/
def ancestors (v : View) (t : Element) : List Element :=
  (explore v.supertypes (v.extent + 1) (.ofList [t]) [t]).tail

/-- Whether a declared method may be overridden under a name. -/
def isCandidate (v : View) (name : String) (m : Element) : Bool :=
  m.methodName? = some name && !m.isInitializer && !(v.store.modifiers m).isStatic

/-- The first method of a type that may be overridden under a name. -/
def firstCandidate? (v : View) (name : String) (t : Element) : Option Element :=
  (v.range t .declaresMethod).toList.find? (v.isCandidate name)

/-- The name and the type of a method that can override others: any but one that counts as
abstract. -/
def overrider? (v : View) (m : Element) : Option (String × Element) := do
  let name ← m.methodName?
  if v.store.isAbstractMethod m then none
  let owner ← m.owner?
  return (name, owner)

/-- The methods that a method overrides. -/
def overridden (v : View) (m : Element) : ElementSet :=
  match v.overrider? m with
  | some (name, owner) => .ofList ((v.ancestors owner).filterMap (v.firstCandidate? name))
  | none => ∅

end View

/-! ## With a registry -/

/-- Breadth-first search that asks a registry what is met at an element, and what comes next. It
lists what is met. -/
def exploreIn (visit : Element → Asking (List α × List Element)) :
    Nat → ElementSet → List Element → Asking (List α)
  | 0, _, _ => return []
  | _ + 1, _, [] => return []
  | n + 1, seen, t :: queue => do
    let (met, next) ← visit t
    let (fresh, seen) := newcomers seen next
    let rest ← exploreIn visit n seen (queue ++ fresh)
    return met ++ rest

namespace View

/-- Look for the direct supertypes of a type. -/
def supertypesIn (v : View) (t : Element) : Asking (List Element) := do
  let found ← Relation.supertypes.mapM (v.findings t)
  return found.flatten.map Finding.element

/-- Look for the first method of a type that may be overridden under a name, and then for the direct
supertypes of the type. -/
def visitIn (v : View) (name : String) (t : Element) : Asking (List Finding × List Element) := do
  let methods ← v.findings t .declaresMethod
  let supertypes ← v.supertypesIn t
  return ((methods.find? fun f => v.isCandidate name f.element).toList, supertypes)

/-- Look for the methods that a method overrides. The search sets out from the supertypes of the type
that declares the method. -/
def overriddenIn (v : View) (m : Element) : Asking (List Finding) :=
  match m.methodName? with
  | none => return []
  | some name =>
    if v.store.isAbstractMethod m then return []
    else do
      match ← Asking.owner m with
      | none => return []
      | some owner =>
        let supertypes ← v.supertypesIn owner.element
        let (fresh, seen) := newcomers (.ofList [owner.element]) supertypes
        let found ← exploreIn (v.visitIn name) v.extent seen fresh
        return inOrder Finding.element found

end View
end CodeAtlas
