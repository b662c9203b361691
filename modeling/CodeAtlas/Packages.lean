import CodeAtlas.Element.Basic

/-!
# Project packages

The project is the set of elements whose package has been registered. The default package has the
empty name and is registered like any other. A package says nothing about its subpackages.

## Main definitions

* `Packages`, with `Packages.register` and `Packages.toList`.
* `Packages.owns`: whether an element belongs to the project.
-/
namespace CodeAtlas

/-- The packages of a project. -/
structure Packages where
  names : Std.ExtTreeSet String := ∅

namespace Packages

/-- A project of the given packages. -/
def ofList (names : List String) : Packages := ⟨.ofList names⟩

/-- The packages in the order of their names. -/
def toList (p : Packages) : List String := p.names.toList

/-- The number of packages. -/
def size (p : Packages) : Nat := p.names.size

/-- Whether a package is registered. -/
def contains (p : Packages) (name : String) : Bool := p.names.contains name

/-- Register a package, and tell whether it is new. -/
def register (p : Packages) (name : String) : Bool × Packages :=
  (!p.contains name, ⟨p.names.insert name⟩)

/-- Whether an element belongs to the project. -/
def owns (p : Packages) (e : Element) : Bool := p.contains e.package

@[simp] theorem contains_register (p : Packages) (name x : String) :
    (p.register name).2.contains x = (decide (name = x) || p.contains x) := by
  by_cases h : name = x <;> simp [register, contains, h]

end Packages
end CodeAtlas
