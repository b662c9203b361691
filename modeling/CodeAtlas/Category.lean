import CodeAtlas.Text.Split
import Std.Data.ExtTreeSet

/-!
# Categories of program elements

A program element is a type (a class or an interface), a method or a field. Types come before
methods and methods before fields wherever elements are listed.

## Main definitions

* `Category`, with its order.
* `Category.name`, `Category.read?`: its written name, which is read in any ASCII case.
-/
namespace CodeAtlas

/-- What kind of program element something is. -/
inductive Category where
  | type
  | method
  | field
deriving DecidableEq

namespace Category

/-- All categories in their order. -/
def all : List Category := [type, method, field]

/-- The written name of a category. -/
def name : Category → String
  | type => "CLASS"
  | method => "METHOD"
  | field => "FIELD"

/-- The category of a name in any ASCII case. -/
def read? (s : String) : Option Category := all.find? fun c => Text.sameIgnoringCase c.name s

/-- The position of a category among all. -/
def rank : Category → Nat
  | type => 0
  | method => 1
  | field => 2

theorem rank_injective {a b : Category} (h : a.rank = b.rank) : a = b := by
  cases a <;> cases b <;> simp_all [rank]

instance : Ord Category := ⟨compareOn rank⟩
instance : Std.TransOrd Category := inferInstanceAs (Std.TransCmp (compareOn rank))
instance : Std.LawfulEqOrd Category where
  compare_self {_} := @Std.ReflCmp.compare_self _ (compareOn rank) _ _
  eq_of_compare h := rank_injective (@Std.LawfulEqCmp.eq_of_compare _ compare _ _ _ h)

end Category
end CodeAtlas
