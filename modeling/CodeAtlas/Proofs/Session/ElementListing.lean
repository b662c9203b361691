import CodeAtlas.Proofs.Naming
import CodeAtlas.Query
import CodeAtlas.Session.Intake
import Mathlib.Control.Monad.Basic
import Mathlib.Data.List.Basic
import Mathlib.Data.String.Basic

/-!
# The listings of known elements

All known elements are listed in the order of their keys, each once. Since the order looks at the
category first, the listing falls into three parts, which are the listings of the categories. A
listing of the project is the listing without the entries that are not marked.

## Main definitions

* `Element.Before`: the order of listings, by category and then by id.
* `Store.elements_eq_append`: the known elements by category.
* `Session.listing_project`: the listing of the project as a part of the whole.
* `Session.listings_partition`: what the responses say.
-/
namespace CodeAtlas

/-! ## The order of elements -/

/-- The category of one element comes before that of another, or both have the same category and the
id of the one comes before that of the other. -/
def Element.Before (x y : Element) : Prop :=
  x.category.rank < y.category.rank ∨ x.category = y.category ∧ x.id < y.id

theorem Element.compare_eq_lt {x y : Element} : compare x y = .lt ↔ x.Before y := by
  have hkeys : compare x y
      = (compare x.category.rank y.category.rank).then (compare x.id y.id) := rfl
  have hrank : x.category.rank = y.category.rank ↔ x.category = y.category :=
    ⟨Category.rank_injective, congrArg _⟩
  rw [hkeys, Ordering.then_eq_lt, Nat.compare_eq_lt, Nat.compare_eq_eq, hrank,
    compare_lt_iff_lt (a := x.id)]
  rfl

namespace Store

theorem pairwise_elements (s : Store) : s.elements.Pairwise Element.Before := by
  have hkeys : s.elements.Pairwise fun x y => compare x y = .lt := s.records.ordered_keys
  exact hkeys.imp Element.compare_eq_lt.mp

theorem count_elements (s : Store) (e : Element) :
    s.elements.count e = if s.contains e then 1 else 0 := by
  have hnodup : s.elements.Nodup := s.records.nodup_keys
  simp only [hnodup.count, mem_elements]

end Store

/-- Elements in order of their categories are the types among them, then the methods, then the
fields. -/
theorem Element.filter_category_append {es : List Element}
    (h : es.Pairwise fun x y => x.category.rank ≤ y.category.rank) :
    es.filter (·.category = .type) ++ es.filter (·.category = .method)
      ++ es.filter (·.category = .field) = es := by
  -- no element of a category comes after one of a later category
  have hnone : ∀ {c : Category} {es : List Element},
      (∀ y ∈ es, c.rank < y.category.rank) → es.filter (·.category = c) = [] := by
    intro c es hlater
    rw [List.filter_eq_nil_iff]
    intro y hy hc
    have hlt := hlater y hy
    rw [of_decide_eq_true hc] at hlt
    exact Nat.lt_irrefl _ hlt
  induction es with
  | nil => rfl
  | cons x es ih =>
    obtain ⟨hx, hes⟩ := List.pairwise_cons.mp h
    have ih := ih hes
    cases hc : x.category with
    | type => simpa [hc] using ih
    | method =>
      have htypes : es.filter (·.category = .type) = [] :=
        hnone fun y hy => Nat.lt_of_lt_of_le (by simp [hc, Category.rank]) (hx y hy)
      simpa [hc, htypes] using ih
    | field =>
      have htypes : es.filter (·.category = .type) = [] :=
        hnone fun y hy => Nat.lt_of_lt_of_le (by simp [hc, Category.rank]) (hx y hy)
      have hmethods : es.filter (·.category = .method) = [] :=
        hnone fun y hy => Nat.lt_of_lt_of_le (by simp [hc, Category.rank]) (hx y hy)
      simpa [hc, htypes, hmethods] using ih

theorem Store.elements_eq_append (s : Store) :
    s.elements.filter (·.category = .type) ++ s.elements.filter (·.category = .method)
      ++ s.elements.filter (·.category = .field) = s.elements := by
  refine Element.filter_category_append (s.pairwise_elements.imp ?_)
  intro x y h
  cases h with
  | inl h => exact Nat.le_of_lt h
  | inr h => exact Nat.le_of_eq (congrArg _ h.1)

/-! ## Listings -/

namespace Session

/-- The listing of the project is what is marked in the listing. -/
theorem listing_project (s : Session) (category : Option Category) :
    s.listing category true = (s.listing category false).filter (·.inProject) := by
  have hmark : (fun x : Entry => x.inProject) ∘ s.entry = s.owns := rfl
  rw [listing, listing, List.filter_map, List.filter_filter, hmark]
  refine congrArg (List.map s.entry) (List.filter_congr ?_)
  intro e _
  simp [Bool.and_comm]

theorem listing_none (s : Session) : s.listing none false = s.store.elements.map s.entry := by
  simp [listing]

theorem listing_some (s : Session) (c : Category) :
    s.listing (some c) false = (s.store.elements.filter (·.category = c)).map s.entry := by
  simp [listing]

theorem category_of_mem_listing {s : Session} {c : Category} {x : Entry}
    (h : x ∈ s.listing (some c) false) : x.element.category = c := by
  rw [listing_some, List.mem_map] at h
  obtain ⟨e, he, rfl⟩ := h
  exact of_decide_eq_true (List.mem_filter.mp he).2

theorem listing_eq_append (s : Session) :
    s.listing (some .type) false ++ s.listing (some .method) false ++ s.listing (some .field) false
      = s.listing none false := by
  rw [listing_some, listing_some, listing_some, ← List.map_append, ← List.map_append,
    s.store.elements_eq_append, listing_none]

theorem element_listing (s : Session) :
    (s.listing none false).map Entry.element = s.store.elements := by
  have hentry : Entry.element ∘ s.entry = id := rfl
  rw [listing_none, List.map_map, hentry, List.map_id]

theorem inProject_of_mem_listing {s : Session} {category : Option Category} {x : Entry}
    (h : x ∈ s.listing category false) :
    x.inProject = true ↔ x.element.package ∈ s.project.names := by
  obtain ⟨e, -, rfl⟩ := List.mem_map.mp h
  exact Iff.rfl

/-! ## Responses -/

theorem answer_elements_of_name (s : Session) {name : String} {c : Category}
    (h : name.toUpper = c.name) (inProject : Bool) :
    s.answer (.elements (some name) inProject)
      = .ok (.elements s.snapshot (s.listing (some c) inProject)) := by
  have hread : Category.read name = .ok c := Category.read_eq_ok_iff.mpr h
  have hsome : (some name).mapM Category.read = .ok (some c) := by
    rw [Option.mapM_some, hread]
    rfl
  rw [answer, hsome]
  rfl

/-- A listing is answered for all elements or for a category that is read from its name. -/
theorem listing_of_answer {s : Session} {name : Option String} {inProject : Bool} {r : Response}
    (h : s.answer (.elements name inProject) = .ok r) :
    ∃ category, (∀ inProject, s.answer (.elements name inProject)
        = .ok (.elements s.snapshot (s.listing category inProject))) ∧
      r = .elements s.snapshot (s.listing category inProject) := by
  have hanswer : ∀ category, name.mapM Category.read = .ok category → ∀ inProject,
      s.answer (.elements name inProject)
        = .ok (.elements s.snapshot (s.listing category inProject)) := by
    intro category hread inProject
    rw [answer, hread]
    rfl
  cases hread : name.mapM Category.read with
  | error fault =>
    rw [answer, hread] at h
    cases h
  | ok category =>
    have hall := hanswer category hread
    rw [hall inProject] at h
    cases h
    exact ⟨category, hall, rfl⟩

/-- **The listings of elements are parts of one list in order.** All known elements are listed once
each, in strict order of their categories and then of their ids. A category that is named in any case
is answered with its part of that list, and the parts of the three categories make up the whole, one
after the other. For the project just the marked entries of a listing are listed, and marked are the
elements whose packages are registered. The count in a response is the number of its entries. -/
theorem listings_partition (s : Session) :
    (∃ (all : List Entry) (part : Category → List Entry),
      s.answer (.elements none false) = .ok (.elements s.snapshot all) ∧
      (∀ e : Element, (all.map Entry.element).count e = if s.store.contains e then 1 else 0) ∧
      (all.map Entry.element).Pairwise Element.Before ∧
      (∀ (c : Category) (name : String), name.toUpper = c.name →
        s.answer (.elements (some name) false) = .ok (.elements s.snapshot (part c)) ∧
        ∀ x ∈ part c, x.element.category = c) ∧
      all = part .type ++ part .method ++ part .field) ∧
    (∀ (name : Option String) (entries : List Entry),
      s.answer (.elements name false) = .ok (.elements s.snapshot entries) →
      s.answer (.elements name true)
          = .ok (.elements s.snapshot (entries.filter (·.inProject))) ∧
      ∀ x ∈ entries, x.inProject = true ↔ x.element.package ∈ s.project.names) ∧
    ∀ (name : Option String) (inProject : Bool) (r : Response),
      s.answer (.elements name inProject) = .ok r →
      ∃ entries : List Entry, r = .elements s.snapshot entries ∧
        r.members.lookup "count" = some (.nat entries.length) ∧
        r.members.lookup "elements" = some (.array (entries.map Entry.json)) := by
  refine ⟨⟨s.listing none false, fun c => s.listing (some c) false, rfl, ?count, ?order, ?parts,
    s.listing_eq_append.symm⟩, ?project, ?length⟩
  case count =>
    intro e
    rw [s.element_listing, s.store.count_elements]
  case order =>
    rw [s.element_listing]
    exact s.store.pairwise_elements
  case parts =>
    intro c name hname
    refine ⟨s.answer_elements_of_name hname false, ?_⟩
    intro x hx
    exact category_of_mem_listing hx
  case project =>
    intro name entries hentries
    obtain ⟨category, hanswer, hr⟩ := listing_of_answer hentries
    cases hr
    refine ⟨?_, fun x hx => inProject_of_mem_listing hx⟩
    rw [hanswer true, s.listing_project]
  case length =>
    intro name inProject r hr
    obtain ⟨category, -, rfl⟩ := listing_of_answer hr
    exact ⟨_, rfl, rfl, rfl⟩

/-! ## A fact base with two packages -/

/-- A session that knows a class of the project with a method and a field, and its superclass, which
is not of the project. -/
def listedSession : Session :=
  ((create {} .absent).ingest {
    path := "p/C.java"
    package := some "p"
    elements := [⟨.field, "p.C.size", {}⟩]
    relations := [⟨⟨.type, "p.C"⟩, .extendsClass, ⟨.type, "lib.A"⟩, true⟩,
      ⟨⟨.type, "p.C"⟩, .declaresMethod, ⟨.method, "p.C.run()"⟩, true⟩] }).2

/-- The ids of the elements that a response lists, with their marks. -/
def listedIds : Response → List (String × Bool)
  | .elements _ entries => entries.map fun x => (x.element.id, x.inProject)
  | _ => []

/-- The names of the categories are written in three ways. -/
theorem listings_partition_named :
    (listedSession.answer (.elements none false)).map listedIds
        = .ok [("lib.A", false), ("p.C", true), ("p.C.run()", true), ("p.C.size", true)] ∧
      ∃ types methods fields : List Entry,
        listedSession.answer (.elements (some "Class") false)
          = .ok (.elements listedSession.snapshot types) ∧
        listedSession.answer (.elements (some "mEthod") false)
          = .ok (.elements listedSession.snapshot methods) ∧
        listedSession.answer (.elements (some "field") false)
          = .ok (.elements listedSession.snapshot fields) ∧
        listedSession.answer (.elements none false)
          = .ok (.elements listedSession.snapshot (types ++ methods ++ fields)) ∧
        listedSession.answer (.elements (some "Class") true)
          = .ok (.elements listedSession.snapshot (types.filter (·.inProject))) := by
  obtain ⟨⟨all, part, hall, -, -, hpart, rfl⟩, hproject, -⟩ := listings_partition listedSession
  have htypes := (hpart .type "Class" (by decide +kernel)).1
  have hmethods := (hpart .method "mEthod" (by decide +kernel)).1
  have hfields := (hpart .field "field" (by decide +kernel)).1
  refine ⟨by decide +kernel, part .type, part .method, part .field, htypes, hmethods, hfields,
    hall, (hproject _ _ htypes).1⟩

end Session
end CodeAtlas
