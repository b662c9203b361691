import CodeAtlas.Proofs.Hierarchy.Search
import CodeAtlas.Proofs.Library.Listing

/-!
# Hierarchies with types left out

A library that leaves types out tells of each type what it told before, or nothing. So fewer types
lead to fewer types, and a type that declares nothing any more offers no method: what is overridden
can only become less. A type that is left out may be one of several on the way to another, which is
then still found. Nothing is left when all types are left out, and then it makes no difference
whether there is a catalogue at all.

## Main definitions

* `Library.AtMost`: a library that tells of each type what another one tells, or nothing.
* `Library.AtMost.mem_overridden`: it lets methods override no more.
* `Catalogue.Omits`: a catalogue with some types left out of another one.
* `Catalogue.overridden_shrinks`: what is overridden then.
-/
namespace CodeAtlas

/-! ## Libraries that tell less -/

/-- For each relation of a type, a library tells what another one tells, or nothing. -/
def Library.AtMost (part whole : Library) : Prop :=
  ∀ c : Element, c.isType = true → ∀ r, part.range c r = whole.range c r ∨ part.range c r = ∅

/-- Where there is no catalogue, nothing is told. -/
theorem Library.absent_atMost (l : Library) : absent.AtMost l := fun _ _ _ => .inr rfl

namespace Library.AtMost

variable {part whole : Library} {project : Packages} {store : Store} {name : String}
  {t a m e : Element}

theorem view_range (h : part.AtMost whole) (t : Element) (r : Relation) :
    View.range ⟨⟨project, part⟩, store⟩ t r = View.range ⟨⟨project, whole⟩, store⟩ t r ∨
      View.range ⟨⟨project, part⟩, store⟩ t r = ∅ := by
  -- whether the library is asked depends on the project only
  have hforeign : View.isForeign ⟨⟨project, part⟩, store⟩ t r
      = View.isForeign ⟨⟨project, whole⟩, store⟩ t r := rfl
  by_cases hf : View.isForeign ⟨⟨project, whole⟩, store⟩ t r = true
  · have htype : t.isType = true := by
      simp only [View.isForeign, Bool.and_eq_true] at hf
      exact hf.1.2
    simp only [View.range, hforeign, if_pos hf]
    exact h t htype r
  · left
    simp only [View.range, hforeign, if_neg hf]

theorem mem_supertypes (h : part.AtMost whole)
    (ha : a ∈ View.supertypes ⟨⟨project, part⟩, store⟩ t) :
    a ∈ View.supertypes ⟨⟨project, whole⟩, store⟩ t := by
  obtain ⟨r, hr, hmem⟩ := List.mem_flatMap.mp ha
  refine List.mem_flatMap.mpr ⟨r, hr, ?_⟩
  rcases h.view_range t r with heq | hempty
  · rwa [← heq]
  · rw [hempty] at hmem
    simp at hmem

/-- Any way that is left leads where it led before. -/
theorem mem_ancestors (h : part.AtMost whole)
    (ha : a ∈ View.ancestors ⟨⟨project, part⟩, store⟩ t) :
    a ∈ View.ancestors ⟨⟨project, whole⟩, store⟩ t := by
  have hsteps : Leads (View.supertypes ⟨⟨project, part⟩, store⟩)
      ≤ Leads (View.supertypes ⟨⟨project, whole⟩, store⟩) := fun _ _ => h.mem_supertypes
  rw [View.mem_ancestors] at ha ⊢
  exact ⟨ha.1, Relation.TransGen.mono hsteps t a ha.2⟩

theorem firstCandidate?_eq_some (h : part.AtMost whole)
    (he : View.firstCandidate? ⟨⟨project, part⟩, store⟩ name t = some e) :
    View.firstCandidate? ⟨⟨project, whole⟩, store⟩ name t = some e := by
  rcases h.view_range t .declaresMethod with heq | hempty
  · rwa [View.firstCandidate?, ← heq]
  · rw [View.firstCandidate?, hempty] at he
    cases he

/-- **With a library that tells less, methods override less.** -/
theorem mem_overridden (h : part.AtMost whole)
    (he : e ∈ View.overridden ⟨⟨project, part⟩, store⟩ m) :
    e ∈ View.overridden ⟨⟨project, whole⟩, store⟩ m := by
  -- whether a method can override anything at all is not asked of the library
  have hover : View.overrider? ⟨⟨project, part⟩, store⟩ m
      = View.overrider? ⟨⟨project, whole⟩, store⟩ m := rfl
  obtain ⟨name, owner, hname, t, ht, hfirst⟩ := View.mem_overridden.mp he
  exact View.mem_overridden.mpr
    ⟨name, owner, hover ▸ hname, t, h.mem_ancestors ht, h.firstCandidate?_eq_some hfirst⟩

end Library.AtMost

/-! ## Catalogues with types left out -/

namespace Catalogue

/-- Of the types of a set a catalogue tells nothing, and of any other type what another one tells.
It is left open what becomes of the members. -/
structure Omits (part : Catalogue) (gone : Set String) (whole : Catalogue) : Prop where
  omitted : ∀ id ∈ gone, part.table[(⟨.type, id⟩ : Key)]? = none
  kept : ∀ id ∉ gone, part.table[(⟨.type, id⟩ : Key)]? = whole.table[(⟨.type, id⟩ : Key)]?

variable {part whole : Catalogue} {gone : Set String} {c : Element}

theorem Omits.range_eq (h : part.Omits gone whole) (hc : c.isType = true) (hid : c.id ∉ gone)
    (r : Relation) : (Library.catalogue part).range c r = (Library.catalogue whole).range c r := by
  simp only [Library.range, Library.declaration?, Library.key_of_isType hc, h.kept c.id hid]

theorem Omits.range_eq_empty (h : part.Omits gone whole) (hc : c.isType = true) (hid : c.id ∈ gone)
    (r : Relation) : (Library.catalogue part).range c r = ∅ := by
  simp only [Library.range, Library.declaration?, Library.key_of_isType hc, h.omitted c.id hid]

theorem Omits.atMost (h : part.Omits gone whole) :
    (Library.catalogue part).AtMost (.catalogue whole) := by
  intro c hc r
  by_cases hid : c.id ∈ gone
  · exact .inr (h.range_eq_empty hc hid r)
  · exact .inl (h.range_eq hc hid r)

/-- A catalogue that leaves out all types tells no more than if there were none. -/
theorem Omits.atMost_absent (h : part.Omits gone whole) (hall : ∀ id, id ∈ gone) :
    (Library.catalogue part).AtMost .absent :=
  fun c hc r => .inr (h.range_eq_empty hc (hall c.id) r)

/-- To leave types out of a list is to leave them out of its catalogue. -/
theorem omits_filter [DecidablePred (· ∈ gone)] (types : List TypeEntry) :
    (ofList (types.filter (·.id ∉ gone))).Omits gone (ofList types) := by
  have hlast : ∀ id, (types.filter (·.id ∉ gone)).findRev? (·.id = id)
      = types.findRev? fun t => t.id ∉ gone ∧ t.id = id := by
    intro id
    rw [List.findRev?_eq_find?_reverse, ← List.filter_reverse, List.find?_filter,
      List.findRev?_eq_find?_reverse]
    simp
  constructor
  · intro id hid
    have hnone : types.findRev? (fun t => t.id ∉ gone ∧ t.id = id) = none := by
      rw [findRev?_eq_none]
      grind
    rw [getElem?_type, hlast, hnone]
    rfl
  · intro id hid
    have hsame : (fun t : TypeEntry => decide (t.id ∉ gone ∧ t.id = id))
        = fun t => decide (t.id = id) := by
      funext t
      by_cases ht : t.id = id <;> simp [ht, hid]
    rw [getElem?_type, getElem?_type, hlast, hsame]

/-- **Types that are missing can only shrink what is overridden.** Types with ids of any set are
left out of a list of types, or of a catalogue that has come about in any way. Then, whatever is
recorded and whatever belongs to the project, the search for what an element overrides ends without
a refusal with either catalogue. All that it finds with the smaller one it finds with the larger
one. If all types are left out, it finds what it finds without any catalogue. -/
theorem overridden_shrinks (gone : Set String) [DecidablePred (· ∈ gone)] :
    (∀ types : List TypeEntry, (ofList (types.filter (·.id ∉ gone))).Omits gone (ofList types)) ∧
    ∀ part whole : Catalogue, part.Omits gone whole →
      ∀ (project : Packages) (store : Store) (m : Element),
        View.search ⟨⟨project, .catalogue part⟩, store⟩ m
          = .some (.ok (View.overridden ⟨⟨project, .catalogue part⟩, store⟩ m)) ∧
        View.search ⟨⟨project, .catalogue whole⟩, store⟩ m
          = .some (.ok (View.overridden ⟨⟨project, .catalogue whole⟩, store⟩ m)) ∧
        (∀ e ∈ View.overridden ⟨⟨project, .catalogue part⟩, store⟩ m,
          e ∈ View.overridden ⟨⟨project, .catalogue whole⟩, store⟩ m) ∧
        ((∀ id, id ∈ gone) → View.search ⟨⟨project, .absent⟩, store⟩ m
          = .some (.ok (View.overridden ⟨⟨project, .catalogue part⟩, store⟩ m))) := by
  refine ⟨omits_filter, fun part whole h project store m => ?_⟩
  refine ⟨View.search_eq_overridden _ m, View.search_eq_overridden _ m,
    fun e => h.atMost.mem_overridden, fun hall => ?_⟩
  have hsame : View.overridden ⟨⟨project, .absent⟩, store⟩ m
      = View.overridden ⟨⟨project, .catalogue part⟩, store⟩ m := by
    ext e
    have hiff : e ∈ View.overridden ⟨⟨project, .absent⟩, store⟩ m ↔
        e ∈ View.overridden ⟨⟨project, .catalogue part⟩, store⟩ m :=
      ⟨(Library.absent_atMost _).mem_overridden, (h.atMost_absent hall).mem_overridden⟩
    simpa using hiff
  rw [View.search_eq_overridden, hsame]

/-! ## One of two ways is cut off -/

/-- A superclass with one more behind it, and an interface. Two ways lead to the interface `lib.J`,
one of them through both superclasses. -/
def branchingTypes : List TypeEntry := [
  { id := "lib.A", superclass := some "lib.B", interfaces := ["lib.I"] },
  { id := "lib.B", superclass := some "lib.C", methods := [⟨"lib.B.run()", {}⟩] },
  { id := "lib.C", interfaces := ["lib.J"], methods := [⟨"lib.C.run()", {}⟩] },
  { id := "lib.I", isInterface := true, interfaces := ["lib.J"] },
  { id := "lib.J", isInterface := true, methods := [⟨"lib.J.run()", {}⟩] }]

/-- The types but for those of a set, seen from a class that extends the first of them. -/
def branchingView (gone : Set String) [DecidablePred (· ∈ gone)] : View where
  project := View.cyclicView.project
  library := .catalogue (.ofList (branchingTypes.filter (·.id ∉ gone)))
  store := View.cyclicView.store

/-- With `lib.B` the classes behind it are lost, but not the interface. -/
theorem overridden_shrinks_branching :
    ((branchingView ∅).overridden View.cyclicMethod).toList.map (·.id)
      = ["lib.B.run()", "lib.C.run()", "lib.J.run()"] ∧
    ((branchingView {"lib.B"}).overridden View.cyclicMethod).toList.map (·.id) = ["lib.J.run()"] ∧
    (∀ e ∈ (branchingView {"lib.B"}).overridden View.cyclicMethod,
      e ∈ (branchingView ∅).overridden View.cyclicMethod) ∧
    View.search ⟨⟨View.cyclicView.project, .absent⟩, View.cyclicView.store⟩ View.cyclicMethod
      = .some (.ok ((branchingView Set.univ).overridden View.cyclicMethod)) := by
  obtain ⟨hlist, hshrinks⟩ := overridden_shrinks {"lib.B"}
  obtain ⟨-, -, hsub, -⟩ := hshrinks _ _ (hlist branchingTypes) View.cyclicView.project
    View.cyclicView.store View.cyclicMethod
  obtain ⟨hlist, hshrinks⟩ := overridden_shrinks Set.univ
  obtain ⟨-, -, -, hempty⟩ := hshrinks _ _ (hlist branchingTypes) View.cyclicView.project
    View.cyclicView.store View.cyclicMethod
  exact ⟨by decide +kernel, by decide +kernel, hsub, hempty Set.mem_univ⟩

end Catalogue
end CodeAtlas
