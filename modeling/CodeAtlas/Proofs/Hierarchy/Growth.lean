import CodeAtlas.Proofs.Hierarchy.Step

/-!
# What the analysis keeps

Taking an element adds to a store without taking anything from it. Tuples of other relations stay
as they are, overrides are never taken back, and the only modifiers that change are those of methods
outside the project that are found to be overridden: they become what the library declares. An
element that was static stays static, since no static element is found to be overridden, and one
that becomes static is declared so by the library. All this holds of any number of elements as well.

## Main definitions

* `Store.GrowsTo`: what the analysis keeps of a store.
* `Store.GrowsTo.overridden_eq`: what a method overrides in a store that has grown.
* `Analysis.growsTo_process`: taking an element keeps it.
-/
namespace CodeAtlas

/-- The first store may have become the second by elements being taken. -/
structure Store.GrowsTo (scope : Scope) (s t : Store) : Prop extends s.NarrowsTo t where
  overrides : ∀ {d x : Element}, x ∈ s.range d .overrides → x ∈ t.range d .overrides
  contains : ∀ {e : Element}, s.contains e = true → t.contains e = true
  /-- Elements of the project keep their modifiers. -/
  owned : ∀ {e : Element}, scope.project.owns e = true → t.modifiers e = s.modifiers e
  /-- So do elements that are not found to be overridden. -/
  unmatched : ∀ {e : Element}, (∀ d, e ∉ t.range d .overrides) → t.modifiers e = s.modifiers e
  /-- Elements outside the project that are found to be overridden have those of the library. -/
  matched : ∀ {d e : Element}, scope.project.owns e = false →
    (∀ d, e ∈ s.range d .overrides → s.modifiers e = scope.library.inferred e) →
    e ∈ t.range d .overrides → t.modifiers e = scope.library.inferred e
  /-- What becomes static is declared so by the library. -/
  declared : ∀ {e : Element}, (t.modifiers e).isStatic = true →
    (s.modifiers e).isStatic = true ∨ scope.project.owns e = false ∧ scope.library.DeclaresStatic e

namespace Store.GrowsTo

variable {scope : Scope} {s t u : Store} {m : Element}

theorem refl (s : Store) : s.GrowsTo scope s :=
  ⟨.refl s, id, id, fun _ => rfl, fun _ => rfl, fun _ h hx => h _ hx, .inl⟩

theorem trans (h : s.GrowsTo scope t) (h' : t.GrowsTo scope u) : s.GrowsTo scope u where
  toNarrowsTo := h.toNarrowsTo.trans h'.toNarrowsTo
  overrides hx := h'.overrides (h.overrides hx)
  contains he := h'.contains (h.contains he)
  owned he := (h'.owned he).trans (h.owned he)
  unmatched he := (h'.unmatched he).trans (h.unmatched fun d hd => he d (h'.overrides hd))
  matched hown hs he := h'.matched hown (fun _ hd => h.matched hown hs hd) he
  declared he := (h'.declared he).elim h.declared .inr

/-- The status is of no consequence. -/
theorem withStatus (h : s.GrowsTo scope t) (status : Status) :
    s.GrowsTo scope (t.withStatus status) :=
  ⟨⟨h.tuples, h.static⟩, h.overrides, h.contains, h.owned, h.unmatched, h.matched, h.declared⟩

/-- **What a method overrides stays the same,** if the method counts as abstract as before and the
library declares none of what it overrides static. -/
theorem overridden_eq (h : s.GrowsTo scope t)
    (habs : t.isAbstractMethod m = s.isAbstractMethod m)
    (hlibrary : ∀ x ∈ View.overridden ⟨scope, s⟩ m, scope.project.owns x = false →
      ¬ scope.library.DeclaresStatic x) :
    View.overridden ⟨scope, t⟩ m = View.overridden ⟨scope, s⟩ m := by
  refine h.toNarrowsTo.overridden_eq habs fun x hx => ?_
  rw [Bool.eq_false_iff]
  intro hstatic
  rcases h.declared hstatic with hold | ⟨hown, hdeclared⟩
  · simp [View.isStatic_of_mem_overridden hx] at hold
  · exact hlibrary x hx hown hdeclared

/-- At no point is an element taken for abstract that is so neither at the start nor at the end, and
the other way round. -/
theorem isAbstractMethod_eq (h : s.GrowsTo scope t) (h' : t.GrowsTo scope u)
    (hempty : ∀ d, s.range d .overrides = ∅)
    (habs : scope.project.owns m = false → u.isAbstractMethod m = s.isAbstractMethod m) :
    t.isAbstractMethod m = s.isAbstractMethod m := by
  have hcongr : ∀ {p q : Store}, p.modifiers m = q.modifiers m →
      p.isAbstractMethod m = q.isAbstractMethod m := fun hmods => by
    simp only [isAbstractMethod, hmods]
  cases hown : scope.project.owns m with
  | true => exact hcongr (h.owned hown)
  | false =>
    by_cases hd : ∃ d, m ∈ t.range d .overrides
    · -- the modifiers are final by now
      obtain ⟨d, hd⟩ := hd
      have hnone : ∀ d, m ∈ s.range d .overrides → s.modifiers m = scope.library.inferred m :=
        fun d hd => by simp [hempty] at hd
      have hturn := h.matched hown hnone hd
      have hend := (h.trans h').matched hown hnone (h'.overrides hd)
      rw [hcongr (hturn.trans hend.symm), habs hown]
    · exact hcongr (h.unmatched (not_exists.mp hd))

/-- What a method overrides it still overrides later, unless that has been found to be overridden in
the meantime. -/
theorem mem_overridden (h : s.GrowsTo scope t) {m x : Element}
    (habs : s.isAbstractMethod m = t.isAbstractMethod m)
    (hx : x ∈ View.overridden ⟨scope, s⟩ m) (hfree : ∀ d, x ∉ t.range d .overrides) :
    x ∈ View.overridden ⟨scope, t⟩ m := by
  obtain ⟨name, owner, hover, a, ha, hfirst⟩ := View.mem_overridden.mp hx
  have hover' : View.overrider? ⟨scope, t⟩ m = some (name, owner) := by
    rwa [View.overrider?_eq_some, ← habs, ← View.overrider?_eq_some (v := ⟨scope, s⟩)]
  have ha' : a ∈ View.ancestors ⟨scope, t⟩ owner := by
    rwa [View.mem_ancestors, h.tuples.supertypes_eq, ← View.mem_ancestors]
  refine View.mem_overridden.mpr ⟨name, owner, hover', a, ha', ?_⟩
  rw [h.firstCandidate?_eq, hfirst]
  intro y hy
  obtain rfl : x = y := Option.some.inj (hfirst.symm.trans hy)
  rw [h.unmatched hfree]
  exact View.isStatic_of_mem_overridden hx

end Store.GrowsTo

namespace Analysis

variable {scope : Scope} {a : Analysis} {m : Element}

/-- **Taking an element keeps what the analysis keeps.** -/
theorem growsTo_process : a.store.GrowsTo scope (a.process scope m).store where
  tuples _ _ := range_process_of_not_computed
  overrides hx := mem_range_process.mpr (.inr (.inr hx))
  contains he := contains_process.mpr (.inr (.inr he))
  owned hown := by rw [modifiers_process, if_neg (by simp [hown])]
  unmatched he := by
    rw [modifiers_process, if_neg]
    exact fun h => he m (mem_range_process.mpr (.inl ⟨rfl, rfl, h.1⟩))
  matched hown hs he := by
    rw [modifiers_process]
    split
    next => rfl
    next hnew =>
      rcases mem_range_process.mp he with ⟨-, -, he⟩ | ⟨-, hr, -⟩ | he
      · exact absurd ⟨he, hown⟩ hnew
      · simp [Relation.transpose] at hr
      · exact hs _ he
  static he := by
    rw [modifiers_process]
    split
    next hnew =>
      have hold := isStatic_of_mem_overridden hnew.1
      simp [hold] at he
    next => exact he
  declared he := by
    rw [modifiers_process] at he
    split at he
    next hnew => exact .inr ⟨hnew.2, Library.isStatic_inferred.mp he⟩
    next => exact .inl he

end Analysis
end CodeAtlas
