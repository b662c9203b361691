import CodeAtlas.Proofs.Hierarchy.Exploration

/-!
# Ancestors and overridden methods, as sets

The ancestors of a type are the types that can be reached from it by going to direct supertypes,
without the type itself. The bound of the search is a count of elements that are recorded or listed,
and it never cuts the search short. So what a method overrides depends on four things only: the
direct supertypes of each type, the methods that each type declares, which methods are static, and
whether the method itself counts as abstract.

## Main definitions

* `View.mem_ancestors`, `View.mem_overridden`: membership in the two answers.
* `Store.NarrowsTo`: the same tuples, and perhaps more static elements.
* `Store.NarrowsTo.overridden_eq`: when this makes no difference to what a method overrides.
-/
namespace CodeAtlas

theorem ElementSet.mem_ofList {l : List Element} {e : Element} :
    e ∈ (Std.ExtTreeSet.ofList l : ElementSet) ↔ e ∈ l := by simp

/-- Only methods have the name of one. -/
theorem Element.isMethod_of_methodName? {e : Element} {name : String}
    (h : e.methodName? = some name) : e.isMethod = true := by
  cases hshape : e.shape <;> simp_all [methodName?, isMethod, category, Shape.category]

/-! ## What can be a supertype -/

/-- The elements that a library names as supertypes of some type. -/
def Library.superiors : Library → List Element
  | absent => []
  | catalogue c => c.table.toList.flatMap fun (_, d) =>
      (d.superclass.toList ++ d.interfaces).filterMap Element.read?

theorem Library.length_superiors_le (l : Library) : l.superiors.length ≤ l.extent := by
  cases l with
  | absent => simp [superiors, extent]
  | catalogue c =>
    simp only [superiors, extent, Std.ExtTreeMap.foldr_eq_foldr_toList]
    induction c.table.toList with
    | nil => simp
    | cons entry rest ih =>
      have hone := List.length_filterMap_le Element.read?
        (entry.2.superclass.toList ++ entry.2.interfaces)
      simp only [List.length_append] at hone
      simp only [List.flatMap_cons, List.length_append, List.foldr_cons]
      omega

theorem Declaration.mem_of_mem_related {d : Declaration} {r : Relation} {k : Key}
    (hr : r ∈ Relation.supertypes) (hk : k ∈ d.related r) :
    k ∈ d.superclass.toList ++ d.interfaces := by
  simp only [Relation.supertypes, List.mem_cons, List.not_mem_nil, or_false] at hr
  rw [List.mem_append]
  rcases hr with rfl | rfl | rfl
  · exact .inl hk
  · by_cases hi : d.isInterface <;> simp_all [related]
  · by_cases hi : d.isInterface <;> simp_all [related]

theorem Library.mem_superiors {l : Library} {c e : Element} {r : Relation}
    (hr : r ∈ Relation.supertypes) (h : e ∈ l.range c r) : e ∈ l.superiors := by
  cases l with
  | absent => simp [range, declaration?] at h
  | catalogue table =>
    simp only [range, declaration?] at h
    split at h
    next d hd =>
      have hentry : (c.key, d) ∈ table.table.toList :=
        Std.ExtTreeMap.mem_toList_iff_getElem?_eq_some.mpr hd
      obtain ⟨k, hk, hread⟩ := List.mem_filterMap.mp (ElementSet.mem_ofList.mp h)
      exact List.mem_flatMap.mpr ⟨(c.key, d), hentry,
        List.mem_filterMap.mpr ⟨k, Declaration.mem_of_mem_related hr hk, hread⟩⟩
    next => simp at h

namespace View

variable {v w : View} {t a m e : Element}

/-- Everything that is recorded, or named as a supertype by the library. -/
def superiors (v : View) : List Element := v.store.elements ++ v.library.superiors

theorem length_superiors_le (v : View) : v.superiors.length ≤ v.extent := by
  have hlib := v.library.length_superiors_le
  simp only [superiors, extent, List.length_append, Store.elements, Store.size,
    Std.ExtTreeMap.length_keys]
  omega

theorem mem_superiors (h : a ∈ v.supertypes t) : a ∈ v.superiors := by
  obtain ⟨r, hr, ha⟩ := List.mem_flatMap.mp h
  rw [Std.ExtTreeSet.mem_toList] at ha
  rw [superiors, List.mem_append]
  unfold range at ha
  split at ha
  · exact .inr (Library.mem_superiors hr ha)
  · exact .inl (Store.mem_elements.mpr (Store.known_of_mem_range ha))

/-! ## Membership -/

/-- **The ancestors of a type are the types that can be reached from it by going to direct
supertypes**, without the type itself. -/
theorem mem_ancestors :
    a ∈ v.ancestors t ↔ a ≠ t ∧ Relation.TransGen (Leads v.supertypes) t a :=
  mem_tail_explore (fun _ _ => mem_superiors) (Nat.succ_le_succ v.length_superiors_le)

theorem overrider?_eq_some {name : String} :
    v.overrider? m = some (name, a) ↔
      m.methodName? = some name ∧ v.store.isAbstractMethod m = false ∧ m.owner? = some a := by
  unfold overrider?
  cases hn : m.methodName? with
  | none => simp
  | some n =>
    cases ha : v.store.isAbstractMethod m with
    | true => simp
    | false => cases ho : m.owner? <;> simp

theorem overrider?_of_isAbstractMethod (h : v.store.isAbstractMethod m = true) :
    v.overrider? m = none := by
  rw [Option.eq_none_iff_forall_ne_some]
  rintro ⟨name, owner⟩ ho
  simp [h, overrider?_eq_some] at ho

/-- A method overrides the first candidate of each ancestor of its type. -/
theorem mem_overridden :
    e ∈ v.overridden m ↔ ∃ name owner, v.overrider? m = some (name, owner) ∧
      ∃ t ∈ v.ancestors owner, v.firstCandidate? name t = some e := by
  unfold overridden
  cases ho : v.overrider? m with
  | none => simp
  | some p =>
    obtain ⟨name, owner⟩ := p
    simp [Std.ExtTreeSet.mem_ofList]

/-- What is overridden is a candidate under the name of the method. -/
theorem isCandidate_of_mem_overridden (h : e ∈ v.overridden m) :
    ∃ name, v.isCandidate name e = true := by
  obtain ⟨name, owner, -, t, -, hfirst⟩ := mem_overridden.mp h
  exact ⟨name, List.find?_some hfirst⟩

theorem isMethod_of_mem_overridden (h : e ∈ v.overridden m) : e.isMethod = true := by
  obtain ⟨name, hcand⟩ := isCandidate_of_mem_overridden h
  simp only [isCandidate, Bool.and_eq_true, decide_eq_true_eq] at hcand
  exact Element.isMethod_of_methodName? hcand.1.1

/-- Only methods override anything. -/
theorem isMethod_of_overrides (h : e ∈ v.overridden m) : m.isMethod = true := by
  obtain ⟨name, owner, hover, -⟩ := mem_overridden.mp h
  exact Element.isMethod_of_methodName? (overrider?_eq_some.mp hover).1

/-- What is overridden is not static by its recorded modifiers. -/
theorem isStatic_of_mem_overridden (h : e ∈ v.overridden m) :
    (v.store.modifiers e).isStatic = false := by
  obtain ⟨name, hcand⟩ := isCandidate_of_mem_overridden h
  simp only [isCandidate, Bool.and_eq_true, Bool.not_eq_true'] at hcand
  exact hcand.2

theorem overridden_eq_empty (h : v.store.isAbstractMethod m = true) : v.overridden m = ∅ := by
  simp [overridden, overrider?_of_isAbstractMethod h]

/-- What overrides something does not count as abstract. -/
theorem isAbstractMethod_of_mem_overridden (h : e ∈ v.overridden m) :
    v.store.isAbstractMethod m = false := by
  by_contra hab
  rw [overridden_eq_empty (by simpa using hab)] at h
  simp at h

end View

/-! ## Stores that tell the same about hierarchies -/

/-- Two stores record the same tuples, computed relations aside. -/
def Store.SameTuples (s t : Store) : Prop :=
  ∀ (d : Element) (r : Relation), r.isComputed = false → s.range d r = t.range d r

namespace Store.SameTuples

variable {s t : Store} {scope : Scope}

theorem view_range_eq (h : s.SameTuples t) (d : Element) {r : Relation} (hr : r.isComputed = false) :
    View.range ⟨scope, s⟩ d r = View.range ⟨scope, t⟩ d r := by
  by_cases hf : r.isDeclarative && d.isType && !scope.project.owns d <;>
    simp [View.range, View.isForeign, hf, h d r hr]

theorem supertypes_eq (h : s.SameTuples t) :
    View.supertypes ⟨scope, s⟩ = View.supertypes ⟨scope, t⟩ := by
  funext d
  simp only [View.supertypes, Relation.supertypes, List.flatMap_cons, List.flatMap_nil,
    h.view_range_eq d (r := .extendsClass) rfl, h.view_range_eq d (r := .implementsInterface) rfl,
    h.view_range_eq d (r := .extendsInterfaces) rfl]

end Store.SameTuples

/-- The second store records the same tuples, and what is static in the first is so in it as well. -/
structure Store.NarrowsTo (s t : Store) : Prop where
  tuples : t.SameTuples s
  static : ∀ {e : Element}, (s.modifiers e).isStatic = true → (t.modifiers e).isStatic = true

namespace Store.NarrowsTo

variable {s t u : Store} {scope : Scope} {name : String} {a m : Element}

theorem refl (s : Store) : s.NarrowsTo s := ⟨fun _ _ _ => rfl, id⟩

theorem trans (h : s.NarrowsTo t) (h' : t.NarrowsTo u) : s.NarrowsTo u where
  tuples d r hr := (h'.tuples d r hr).trans (h.tuples d r hr)
  static he := h'.static (h.static he)

/-- Candidates can only drop out, so the first one stays the first unless it drops out itself. -/
theorem firstCandidate?_eq (h : s.NarrowsTo t)
    (hfirst : ∀ x, View.firstCandidate? ⟨scope, s⟩ name a = some x →
      (t.modifiers x).isStatic = false) :
    View.firstCandidate? ⟨scope, t⟩ name a = View.firstCandidate? ⟨scope, s⟩ name a := by
  have hcand : ∀ x, View.isCandidate ⟨scope, t⟩ name x = true →
      View.isCandidate ⟨scope, s⟩ name x = true := by
    intro x hx
    have hstatic : (s.modifiers x).isStatic = true → (t.modifiers x).isStatic = true := h.static
    simp only [View.isCandidate, Bool.and_eq_true, Bool.not_eq_true'] at hx ⊢
    exact ⟨hx.1, Bool.eq_false_iff.mpr (mt hstatic (Bool.eq_false_iff.mp hx.2))⟩
  unfold View.firstCandidate? at hfirst ⊢
  rw [h.tuples.view_range_eq a (r := .declaresMethod) rfl]
  cases hs : (View.range ⟨scope, s⟩ a .declaresMethod).toList.find?
      (View.isCandidate ⟨scope, s⟩ name) with
  | none =>
    rw [List.find?_eq_none] at hs ⊢
    exact fun x hx => mt (hcand x) (hs x hx)
  | some x =>
    have hplain := hfirst x hs
    obtain ⟨hx, before, after, hlist, hbefore⟩ := List.find?_eq_some_iff_append.mp hs
    refine List.find?_eq_some_iff_append.mpr ⟨?_, before, after, hlist, fun b hb => ?_⟩
    · simp only [View.isCandidate, Bool.and_eq_true, Bool.not_eq_true'] at hx ⊢
      exact ⟨hx.1, hplain⟩
    · have hno := hbefore b hb
      simp only [Bool.not_eq_true'] at hno ⊢
      exact Bool.eq_false_iff.mpr (mt (hcand b) (Bool.eq_false_iff.mp hno))

/-- **What a method overrides stays the same,** if the method counts as abstract as before and none of
what it overrides has become static. -/
theorem overridden_eq (h : s.NarrowsTo t) (habs : t.isAbstractMethod m = s.isAbstractMethod m)
    (hplain : ∀ x ∈ View.overridden ⟨scope, s⟩ m, (t.modifiers x).isStatic = false) :
    View.overridden ⟨scope, t⟩ m = View.overridden ⟨scope, s⟩ m := by
  have hover : View.overrider? ⟨scope, t⟩ m = View.overrider? ⟨scope, s⟩ m := by
    simp only [View.overrider?, habs]
  have hsuper : View.supertypes ⟨scope, t⟩ = View.supertypes ⟨scope, s⟩ := h.tuples.supertypes_eq
  -- the same ancestors, and the same candidate of each
  have hcand : ∀ name owner, View.overrider? ⟨scope, s⟩ m = some (name, owner) →
      ∀ a ∈ View.ancestors ⟨scope, s⟩ owner,
        View.firstCandidate? ⟨scope, t⟩ name a = View.firstCandidate? ⟨scope, s⟩ name a :=
    fun name owner ho a ha => h.firstCandidate?_eq fun x hx =>
      hplain x (View.mem_overridden.mpr ⟨name, owner, ho, a, ha, hx⟩)
  ext x
  rw [View.mem_overridden, View.mem_overridden, hover]
  refine exists_congr fun name => exists_congr fun owner => and_congr_right fun ho => ?_
  refine exists_congr fun a => ?_
  rw [View.mem_ancestors, hsuper, ← View.mem_ancestors (v := ⟨scope, s⟩)]
  exact and_congr_right fun ha => by rw [hcand name owner ho a ha]

end Store.NarrowsTo
end CodeAtlas
