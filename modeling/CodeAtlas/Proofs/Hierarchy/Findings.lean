import CodeAtlas.Hierarchy.Worklist
import CodeAtlas.Proofs.Asking

/-!
# What is found with a registry

Hierarchies are searched with a registry at hand, which is asked for the instances of all that the
library names. The elements that are found are those that the view shows by itself, whatever the
registry holds. Of the instances that are found, those of recorded tuples are where the store says,
and the others are instances of the registry that is left.

## Main definitions

* `Finding.Sound`: an instance that is found is where it is said to be.
* `Library.meets_resolve`, `Library.meets_instances`: what declarations give.
* `View.meets_findings`, `View.meets_overriddenIn`: what a view gives.
* `Analysis.process_eq`: what becomes of an analysis when an element is taken.
-/
namespace CodeAtlas

open Asking (Meets)

/-! ## In order -/

section InOrder

variable {α : Type} {element : α → Element} {xs : List α} {x : α}

theorem mem_of_mem_inOrder (h : x ∈ inOrder element xs) : x ∈ xs := by
  obtain ⟨e, -, hx⟩ := List.mem_filterMap.mp h
  exact List.mem_of_find?_eq_some hx

theorem ElementSet.ofList_toList (s : ElementSet) : (.ofList s.toList : ElementSet) = s := by
  ext x
  simp

/-- The elements are those of the list, as a set. -/
theorem map_inOrder : (inOrder element xs).map element
    = (Std.ExtTreeSet.ofList (xs.map element)).toList := by
  rw [inOrder, List.map_filterMap]
  refine Eq.trans (List.filterMap_congr (g := some) fun e he => ?_) List.filterMap_some
  obtain ⟨x, hx, rfl⟩ : ∃ x ∈ xs, element x = e := by simpa using he
  cases hfind : xs.find? (element · = element x) with
  | none =>
    have hnone := List.find?_eq_none.mp hfind x hx
    simp at hnone
  | some y =>
    have hy := List.find?_some hfind
    simpa using hy

end InOrder

/-! ## Declarations -/

namespace Library

variable {l : Library}

theorem meets_resolve (l : Library) (k : Key) (r : Registry) :
    Meets (l.resolve k) r fun found r' => found.map Interned.element = l.element k ∧
      ∀ i, found = .ok i → r'.Holds i := by
  cases l with
  | absent => exact Asking.meets_pure ⟨rfl, by simp⟩
  | catalogue c =>
    refine (Asking.meets_get k r).bind fun found r' _ hfound => Asking.meets_pure ?_
    obtain ⟨helement, hholds⟩ := hfound
    cases found with
    | ok i =>
      have hread : Element.read? k = some i.element := Element.read_eq_ok.mp helement.symm
      refine ⟨by simp [element, hread, Except.map, Except.mapError], ?_⟩
      rintro _ ⟨⟩
      exact hholds i rfl
    | error fault =>
      refine ⟨?_, by simp [Except.mapError]⟩
      cases hread : Element.read? k with
      | some e => simp [Except.map, Element.read, hread] at helement
      | none =>
        simp only [Except.map, Element.read, hread, Except.error.injEq] at helement
        simp [element, hread, helement, Except.map, Except.mapError, Fault.ofDeclaration]

/-- The elements of the keys that name elements. -/
theorem meets_resolveAll (c : Catalogue) (ks : List Key) (r : Registry) :
    Meets ((catalogue c).resolveAll ks) r fun is r' =>
      is.map Interned.element = (Std.ExtTreeSet.ofList (ks.filterMap Element.read?)).toList ∧
        ∀ i ∈ is, r'.Holds i := by
  let R (found : Except Fault Interned) (r : Registry) : Prop := ∀ i, found = .ok i → r.Holds i
  have hstable : ∀ {found r r'}, r'.Extends r → R found r → R found r' :=
    fun hext h i hi => hext.holds (h i hi)
  refine (Asking.meets_mapM (R := R) hstable (catalogue c).meets_resolve ks r).bind
    fun found r' _ hfound => Asking.meets_pure ?_
  obtain ⟨helements, hholds⟩ := hfound
  have hread : ((catalogue c).element · |>.toOption) = Element.read? := by
    funext k
    simp only [element]
    cases Element.read? k <;> rfl
  have hmap : (found.filterMap Except.toOption).map Interned.element = ks.filterMap Element.read? := by
    have htoOption : ∀ x : Except Fault Interned,
        x.toOption.map Interned.element = (x.map Interned.element).toOption := by
      rintro (_ | _) <;> rfl
    have hpulled := congrArg (List.filterMap Except.toOption) helements
    rw [List.filterMap_map, List.filterMap_map] at hpulled
    rw [List.map_filterMap, ← hread]
    simpa only [htoOption, Function.comp_def] using hpulled
  refine ⟨by rw [map_inOrder, hmap], fun i hi => ?_⟩
  obtain ⟨x, hx, hi⟩ := List.mem_filterMap.mp (mem_of_mem_inOrder hi)
  cases x with
  | ok j =>
    obtain rfl : j = i := Option.some.inj hi
    exact hholds _ hx j rfl
  | error => cases hi

/-- The elements that a type is declared to be related to. -/
theorem meets_instances (l : Library) (e : Element) (q : Relation) (r : Registry) :
    Meets (l.instances e q) r fun is r' =>
      is.map Interned.element = (l.range e q).toList ∧ ∀ i ∈ is, r'.Holds i := by
  cases l with
  | absent => exact Asking.meets_pure ⟨rfl, by simp⟩
  | catalogue c =>
    cases hd : c.table[e.key]? with
    | some d =>
      have hmem : e.key ∈ c.table := Std.ExtTreeMap.mem_iff_isSome_getElem?.mpr (by simp [hd])
      have hrange : (catalogue c).range e q = .ofList ((d.related q).filterMap Element.read?) := by
        simp [range, declaration?, hd]
      have hinstances : (catalogue c).instances e q = (catalogue c).resolveAll (d.related q) := by
        simp only [instances, handle, if_pos hmem, declaration, bind, Except.bind, hd]
      rw [hrange, hinstances]
      exact meets_resolveAll c _ r
    | none =>
      have hmem : e.key ∉ c.table := by simp [Std.ExtTreeMap.mem_iff_isSome_getElem?, hd]
      have hrange : (catalogue c).range e q = ∅ := by simp [range, declaration?, hd]
      have hinstances : (catalogue c).instances e q = pure [] := by
        simp [instances, handle, hmem, bind, Except.bind]
      rw [hrange, hinstances]
      exact Asking.meets_pure ⟨rfl, by simp⟩

end Library

/-! ## Views -/

/-- What is found is where it is said to be: in the store, or in the registry. -/
def Finding.Sound (s : Store) (r : Registry) : Finding → Prop
  | recorded d q e => e ∈ s.range d q
  | interned i => r.Holds i

theorem Finding.Sound.extends {s : Store} {r r' : Registry} {f : Finding} (hext : r'.Extends r)
    (h : f.Sound s r) : f.Sound s r' := by
  cases f with
  | recorded => exact h
  | interned i => exact hext.holds h

namespace View

variable {v : View}

theorem map_recorded (es : List Element) (d : Element) (q : Relation) :
    (es.map (Finding.recorded d q)).map Finding.element = es := by
  simp [Function.comp_def, Finding.element]

theorem map_interned (is : List Interned) :
    (is.map Finding.interned).map Finding.element = is.map Interned.element := by
  simp [Function.comp_def, Finding.element]

theorem meets_findings (v : View) (d : Element) (q : Relation) (r : Registry) :
    Meets (v.findings d q) r fun fs r' =>
      fs.map Finding.element = (v.range d q).toList ∧ ∀ f ∈ fs, f.Sound v.store r' := by
  by_cases hforeign : v.isForeign d q = true
  · simp only [findings, range, hforeign, if_true]
    refine (v.library.meets_instances d q r).bind fun is r' _ his => Asking.meets_pure ?_
    refine ⟨(map_interned is).trans his.1, ?_⟩
    intro f hf
    obtain ⟨i, hi, rfl⟩ := List.mem_map.mp hf
    exact his.2 i hi
  · simp only [findings, range, hforeign, Bool.false_eq_true, if_false]
    refine Asking.meets_pure ⟨map_recorded _ d q, ?_⟩
    intro f hf
    obtain ⟨e, he, rfl⟩ := List.mem_map.mp hf
    exact Std.ExtTreeSet.mem_toList.mp he

/-- The same where it may be refused. -/
theorem meets_findings? (v : View) (d : Element) (q : Relation) (r : Registry) :
    Meets (v.findings? d q) r fun found _ =>
      found.map (·.map Finding.element) = (v.range? d q).map (·.toList) := by
  by_cases hforeign : v.isForeign d q = true
  · simp only [findings?, range?, hforeign, if_true]
    refine (v.library.meets_instances d q r).bind fun is r' _ his => Asking.meets_pure ?_
    exact congrArg Except.ok ((map_interned is).trans his.1)
  · simp only [findings?, range?, hforeign, Bool.false_eq_true, if_false]
    refine Asking.meets_pure ?_
    cases v.store.range? d q with
    | error fault => rfl
    | ok range => exact congrArg Except.ok (map_recorded _ d q)

theorem meets_supertypesIn (v : View) (t : Element) (r : Registry) :
    Meets (v.supertypesIn t) r fun es _ => es = v.supertypes t := by
  refine (Asking.meets_mapM (R := fun _ _ => True) (fun _ h => h)
    (fun q r' => (v.meets_findings t q r').imp fun _ _ _ h => ⟨h.1, trivial⟩) Relation.supertypes
      r).bind fun found _ _ hfound => Asking.meets_pure ?_
  rw [supertypes, List.map_flatten, hfound.1, List.flatMap]

theorem meets_visitIn (v : View) (name : String) (t : Element) (r : Registry) :
    Meets (v.visitIn name t) r fun p r' =>
      p.1.map Finding.element = (v.firstCandidate? name t).toList ∧ p.2 = v.supertypes t ∧
        ∀ f ∈ p.1, f.Sound v.store r' := by
  refine (v.meets_findings t .declaresMethod r).bind fun methods r' _ hmethods =>
    (v.meets_supertypesIn t r').bind fun _ r'' hext hsupertypes => Asking.meets_pure ?_
  obtain ⟨helements, hsound⟩ := hmethods
  refine ⟨?_, hsupertypes, ?_⟩
  · rw [firstCandidate?, ← helements, List.find?_map, Option.toList_map]
    rfl
  · intro f hf
    have hfound := List.mem_of_find?_eq_some (Option.mem_toList.mp hf)
    exact (hsound f hfound).extends hext

/-- **A search with a registry meets what the plain search meets.** -/
theorem meets_exploreIn {α : Type} {visit : Element → Asking (List α × List Element)}
    {erase : α → Element} {met next : Element → List Element} {R : α → Registry → Prop}
    (hstable : ∀ {x r r'}, r'.Extends r → R x r → R x r')
    (hvisit : ∀ t r, Meets (visit t) r fun p r' =>
      p.1.map erase = met t ∧ p.2 = next t ∧ ∀ x ∈ p.1, R x r')
    (n : Nat) (seen : ElementSet) (queue : List Element) (r : Registry) :
    Meets (exploreIn visit n seen queue) r fun xs r' =>
      xs.map erase = (explore next n seen queue).flatMap met ∧ ∀ x ∈ xs, R x r' := by
  induction n generalizing seen queue r with
  | zero => exact Asking.meets_pure ⟨rfl, by simp⟩
  | succ n ih =>
    cases queue with
    | nil => exact Asking.meets_pure ⟨rfl, by simp⟩
    | cons t queue =>
      refine (hvisit t r).bind fun p r' _ hp => ?_
      obtain ⟨hmet, hnext, hfirst⟩ := hp
      refine (ih _ _ r').bind fun rest r'' hext hrest => Asking.meets_pure ⟨?_, ?_⟩
      · rw [List.map_append, hmet, hrest.1, hnext, explore, List.flatMap_cons]
      · intro x hx
        rcases List.mem_append.mp hx with hx | hx
        · exact hstable hext (hfirst x hx)
        · exact hrest.2 x hx

/-- The search for ancestors sets out from the supertypes of a type. -/
theorem ancestors_eq (v : View) (t : Element) :
    v.ancestors t = explore v.supertypes v.extent (newcomers (.ofList [t]) (v.supertypes t)).2
      (newcomers (.ofList [t]) (v.supertypes t)).1 := by
  rw [ancestors, explore, List.tail_cons, List.nil_append]

/-- **What is found to be overridden with a registry is what the view shows to be overridden.** -/
theorem meets_overriddenIn (v : View) (m : Element) (r : Registry) :
    Meets (v.overriddenIn m) r fun fs r' =>
      fs.map Finding.element = (v.overridden m).toList ∧ ∀ f ∈ fs, f.Sound v.store r' := by
  have hnothing : v.overrider? m = none → ∀ r, Meets (pure []) r fun fs r' =>
      fs.map Finding.element = (v.overridden m).toList ∧ ∀ f ∈ fs, f.Sound v.store r' := by
    intro hnone r
    refine Asking.meets_pure ⟨?_, by simp⟩
    rw [overridden, hnone]
    rfl
  cases hname : m.methodName? with
  | none =>
    simp only [overriddenIn, hname]
    exact hnothing (by simp [overrider?, hname]) r
  | some name =>
    cases habs : v.store.isAbstractMethod m with
    | true =>
      simp only [overriddenIn, hname, habs, if_true]
      exact hnothing (by simp [overrider?, hname, habs]) r
    | false =>
      simp only [overriddenIn, hname, habs, Bool.false_eq_true, if_false]
      refine (Asking.meets_owner m r).bind fun found r' _ hfound => ?_
      cases found with
      | none =>
        have howner : m.owner? = none := hfound.1.symm
        exact hnothing (by simp [overrider?, hname, habs, howner]) r'
      | some owner =>
        have howner : m.owner? = some owner.element := hfound.1.symm
        have hover : v.overrider? m = some (name, owner.element) := by
          simp [overrider?, hname, habs, howner]
        refine (v.meets_supertypesIn owner.element r').bind fun supertypes r'' _ hsupertypes => ?_
        refine (meets_exploreIn (R := fun f r => f.Sound v.store r) Finding.Sound.extends
          (v.meets_visitIn name) _ _ _ r'').bind
          fun found last _ hfound => Asking.meets_pure ⟨?_, fun f hf => ?_⟩
        · rw [map_inOrder, hfound.1, hsupertypes, overridden, hover]
          simp only [ancestors_eq, List.filterMap_eq_flatMap_toList]
        · exact hfound.2 f (mem_of_mem_inOrder hf)

end View

/-! ## Taking an element -/

namespace Analysis

variable {scope : Scope} {a : Analysis} {m : Element}

/-- The registry that the search for what an element overrides leaves. -/
def consulted (scope : Scope) (m : Element) (a : Analysis) : Registry :=
  (((a.view scope).overriddenIn m).run a.registry).2

/-- **What becomes of an analysis when an element is taken**: the search leaves its trace in the
registry, and what it finds is what is overridden by the view. -/
theorem process_eq : a.process scope m =
    ((a.view scope).overridden m).toList.foldl (override scope m)
      { a with
        store := a.store.withStatus .running
        worklist.report.processed := a.worklist.report.processed + 1
        registry := a.consulted scope m } := by
  rw [← ((a.view scope).meets_overriddenIn m a.registry).meets.1]
  rfl

theorem registry_override (e : Element) : (a.override scope m e).registry = a.registry := by
  unfold override
  split <;> rfl

/-- To record overrides does not ask for instances. -/
theorem registry_process : (a.process scope m).registry = a.consulted scope m := by
  rw [process_eq]
  refine List.foldlRecOn (motive := fun b : Analysis => b.registry = a.consulted scope m) _
    (override scope m) rfl fun b hb e _ => ?_
  exact (registry_override e).trans hb

/-- So to take an element is to ask for instances, as far as the registry is concerned. -/
theorem asked_process : ∃ qs, (a.process scope m).registry = a.registry.askAll qs := by
  rw [registry_process]
  exact ((a.view scope).meets_overriddenIn m a.registry).asked

end Analysis
end CodeAtlas
