import CodeAtlas.Proofs.Hierarchy.Ancestry
import Mathlib.Data.PFun

/-!
# The search for overridden methods ends and does not fail

The methods that a method overrides are found by asking what types declare and extend. A question
may be refused in general, and hierarchies may have cycles, so it is not plain that such a search
ends with a result. It is written down here once more as a loop that nothing bounds and that any
refusal ends. It turns out that no question is ever refused and that the loop always ends, with the
same methods as the bounded search. And these are the first methods to be overridden in the types
that can be reached from the type of the method.

## Main definitions

* `View.turn`, `View.search`: one turn of the loop, and the loop.
* `View.Extends`, `View.Offers`, `View.FirstOffered`: what the questions tell about types.
* `View.search_eq_overridden`: where the loop ends.
* `View.overridden_exact`: what is found.
-/
namespace CodeAtlas

/-- In a list that ascends, the first element that passes a test is the least one that does. -/
theorem find?_eq_some_iff_of_ascending {l : List Element} {p : Element → Bool} {x : Element}
    (h : l.Pairwise fun a b => compare a b = .lt) :
    l.find? p = some x ↔
      x ∈ l ∧ p x = true ∧ ∀ y ∈ l, p y = true → (compare x y).isLE = true := by
  induction h with
  | nil => simp
  | @cons a l hless _ ih =>
    by_cases hp : p a = true
    · rw [List.find?_cons_of_pos hp, Option.some.injEq]
      constructor
      · rintro rfl
        refine ⟨List.mem_cons_self, hp, fun y hy _ => ?_⟩
        rcases List.mem_cons.mp hy with rfl | hy
        · simp
        · simp [hless y hy]
      · rintro ⟨hx, -, hfirst⟩
        rcases List.mem_cons.mp hx with rfl | hx
        · rfl
        · -- `x` would come behind `a`, which passes as well
          have hgt : compare x a = .gt := Std.OrientedCmp.gt_of_lt (hless x hx)
          have hle := hfirst a List.mem_cons_self hp
          rw [hgt] at hle
          cases hle
    · rw [List.find?_cons_of_neg hp, ih]
      grind

namespace View

variable {v : View} {name : String} {t m x y : Element} {n : Nat} {seen found : ElementSet}
  {queue : List Element}

/-! ## The loop -/

/-- The direct supertypes of a type, or the fault that they may not be asked for. -/
def supertypes? (v : View) (t : Element) : Except Fault (List Element) := do
  let ranges ← Relation.supertypes.mapM (v.range? t)
  return ranges.flatMap (·.toList)

/-- A search on its way: the types that have been seen, those of them that wait, and the methods
that have been found. -/
structure SearchState where
  seen : ElementSet
  queue : List Element
  found : ElementSet

/-- Take a type: add the first of its methods that may be overridden to those that have been found,
and its supertypes to the queue unless they have been seen. -/
def visit (v : View) (name : String) (t : Element) (s : SearchState) :
    Except Fault SearchState := do
  let declared ← v.range? t .declaresMethod
  let supertypes ← v.supertypes? t
  let (fresh, seen) := newcomers s.seen supertypes
  let first := declared.toList.find? (v.isCandidate name)
  return ⟨seen, s.queue ++ fresh, s.found.insertMany first.toList⟩

/-- One turn: take the first type of the queue. If none waits, or if a question is refused, the
search is over. -/
def turn (v : View) (name : String) (s : SearchState) : Except Fault ElementSet ⊕ SearchState :=
  match s.queue with
  | [] => .inl (.ok s.found)
  | t :: queue =>
    match v.visit name t { s with queue } with
    | .ok s => .inr s
    | .error fault => .inl (.error fault)

/-- Go on turn by turn. There is no result if this goes on forever. -/
def searchFrom (v : View) (name : String) : SearchState →. Except Fault ElementSet :=
  PFun.fix fun s => Part.some (v.turn name s)

/-- Look for the methods that a method overrides, from the supertypes of its type on. -/
def search (v : View) (m : Element) : Part (Except Fault ElementSet) :=
  match v.overrider? m with
  | none => .some (.ok ∅)
  | some (name, owner) =>
    match v.supertypes? owner with
    | .error fault => .some (.error fault)
    | .ok supertypes =>
      let (fresh, seen) := newcomers (.ofList [owner]) supertypes
      v.searchFrom name ⟨seen, fresh, ∅⟩

/-! ## No question is refused -/

theorem declared_eq_ok : v.range? t .declaresMethod = .ok (v.range t .declaresMethod) :=
  range?_of_not_computed rfl

theorem supertypes?_eq_ok : v.supertypes? t = .ok (v.supertypes t) := by
  simp only [supertypes?, Relation.supertypes, List.mapM_cons, List.mapM_nil,
    range?_of_not_computed (r := .extendsClass) rfl,
    range?_of_not_computed (r := .implementsInterface) rfl,
    range?_of_not_computed (r := .extendsInterfaces) rfl]
  rfl

/-- One turn that takes a type. -/
theorem searchFrom_cons : v.searchFrom name ⟨seen, t :: queue, found⟩ =
    v.searchFrom name ⟨(newcomers seen (v.supertypes t)).2,
      queue ++ (newcomers seen (v.supertypes t)).1,
      found.insertMany (v.firstCandidate? name t).toList⟩ := by
  refine PFun.fix_fwd_eq (Part.mem_some_iff.mpr ?_)
  simp only [turn, visit, declared_eq_ok, supertypes?_eq_ok]
  rfl

/-! ## The loop ends -/

theorem mem_searchFrom_nil : .ok found ∈ v.searchFrom name ⟨seen, [], found⟩ :=
  PFun.fix_stop (Part.mem_some _)

/-- As long as the bound covers what can still come, the loop ends with what the bounded search
finds. -/
theorem mem_searchFrom (H : Searching v.superiors n seen queue) :
    .ok (found.insertMany ((explore v.supertypes n seen queue).filterMap (v.firstCandidate? name)))
      ∈ v.searchFrom name ⟨seen, queue, found⟩ := by
  induction n generalizing seen queue found with
  | zero =>
    have henough := H.enough
    obtain rfl : queue = [] := List.length_eq_zero_iff.mp (by omega)
    exact mem_searchFrom_nil
  | succ n ih =>
    cases queue with
    | nil => exact mem_searchFrom_nil
    | cons t queue =>
      have hfound : ∀ rest : List Element,
          found.insertMany ((t :: rest).filterMap (v.firstCandidate? name))
            = (found.insertMany (v.firstCandidate? name t).toList).insertMany
                (rest.filterMap (v.firstCandidate? name)) := by
        intro rest
        rw [List.filterMap_cons]
        cases v.firstCandidate? name t <;> simp [Std.ExtTreeSet.insertMany_cons]
      rw [searchFrom_cons, explore, hfound]
      exact ih (H.step fun y hy => mem_superiors hy)

/-- **The search ends without a refusal, with the methods that the method overrides.** -/
theorem search_eq_overridden (v : View) (m : Element) :
    v.search m = .some (.ok (v.overridden m)) := by
  unfold search overridden
  cases v.overrider? m with
  | none => rfl
  | some p =>
    obtain ⟨name, owner⟩ := p
    have henough : v.superiors.length + 1 ≤ v.extent + 1 := Nat.succ_le_succ v.length_superiors_le
    have hstart : Searching v.superiors v.extent
        (newcomers (.ofList [owner]) (v.supertypes owner)).2
        (newcomers (.ofList [owner]) (v.supertypes owner)).1 :=
      (Searching.start henough).step fun y hy => mem_superiors hy
    simp only [supertypes?_eq_ok]
    refine Part.eq_some_iff.mpr ?_
    have hend : _ ∈ v.searchFrom name ⟨_, _, ∅⟩ := mem_searchFrom hstart
    rw [← Std.ExtTreeSet.ofList_eq_insertMany_empty] at hend
    exact hend

/-! ## What is found -/

/-- It is answered that the first type has the second one as a direct supertype. -/
def Extends (v : View) (a b : Element) : Prop :=
  ∃ r ∈ [Relation.extendsClass, .implementsInterface, .extendsInterfaces],
    ∃ range, v.range? a r = .ok range ∧ b ∈ range

/-- It is answered that a type declares a method, which may be overridden under a name: it has the
name, it is no initializer, and it is not recorded as static. -/
structure Offers (v : View) (name : String) (t x : Element) : Prop where
  declared : ∃ range, v.range? t .declaresMethod = .ok range ∧ x ∈ range
  methodName : x.methodName? = some name
  isInitializer : x.isInitializer = false
  isStatic : (v.store.modifiers x).isStatic = false

/-- The first of the methods of a type that may be overridden under a name. -/
structure FirstOffered (v : View) (name : String) (t x : Element) : Prop where
  offers : v.Offers name t x
  isLE : ∀ y, v.Offers name t y → (compare x y).isLE = true

theorem extends_iff : v.Extends t x ↔ x ∈ v.supertypes t := by
  have hask : ∀ r ∈ Relation.supertypes,
      (∃ range, v.range? t r = .ok range ∧ x ∈ range) ↔ x ∈ (v.range t r).toList := by
    intro r hr
    have hr' : r.isComputed = false := by
      simp only [Relation.supertypes, List.mem_cons, List.not_mem_nil, or_false] at hr
      rcases hr with rfl | rfl | rfl <;> rfl
    simp [range?_of_not_computed hr']
  rw [supertypes, List.mem_flatMap]
  exact exists_congr fun r => and_congr_right fun hr => hask r hr

theorem offers_iff : v.Offers name t x ↔
    x ∈ v.range t .declaresMethod ∧ v.isCandidate name x = true := by
  have hcandidate : v.isCandidate name x = true ↔ x.methodName? = some name ∧
      x.isInitializer = false ∧ (v.store.modifiers x).isStatic = false := by
    simp [isCandidate, and_assoc]
  rw [hcandidate]
  constructor
  · rintro ⟨⟨range, hrange, hx⟩, hname, hinit, hstatic⟩
    obtain rfl := Except.ok.inj (declared_eq_ok.symm.trans hrange)
    exact ⟨hx, hname, hinit, hstatic⟩
  · rintro ⟨hx, hname, hinit, hstatic⟩
    exact ⟨⟨_, declared_eq_ok, hx⟩, hname, hinit, hstatic⟩

theorem firstCandidate?_eq_some_iff :
    v.firstCandidate? name t = some x ↔ v.FirstOffered name t x := by
  rw [firstCandidate?, find?_eq_some_iff_of_ascending Std.ExtTreeSet.ordered_toList]
  simp only [Std.ExtTreeSet.mem_toList]
  constructor
  · rintro ⟨hmem, hcand, hfirst⟩
    refine ⟨offers_iff.mpr ⟨hmem, hcand⟩, fun y hy => ?_⟩
    obtain ⟨hmemy, hcandy⟩ := offers_iff.mp hy
    exact hfirst y hmemy hcandy
  · rintro ⟨hoffers, hfirst⟩
    obtain ⟨hmem, hcand⟩ := offers_iff.mp hoffers
    exact ⟨hmem, hcand, fun y hmemy hcandy => hfirst y (offers_iff.mpr ⟨hmemy, hcandy⟩)⟩

/-- **The search for overridden methods ends, does not fail, and finds exactly these.** Whatever is
recorded and listed, the search for what an element overrides ends without a refusal. An element
that is no method, or that counts as abstract, overrides nothing. Any other method has a name and a
type. It overrides the first method that may be overridden under its name in each type that can be
reached from its type, the type itself apart, and nothing else. -/
theorem overridden_exact (v : View) (m : Element) :
    v.search m = .some (.ok (v.overridden m)) ∧
    (m.isMethod = false ∨ v.store.isAbstractMethod m = true → v.overridden m = ∅) ∧
    (m.isMethod = true → v.store.isAbstractMethod m = false → ∃ name owner,
      m.methodName? = some name ∧ m.owner? = some owner ∧
      ∀ x, x ∈ v.overridden m ↔
        ∃ t, t ≠ owner ∧ Relation.TransGen v.Extends owner t ∧ v.FirstOffered name t x) := by
  refine ⟨search_eq_overridden v m, ?_, fun hmethod habs => ?_⟩
  · rintro (hmethod | habs)
    · ext x
      have hnone : x ∉ v.overridden m := fun hx => by simp [isMethod_of_overrides hx] at hmethod
      simpa using hnone
    · exact overridden_eq_empty habs
  · obtain ⟨name, owner, hname, howner⟩ := Element.exists_owner hmethod
    have hover : v.overrider? m = some (name, owner) :=
      overrider?_eq_some.mpr ⟨hname, habs, howner⟩
    have hextends : Leads v.supertypes = v.Extends := by
      funext a b
      exact propext extends_iff.symm
    refine ⟨name, owner, hname, howner, fun x => ?_⟩
    simp only [mem_overridden, hover, mem_ancestors, hextends, firstCandidate?_eq_some_iff,
      Option.some.injEq, Prod.mk.injEq]
    constructor
    · rintro ⟨_, _, ⟨rfl, rfl⟩, t, ⟨hne, hreach⟩, hfirst⟩
      exact ⟨t, hne, hreach, hfirst⟩
    · rintro ⟨t, hne, hreach, hfirst⟩
      exact ⟨name, owner, ⟨rfl, rfl⟩, t, ⟨hne, hreach⟩, hfirst⟩

/-! ## A hierarchy with cycles -/

/-- Two classes of a library that extend each other and implement one interface, which extends
itself. Some of the ids are none. -/
def cyclicLibrary : Library := .catalogue (.ofList [
  { id := "lib.A", superclass := some "lib.B", interfaces := ["lib.I", "lib I"],
    methods := [⟨"lib.A.run(int)", {}⟩, ⟨"lib.A.run()", {}⟩] },
  { id := "lib.B", superclass := some "lib.A", interfaces := ["lib.I"] },
  { id := "lib.I", isInterface := true, interfaces := ["lib.I"],
    methods := [⟨"lib.I.run(", {}⟩, ⟨"lib.I.run()", {}⟩] }])

/-- A class of the project. -/
def cyclicType : Element := ⟨"p.K", .type, by decide +kernel⟩

/-- Its method. -/
def cyclicMethod : Element := ⟨"p.K.run()", .method "p.K" "run" [], by decide +kernel⟩

/-- The class of the library that it extends. -/
def cyclicSuperclass : Element := ⟨"lib.A", .type, by decide +kernel⟩

/-- What is known of them. -/
def cyclicView : View where
  project := .ofList ["p"]
  library := cyclicLibrary
  store := (Store.empty.relateBoth cyclicType .extendsClass cyclicSuperclass).2

/-- The search ends all the same, with the first such method of each of the two types that declare
one. -/
theorem overridden_exact_cyclic :
    cyclicView.search cyclicMethod = .some (.ok (cyclicView.overridden cyclicMethod)) ∧
      (cyclicView.overridden cyclicMethod).toList.map (·.id) = ["lib.A.run()", "lib.I.run()"] ∧
      cyclicView.overridden cyclicType = ∅ ∧
      ∃ owner, cyclicMethod.owner? = some owner ∧ ∀ x ∈ cyclicView.overridden cyclicMethod,
        ∃ t, t ≠ owner ∧ Relation.TransGen cyclicView.Extends owner t ∧
          cyclicView.Offers "run" t x := by
  obtain ⟨hsearch, -, hfound⟩ := overridden_exact cyclicView cyclicMethod
  obtain ⟨-, htype, -⟩ := overridden_exact cyclicView cyclicType
  obtain ⟨name, owner, hname, howner, hmem⟩ :=
    hfound (by decide +kernel) (by decide +kernel)
  obtain rfl : "run" = name := Option.some.inj hname
  refine ⟨hsearch, by decide +kernel, htype (.inl (by decide +kernel)), owner, howner, ?_⟩
  intro x hx
  obtain ⟨t, hne, hreach, hfirst⟩ := (hmem x).mp hx
  exact ⟨t, hne, hreach, hfirst.offers⟩

end View
end CodeAtlas
