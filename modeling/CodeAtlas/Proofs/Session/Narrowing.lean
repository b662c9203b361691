import CodeAtlas.Proofs.Session.Contents
import CodeAtlas.Proofs.Session.Operations

/-!
# Questions about the project alone

What an element is related to can be asked for as a whole, or as far as it belongs to the project.
The second answer is a part of what is recorded. So is the first, but not if it is asked what a type
outside the project declares or extends: then the library answers, and what is recorded of the type
is not looked at. So the second answer lies within the first unless a fact relates a type outside
the project to an element of the project and the library does not. Facts get in by units and one by
one, and hierarchy analysis adds overrides only, which are not looked up in the library.

## Main definitions

* `Operation.Relates`: an operation records that an element is related to another.
* `Session.mem_range_performAll`: what is recorded of the relations that are not computed.
* `Session.projectRange_subset_iff`: when the narrow answer lies within the wide one.
-/
namespace CodeAtlas

theorem Relation.isComputed_of_isDeclarative {r : Relation} (h : r.isDeclarative = true) :
    r.isComputed = false := by
  obtain ⟨link, reversed⟩ := r
  cases link <;> simp_all [isDeclarative, isComputed]

/-- An operation records that an element is related to another. Hierarchy analysis is left out here:
it records overrides and nothing else. -/
def Operation.Relates (failFast : Bool) (d : Element) (r : Relation) (x : Element) :
    Operation → Prop
  | call (.intake i) => ∃ f ∈ (i.units failFast).flatMap SourceUnit.entries, f.Relates d r x
  | relate a q e => a = d ∧ q = r ∧ e = x
  | relateBoth a q e => (a = d ∧ q = r ∧ e = x) ∨ (a = x ∧ q.transpose = r ∧ e = d)
  | call (.analysis _) | ask _ => False

/-! ## What is recorded of a relation that is not computed -/

namespace Session

variable {s : Session} {o : Operation} {ops : List Operation} {d x : Element} {r : Relation}

theorem range_run_of_not_computed (hr : r.isComputed = false) (run : Run) :
    (s.run run).store.range d r = s.store.range d r := by
  refine run_induction (P := fun t => t.range d r = s.store.range d r) ?_ ?_ rfl
  · intro a m ha
    exact (Analysis.range_process_of_not_computed hr).trans ha
  · intro t status ht
    exact ht

/-- An operation adds the tuples that it records. -/
theorem mem_range_perform (hr : r.isComputed = false) :
    x ∈ (s.perform o).store.range d r ↔
      o.Relates s.settings.failFast d r x ∨ x ∈ s.store.range d r := by
  cases o with
  | call c =>
    cases c with
    | intake i =>
      show x ∈ (s.intake i).store.range d r ↔ _
      rw [store_intake, Store.mem_range_foldl_enter fun _ hf => Intake.valid_of_mem_entries hf]
      rfl
    | analysis run =>
      show x ∈ (s.run run).store.range d r ↔ _
      simp [range_run_of_not_computed hr, Operation.Relates]
  | relate a q e =>
    show x ∈ (s.store.relate a q e).2.range d r ↔ _
    rw [Store.mem_range_relate, Operation.Relates]
    simp only [eq_comm]
  | relateBoth a q e =>
    show x ∈ (s.store.relateBoth a q e).2.range d r ↔ _
    rw [Store.mem_range_relateBoth, Operation.Relates]
    grind
  | ask q =>
    show x ∈ (s.asked q).store.range d r ↔ _
    simp [Operation.Relates]

/-- **A tuple of a relation that is not computed is stored if an operation has recorded it**, and
otherwise only if it was stored before. -/
theorem mem_range_performAll (hr : r.isComputed = false) :
    x ∈ (s.performAll ops).store.range d r ↔
      (∃ o ∈ ops, o.Relates s.settings.failFast d r x) ∨ x ∈ s.store.range d r := by
  induction ops generalizing s with
  | nil => simp [performAll]
  | cons o ops ih =>
    rw [performAll_cons, ih, (s.perform_context o).1, mem_range_perform hr, List.exists_mem_cons_iff,
      or_assoc, or_left_comm]

/-! ## The two questions -/

/-- An answer that is given is what is known. -/
theorem eq_of_range?_eq_ok {all : ElementSet} (h : s.range? d r = .ok all) :
    all = s.view.range d r := by
  rw [range?, guard] at h
  split at h
  · cases h
  · exact View.range?_eq_ok h

/-- The narrow answer is the part of what is recorded that belongs to the project. -/
theorem mem_of_projectRange?_eq_ok {inProject : ElementSet}
    (h : s.projectRange? d r = .ok inProject) :
    x ∈ inProject ↔ x ∈ s.store.range d r ∧ s.owns x = true := by
  rw [projectRange?, guard] at h
  split at h
  · cases h
  · rw [View.projectRange?, Store.range?] at h
    split at h
    · obtain rfl := Except.ok.inj h
      have hfilter : x ∈ (s.store.range d r).filter s.project.owns ↔
          x ∈ s.store.range d r ∧ s.project.owns x = true := by simp
      exact hfilter
    · cases h

/-- What is looked up in the library is not computed, and so it may always be asked for. -/
theorem isComputed_of_isForeign (h : s.view.isForeign d r = true) : r.isComputed = false := by
  simp only [View.isForeign, Bool.and_eq_true] at h
  exact Relation.isComputed_of_isDeclarative h.1.1

/-- The two questions are refused together, for the same reason. -/
theorem projectRange?_eq_error {fault : Fault} :
    s.projectRange? d r = .error fault ↔ s.range? d r = .error fault := by
  rw [projectRange?, range?, guard, guard]
  split
  · rfl
  · rw [View.projectRange?, View.range?]
    split
    next hforeign =>
      have hanswers : s.view.store.answers r = true := by
        simp [Store.answers, isComputed_of_isForeign hforeign]
      simp [Store.range?, hanswers, Except.map]
    next => cases s.view.store.range? d r <;> simp [Except.map]

/-- **What a session answers about its project lies within what it answers at all, unless a recorded
fact stands against the library.** Whatever a session has been asked to do, the two questions are
refused together. Where they are answered, all that is found in the project belongs to it. And it is
all found by the other question if and only if that one is not looked up in the library, or the
library lists each element of the project that an operation has recorded. -/
theorem projectRange_subset_iff (settings : Settings) (library : Library) (ops : List Operation)
    (d : Element) (r : Relation) :
    let s := (create settings library).performAll ops
    (∀ fault, s.projectRange? d r = .error fault ↔ s.range? d r = .error fault) ∧
    ∀ all inProject, s.range? d r = .ok all → s.projectRange? d r = .ok inProject →
      (∀ x ∈ inProject, s.owns x = true) ∧
      ((∀ x ∈ inProject, x ∈ all) ↔
        (s.view.isForeign d r = true → ∀ x, s.owns x = true →
          (∃ o ∈ ops, o.Relates settings.failFast d r x) → x ∈ library.range d r)) := by
  intro s
  refine ⟨fun fault => projectRange?_eq_error, fun all inProject hall hproject => ?_⟩
  have hmem : ∀ x, x ∈ inProject ↔ x ∈ s.store.range d r ∧ s.owns x = true :=
    fun x => mem_of_projectRange?_eq_ok hproject
  refine ⟨fun x hx => ((hmem x).mp hx).2, ?_⟩
  obtain rfl := eq_of_range?_eq_ok hall
  by_cases hforeign : s.view.isForeign d r = true
  · -- the library answers for what the operations have recorded
    have hlibrary : s.view.range d r = library.range d r := by
      rw [View.range, if_pos hforeign]
      exact congrArg (·.range d r) library_performAll
    have hrecorded : ∀ x, x ∈ s.store.range d r ↔
        ∃ o ∈ ops, o.Relates settings.failFast d r x := by
      intro x
      rw [mem_range_performAll (isComputed_of_isForeign hforeign)]
      simp [create, Store.empty, Store.range, Store.record]
    constructor
    · intro h _ x hown hrel
      rw [← hlibrary]
      exact h x ((hmem x).mpr ⟨(hrecorded x).mpr hrel, hown⟩)
    · intro h x hx
      obtain ⟨hstored, hown⟩ := (hmem x).mp hx
      rw [hlibrary]
      exact h hforeign x hown ((hrecorded x).mp hstored)
  · -- both answers come from what is recorded
    have hstored : s.view.range d r = s.store.range d r := by
      rw [View.range, if_neg hforeign]
      rfl
    constructor
    · intro _ h
      exact absurd h hforeign
    · intro _ x hx
      rw [hstored]
      exact ((hmem x).mp hx).1

/-! ## A class outside the project -/

/-- A class whose package is not registered. -/
def outerClass : Element := ⟨"q.Sub", .type, by decide +kernel⟩

/-- A class of the project. -/
def innerClass : Element := ⟨"p.Base", .type, by decide +kernel⟩

/-- A unit of the project that says what the class outside extends. -/
def outerUnit : SourceUnit where
  path := "Sub.java"
  package := some "p"
  relations := [⟨⟨.type, "q.Sub"⟩, .extendsClass, ⟨.type, "p.Base"⟩, true⟩]

/-- Populating a session with this unit. -/
def outerOperations : List Operation :=
  [.call (.intake (.populate .silent ⟨(), false⟩ [.ok outerUnit]))]

/-- A library that says the same. -/
def outerLibrary : Library := .catalogue (.ofList [{ id := "q.Sub", superclass := some "p.Base" }])

/-- The superclass is found in the project and by the other question too, and so it is listed. -/
theorem projectRange_subset_iff_listed :
    ((create {} outerLibrary).performAll outerOperations).range? outerClass .extendsClass
        = .ok (.ofList [innerClass]) ∧
      ((create {} outerLibrary).performAll outerOperations).projectRange? outerClass .extendsClass
        = .ok (.ofList [innerClass]) ∧
      innerClass ∈ outerLibrary.range outerClass .extendsClass := by
  obtain ⟨-, hanswers⟩ :=
    projectRange_subset_iff {} outerLibrary outerOperations outerClass .extendsClass
  have hall : ((create {} outerLibrary).performAll outerOperations).range? outerClass .extendsClass
      = .ok (.ofList [innerClass]) := by decide +kernel
  have hproject : ((create {} outerLibrary).performAll outerOperations).projectRange? outerClass
      .extendsClass = .ok (.ofList [innerClass]) := by decide +kernel
  have hrelates : ∃ o ∈ outerOperations, o.Relates true outerClass .extendsClass innerClass := by
    refine ⟨_, .head _, _, List.mem_flatMap.mpr ⟨outerUnit, ?_, .head _⟩, .inl ⟨rfl, rfl, rfl⟩⟩
    decide +kernel
  obtain ⟨-, hiff⟩ := hanswers _ _ hall hproject
  refine ⟨hall, hproject, hiff.mp (fun x hx => hx) ?_ innerClass ?_ hrelates⟩
  · decide +kernel
  · decide +kernel

/-- Without a library the superclass is found in the project, and the other question finds
nothing. -/
theorem projectRange_beyond_range : ∃ all inProject,
    ((create {} .absent).performAll outerOperations).range? outerClass .extendsClass = .ok all ∧
      ((create {} .absent).performAll outerOperations).projectRange? outerClass .extendsClass
        = .ok inProject ∧
      innerClass ∈ inProject ∧ innerClass ∉ all := by
  refine ⟨_, _, rfl, rfl, by decide +kernel, by decide +kernel⟩

end Session
end CodeAtlas
