import CodeAtlas.Proofs.Session.Contents
import CodeAtlas.Proofs.Session.History

/-!
# Stored tuples are well typed

A relation fixes the categories of the elements on its two sides. Units are checked against that
before they are recorded, though not the transposes that come with them, and the transpose of a
tuple that fits does fit. Hierarchy analysis checks nothing. But only a method overrides anything,
and what it is found to override is a method, whatever is recorded and whatever the library lists.
No unit records an override, so there are none before the first run of the analysis.

## Main definitions

* `Store.Fits`, `Store.Typed`: every tuple fits its relation, and there are overrides only once
  analysis has started.
* `Session.hasStarted_after`: when it has started.
* `Session.stored_typed`: what is stored is well typed.
-/
namespace CodeAtlas

theorem Relation.accepts_transpose {r : Relation} {a b : Category} :
    r.transpose.accepts b a = r.accepts a b := by
  simp [accepts, Bool.and_comm]

/-- Two methods may stand on the two sides of an override. -/
theorem Element.accepts_overrides {d e : Element} (hd : d.isMethod = true)
    (he : e.isMethod = true) : Relation.overrides.accepts d.category e.category = true := by
  simp only [isMethod, decide_eq_true_eq] at hd he
  rw [hd, he]
  rfl

/-- What a valid entry relates fits the relation, which is not a computed one. -/
theorem UnitEntry.Relates.accepts {f : UnitEntry} {d x : Element} {r : Relation}
    (h : f.Relates d r x) (hf : f.Valid) :
    r.accepts d.category x.category = true ∧ r.isComputed = false := by
  cases f with
  | element f => exact h.elim
  | relation f =>
    obtain ⟨hcomputed, haccepts, -, -⟩ := hf
    rcases h with ⟨hd, rfl, hx⟩ | ⟨-, hx, rfl, hd⟩
    · rw [hd, hx] at haccepts
      exact ⟨haccepts, hcomputed⟩
    · rw [hx, hd] at haccepts
      exact ⟨Relation.accepts_transpose.trans haccepts, hcomputed⟩

/-- Every tuple fits its relation. -/
def Store.Fits (s : Store) : Prop :=
  ∀ (d : Element) (r : Relation) (e : Element), e ∈ s.range d r →
    r.accepts d.category e.category = true

/-- Moreover there are tuples of computed relations only once hierarchy analysis has started. -/
structure Store.Typed (s : Store) : Prop where
  fits : s.Fits
  started : ∀ {d : Element} {r : Relation} {e : Element}, e ∈ s.range d r →
    r.isComputed = true → s.status.hasStarted = true

namespace Store

theorem typed_empty : empty.Typed := by
  constructor <;> intro d r e he <;> simp [empty, range, record] at he

theorem Typed.foldl_enter {s : Store} {es : List UnitEntry} (h : s.Typed)
    (hes : ∀ f ∈ es, f.Valid) : (es.foldl enter s).Typed := by
  constructor
  · intro d r e he
    rcases (mem_range_foldl_enter hes).mp he with ⟨f, hf, hrel⟩ | he
    · exact (hrel.accepts (hes f hf)).1
    · exact h.fits d r e he
  · intro d r e he hr
    rw [status_foldl_enter]
    rcases (mem_range_foldl_enter hes).mp he with ⟨f, hf, hrel⟩ | he
    · simp [(hrel.accepts (hes f hf)).2] at hr
    · exact h.started he hr

end Store

/-! ## Analysis -/

namespace Analysis

variable {scope : Scope} {a : Analysis} {m : Element}

/-- What an element that is taken is related to fits the relation. -/
theorem fits_process (h : a.store.Fits) : (a.process scope m).store.Fits := by
  intro d r e he
  rcases mem_range_process.mp he with ⟨rfl, rfl, hx⟩ | ⟨hd, rfl, rfl⟩ | hold
  · exact Element.accepts_overrides (View.isMethod_of_overrides hx)
      (View.isMethod_of_mem_overridden hx)
  · rw [Relation.accepts_transpose]
    exact Element.accepts_overrides (View.isMethod_of_overrides hd)
      (View.isMethod_of_mem_overridden hd)
  · exact h d r e hold

end Analysis

/-! ## Sessions -/

namespace Session

variable {s : Session} {i : Intake} {r : Run} {calls : List Call}

theorem status_intake : (s.intake i).store.status = s.store.status := by
  rw [store_intake, Store.status_foldl_enter]

/-- **Hierarchy analysis has started once it has been run**, where it takes place at all. -/
theorem hasStarted_after : (s.after calls).store.status.hasStarted = true ↔
    s.store.status.hasStarted = true ∨
      s.settings.analysis = true ∧ ∃ r, Call.analysis r ∈ calls := by
  induction calls generalizing s with
  | nil => simp
  | cons c calls ih =>
    rw [after_cons, ih]
    cases c with
    | intake i =>
      simp [call, status_intake]
    | analysis r =>
      by_cases h : s.settings.analysis = true
      · simp only [call, hasStarted_run h, true_or, h, List.mem_cons, true_and, true_iff]
        exact .inr ⟨r, .inl rfl⟩
      · rw [call, run_of_disabled (Bool.eq_false_iff.mpr h)]
        simp [h]

theorem typed_intake (h : s.store.Typed) : (s.intake i).store.Typed := by
  rw [store_intake]
  exact h.foldl_enter fun _ hf => Intake.valid_of_mem_entries hf

theorem typed_run (h : s.store.Typed) : (s.run r).store.Typed := by
  by_cases hon : s.settings.analysis = true
  · constructor
    · exact run_induction (fun _ _ ha => Analysis.fits_process ha) (fun _ _ ht => ht) h.fits
    · intro _ _ _ _ _
      exact hasStarted_run hon
  · rw [run_of_disabled (Bool.eq_false_iff.mpr hon)]
    exact h

theorem typed_after (h : s.store.Typed) : (s.after calls).store.Typed := by
  induction calls generalizing s with
  | nil => exact h
  | cons c calls ih =>
    cases c with
    | intake i => exact ih (typed_intake h)
    | analysis r => exact ih (typed_run h)

/-- **What is stored is well typed.** Whatever facts a session has taken in and however often it has
run hierarchy analysis, with any library, the categories of two related elements fit the relation,
and an override or its transpose is there only if analysis is not disabled and has been run. -/
theorem stored_typed (settings : Settings) (library : Library) {d e : Element} {r : Relation}
    (h : e ∈ ((create settings library).after calls).store.range d r) :
    r.accepts d.category e.category = true ∧
      (r.isComputed = true → settings.analysis = true ∧ (∃ run, Call.analysis run ∈ calls) ∧
        ((create settings library).after calls).store.status.hasStarted = true) := by
  have htyped : ((create settings library).after calls).store.Typed :=
    typed_after Store.typed_empty
  refine ⟨htyped.fits d r e h, fun hr => ?_⟩
  have hstarted := htyped.started h hr
  rcases hasStarted_after.mp hstarted with hbefore | ⟨hon, hrun⟩
  · cases hbefore
  · exact ⟨hon, hrun, hstarted⟩

/-- A library that lists, for a class, a superclass and a method with ids that are none, a field with
the id of a method, and a method that is declared elsewhere. -/
def crookedLibrary : Library := .catalogue (.ofList [
  { id := "lib.B", superclass := some "lib.B.run()",
    methods := [⟨"lib.B.run", ⟨0x1⟩⟩, ⟨"lib.A.run()", ⟨0x1⟩⟩], fields := [⟨"lib.B.run()", {}⟩] },
  { id := "lib A" }])

/-- The method that is declared elsewhere. -/
def misplacedMethod : Element := ⟨"lib.A.run()", .method "lib.A" "run" [], by decide +kernel⟩

/-- The method that overrides it. -/
def crookedMethod : Element := ⟨"p.C.run()", .method "p.C" "run" [], Shape.read?_run⟩

/-- The transpose of the override of a method that is listed where it does not belong. -/
theorem stored_typed_crooked :
    crookedMethod ∈ ((create {} crookedLibrary).after
        [.intake (.ingest (.ofClass "p" "p.C" (some "lib.B") ["run"])),
          .analysis .silent]).store.range misplacedMethod Relation.overrides.transpose ∧
      Relation.overrides.transpose.accepts misplacedMethod.category crookedMethod.category
        = true := by
  have hstored : crookedMethod ∈ ((create {} crookedLibrary).after
      [.intake (.ingest (.ofClass "p" "p.C" (some "lib.B") ["run"])),
        .analysis .silent]).store.range misplacedMethod Relation.overrides.transpose := by
    decide +kernel
  exact ⟨hstored, (stored_typed {} crookedLibrary hstored).1⟩

end Session
end CodeAtlas
