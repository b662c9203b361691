import CodeAtlas.Proofs.Hierarchy.Ancestry
import CodeAtlas.Proofs.Hierarchy.Findings
import CodeAtlas.Proofs.Recording

/-!
# What taking one element does

When the analysis takes a method, it relates the method to each method that it overrides at that
point, both ways, and gives each of those that lie outside the project the modifiers that the
library declares. Nothing else in the store changes. Every later statement about the analysis goes
through the equations of this module.

## Main definitions

* `Analysis.overridden`: what an element overrides at some point of the analysis.
* `Analysis.mem_range_process`, `Analysis.modifiers_process`: the tuples and the modifiers after an
  element has been taken.
* `Library.DeclaresStatic`: whether a method is declared static outside the project.
-/
namespace CodeAtlas

/-! ## Modifiers from the library -/

/-- The inferred flag lies apart from the flag of static members. -/
@[simp] theorem Modifiers.isStatic_inferred (m : Modifiers) : m.inferred.isStatic = m.isStatic := by
  have hbits : (m.bits ||| abstractInferred.bits) &&& static.bits = m.bits &&& static.bits := by
    rw [← UInt32.toBitVec_inj]
    simp [abstractInferred, static, BitVec.and_or_distrib_right]
  unfold inferred
  split
  · show decide (_ = _) = decide (_ = _)
    rw [show (m ∪ abstractInferred).bits = m.bits ||| abstractInferred.bits from rfl, hbits]
  · rfl

/-- A library declares a member static. -/
def Library.DeclaresStatic (l : Library) (e : Element) : Prop :=
  ∃ d, l.declaration? e.key = some d ∧ d.modifiers.isStatic = true

theorem Library.inferred_of_declaration {l : Library} {e : Element} {d : Declaration}
    (h : l.declaration? e.key = some d) : l.inferred e = d.modifiers.inferred := by
  cases l with
  | absent => simp [declaration?] at h
  | catalogue c =>
    have hget : c.table[e.key]? = some d := h
    simp [inferred, modifiers_catalogue, hget]

theorem Library.inferred_of_undeclared {l : Library} {e : Element}
    (h : l.declaration? e.key = none) : l.inferred e = {} := by
  cases l with
  | absent => rfl
  | catalogue c =>
    have hget : c.table[e.key]? = none := h
    simp [inferred, modifiers_catalogue, hget]

theorem Library.isStatic_inferred {l : Library} {e : Element} :
    (l.inferred e).isStatic = true ↔ l.DeclaresStatic e := by
  unfold DeclaresStatic
  cases hd : l.declaration? e.key with
  | none =>
    rw [inferred_of_undeclared hd]
    simp only [reduceCtorEq, false_and, exists_false, iff_false]
    decide
  | some d => simp [inferred_of_declaration hd]

namespace Analysis

variable {scope : Scope} {a : Analysis} {m e x d : Element} {r : Relation} {es : List Element}

/-! ## One override -/

theorem mem_range_override :
    x ∈ (a.override scope m e).store.range d r ↔
      (d = m ∧ r = .overrides ∧ x = e) ∨ (d = e ∧ r = Relation.overrides.transpose ∧ x = m) ∨
        x ∈ a.store.range d r := by
  by_cases he : scope.project.owns e <;>
    simp [override, he, synthesize, Store.mem_range_relateBoth]

theorem modifiers_override :
    (a.override scope m e).store.modifiers x =
      if x = e ∧ scope.project.owns e = false then scope.library.inferred e
      else a.store.modifiers x := by
  by_cases he : scope.project.owns e
  · simp [override, he]
  · simp only [override, he, Bool.false_eq_true, if_false, synthesize, Store.modifiers_relateBoth,
      Store.modifiers_declare, and_true, eq_comm (a := x)]

theorem contains_override :
    (a.override scope m e).store.contains x = true ↔
      x = m ∨ x = e ∨ a.store.contains x = true := by
  by_cases he : scope.project.owns e
  · simp [override, he, Store.contains_relateBoth]
  · simp only [override, he, if_false, synthesize, Bool.false_eq_true,
      Store.contains_relateBoth, Store.contains_declare]
    grind

theorem mem_seen_override :
    x ∈ (a.override scope m e).worklist.seen ↔
      (x = e ∧ scope.project.owns e = false) ∨ x ∈ a.worklist.seen := by
  by_cases he : scope.project.owns e
  · simp [override, he]
  · simp [override, he, synthesize, Std.LawfulEqCmp.compare_eq_iff_eq, eq_comm (a := x)]

theorem override_withQueue (q : List Element) :
    (a.withQueue q).override scope m e = (a.override scope m e).withQueue q := by
  by_cases he : scope.project.owns e
  · simp only [override, he, if_true]
    rfl
  · simp only [override, he, Bool.false_eq_true, if_false]
    rfl

/-! ## All overrides of a method -/

theorem mem_range_foldl_override :
    x ∈ (es.foldl (override scope m) a).store.range d r ↔
      (d = m ∧ r = .overrides ∧ x ∈ es) ∨ (d ∈ es ∧ r = Relation.overrides.transpose ∧ x = m) ∨
        x ∈ a.store.range d r := by
  induction es generalizing a with
  | nil => simp
  | cons e es ih =>
    rw [List.foldl_cons, ih, mem_range_override, List.mem_cons, List.mem_cons]
    grind

theorem modifiers_foldl_override :
    (es.foldl (override scope m) a).store.modifiers x =
      if x ∈ es ∧ scope.project.owns x = false then scope.library.inferred x
      else a.store.modifiers x := by
  induction es generalizing a with
  | nil => simp
  | cons e es ih =>
    rw [List.foldl_cons, ih, modifiers_override]
    grind

theorem contains_foldl_override :
    (es.foldl (override scope m) a).store.contains x = true ↔
      (x = m ∧ es ≠ []) ∨ x ∈ es ∨ a.store.contains x = true := by
  induction es generalizing a with
  | nil => simp
  | cons e es ih =>
    rw [List.foldl_cons, ih, contains_override, List.mem_cons]
    grind

theorem mem_seen_foldl_override :
    x ∈ (es.foldl (override scope m) a).worklist.seen ↔
      (x ∈ es ∧ scope.project.owns x = false) ∨ x ∈ a.worklist.seen := by
  induction es generalizing a with
  | nil => simp
  | cons e es ih =>
    rw [List.foldl_cons, ih, mem_seen_override, List.mem_cons]
    grind

theorem foldl_override_withQueue (q : List Element) :
    es.foldl (override scope m) (a.withQueue q) = (es.foldl (override scope m) a).withQueue q :=
  List.foldl_hom (withQueue · q) fun _ _ => override_withQueue q

/-! ## Taking an element -/

/-- What an element overrides at some point of the analysis. -/
def overridden (scope : Scope) (a : Analysis) (m : Element) : ElementSet :=
  (a.view scope).overridden m

theorem isStatic_of_mem_overridden (h : e ∈ a.overridden scope m) :
    (a.store.modifiers e).isStatic = false :=
  View.isStatic_of_mem_overridden (v := a.view scope) h

theorem mem_range_process :
    x ∈ (a.process scope m).store.range d r ↔
      (d = m ∧ r = .overrides ∧ x ∈ a.overridden scope m) ∨
        (d ∈ a.overridden scope m ∧ r = Relation.overrides.transpose ∧ x = m) ∨
        x ∈ a.store.range d r := by
  simp [process_eq, mem_range_foldl_override, overridden]

/-- An element that is taken is related to others by overrides only. -/
theorem range_process_of_not_computed (hr : r.isComputed = false) :
    (a.process scope m).store.range d r = a.store.range d r := by
  have hforth : r ≠ .overrides := by
    rintro rfl
    simp [Relation.isComputed] at hr
  have hback : r ≠ Relation.overrides.transpose := by
    rintro rfl
    simp [Relation.isComputed] at hr
  ext x
  rw [mem_range_process]
  simp [hforth, hback]

theorem modifiers_process :
    (a.process scope m).store.modifiers x =
      if x ∈ a.overridden scope m ∧ scope.project.owns x = false then scope.library.inferred x
      else a.store.modifiers x := by
  simp only [process_eq, modifiers_foldl_override, Std.ExtTreeSet.mem_toList,
    Store.modifiers_withStatus]
  congr

theorem contains_process :
    (a.process scope m).store.contains x = true ↔
      (x = m ∧ a.overridden scope m ≠ ∅) ∨ x ∈ a.overridden scope m ∨
        a.store.contains x = true := by
  simp [process_eq, contains_foldl_override, overridden]

theorem mem_seen_process :
    x ∈ (a.process scope m).worklist.seen ↔
      (x ∈ a.overridden scope m ∧ scope.project.owns x = false) ∨ x ∈ a.worklist.seen := by
  simp [process_eq, mem_seen_foldl_override, overridden]

/-- The elements that wait are of no consequence for the one that is taken. -/
theorem process_withQueue (q : List Element) :
    (a.withQueue q).process scope m = (a.process scope m).withQueue q := by
  simp only [process_eq]
  rw [← foldl_override_withQueue]
  rfl

theorem queue_process : (a.process scope m).worklist.queue = a.worklist.queue :=
  congrArg (·.worklist.queue) (process_withQueue (a := a) a.worklist.queue)

end Analysis
end CodeAtlas
