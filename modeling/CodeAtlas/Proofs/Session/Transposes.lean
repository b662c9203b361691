import CodeAtlas.Proofs.Session.Contents
import CodeAtlas.Proofs.Session.Operations
import Mathlib.Data.Prod.Basic

/-!
# Tuples and their transposes

Each tuple is stored twice, in the record of either element, unless it is recorded without its
transpose. Nothing repairs a store in which one of the two is missing. But recording a tuple and its
transpose adds both, hierarchy analysis records overrides in no other way, and what a unit relates
without the transpose does no harm if it is there already. So a session that never adds a tuple
without its transpose has the transpose of every tuple.

## Main definitions

* `Store.Mirrored`: the transpose of every tuple is stored.
* `Operation.addsInPairs`, `Session.addsInPairs`: whether no tuple is added without its transpose.
* `Store.relateBoth_transpose`: a tuple and its transpose may be given either way around.
* `Session.stored_with_transpose`: what is stored together with its transpose.
-/
namespace CodeAtlas

theorem Relation.transpose_ne (r : Relation) : r.transpose ≠ r := by
  obtain ⟨link, reversed⟩ := r
  cases reversed <;> simp [transpose]

/-! ## Records -/

namespace Record

variable {c : Record} {r q : Relation} {e x : Element}

/-- To relate an element again changes nothing. -/
theorem insert_of_mem (h : e ∈ c.range r) : c.insert r e = c := by
  have hrange : (c.range r).insert e = c.range r := by
    ext x
    simp only [Std.ExtTreeSet.mem_insert, Std.LawfulEqCmp.compare_eq_iff_eq]
    constructor
    · rintro (rfl | hx)
      · exact h
      · exact hx
    · exact .inr
  have hranges : c.ranges.insert r (c.range r) = c.ranges := by
    apply Std.ExtTreeMap.ext_getElem?
    intro q
    rw [Std.ExtTreeMap.getElem?_insert]
    split
    next hq =>
      obtain rfl := Std.LawfulEqCmp.eq_of_compare hq
      cases hget : c.ranges[r]? with
      | none => simp [range, hget] at h
      | some es => simp [range, hget]
    next => rfl
  rw [insert, hrange, hranges]

theorem range_insert_of_ne (h : q ≠ r) : (c.insert r e).range q = c.range q := by
  ext x
  rw [mem_range_insert]
  simp [h]

/-- Of two relations it does not matter which is recorded first. -/
theorem insert_comm (h : r ≠ q) : (c.insert r e).insert q x = (c.insert q x).insert r e := by
  have hranges : ((c.insert r e).insert q x).ranges = ((c.insert q x).insert r e).ranges := by
    apply Std.ExtTreeMap.ext_getElem?
    intro p
    show ((c.insert r e).ranges.insert q (((c.insert r e).range q).insert x))[p]?
      = ((c.insert q x).ranges.insert r (((c.insert q x).range r).insert e))[p]?
    rw [range_insert_of_ne h.symm, range_insert_of_ne h]
    simp only [insert, Std.ExtTreeMap.getElem?_insert, Std.LawfulEqCmp.compare_eq_iff_eq]
    grind
  exact congrArg (fun ranges => ({ c with ranges } : Record)) hranges

end Record

/-! ## Recording both ways -/

namespace Store

variable {s : Store} {d e a x : Element} {r q : Relation} {m : Modifiers}

theorem record_relate :
    (s.relate d r e).2.record a = if d = a then (s.record d).insert r e else s.record a := by
  by_cases h : e ∈ s.range d r
  · rw [relate_of_mem h, record_register, record_register]
    split
    next hd => rw [← hd, Record.insert_of_mem h]
    next => rfl
  · simp [relate_of_notMem h, record_insert]

theorem tupleCount_relate :
    (s.relate d r e).2.tupleCount = s.tupleCount + if e ∈ s.range d r then 0 else 1 := by
  by_cases h : e ∈ s.range d r
  · rw [relate_of_mem h, if_pos h]
    rfl
  · rw [relate_of_notMem h, if_neg h]
    rfl

/-- Tuples of two relations may be recorded in either order. -/
theorem relate_comm (h : r ≠ q) :
    ((s.relate d r e).2.relate a q x).2 = ((s.relate a q x).2.relate d r e).2 := by
  refine eq_of_record ?_ ?_ ?_ ?_
  · intro y
    rw [Bool.eq_iff_iff]
    simp only [contains_relate]
    tauto
  · intro y
    simp only [record_relate]
    by_cases hd : d = y <;> by_cases ha : a = y <;>
      simp [hd, ha, Record.insert_comm h]
  · simp only [tupleCount_relate, range_relate_of_ne h.symm, range_relate_of_ne h]
    omega
  · simp only [status_relate]

theorem relateBoth_eq_true :
    (s.relateBoth d r e).1 = true ↔ e ∉ s.range d r ∨ d ∉ s.range e r.transpose := by
  have hother : (s.relate d r e).2.range e r.transpose = s.range e r.transpose :=
    range_relate_of_ne r.transpose_ne
  simp only [relateBoth, Bool.or_eq_true, relate_eq_true, hother]

/-- **A tuple and its transpose may be given either way around.** -/
theorem relateBoth_transpose :
    s.relateBoth d r e = s.relateBoth e r.transpose d := by
  apply Prod.ext
  · rw [Bool.eq_iff_iff, relateBoth_eq_true, relateBoth_eq_true, Relation.transpose_transpose,
      or_comm]
  · simp only [relateBoth, Relation.transpose_transpose]
    exact relate_comm r.transpose_ne.symm

/-! ## Mirrored stores -/

/-- The transpose of every tuple is stored. -/
def Mirrored (s : Store) : Prop :=
  ∀ (d : Element) (r : Relation) (e : Element), e ∈ s.range d r → d ∈ s.range e r.transpose

namespace Mirrored

theorem empty : Store.empty.Mirrored := by
  intro d r e he
  simp [Store.empty, range, record] at he

theorem mem_range_iff (h : s.Mirrored) : e ∈ s.range d r ↔ d ∈ s.range e r.transpose := by
  constructor
  · exact h d r e
  · intro hd
    have hback := h e r.transpose d hd
    rwa [Relation.transpose_transpose] at hback

/-- A relation has as many tuples as its transpose. -/
theorem tuplesOf_eq (h : s.Mirrored) (r : Relation) : s.tuplesOf r = s.tuplesOf r.transpose := by
  have hperm : ((s.pairs r).map Prod.swap).Perm (s.pairs r.transpose) := by
    refine (List.perm_ext_iff_of_nodup ?_ (s.nodup_pairs _)).mpr ?_
    · exact (s.nodup_pairs r).map Prod.swap_injective
    · rintro ⟨e, d⟩
      rw [mem_pairs, ← h.mem_range_iff, ← mem_pairs]
      simp
  rw [← length_pairs, ← length_pairs, ← hperm.length_eq, List.length_map]

theorem declare (h : s.Mirrored) : (s.declare a m).Mirrored := by
  intro d r e he
  rw [range_declare] at he ⊢
  exact h d r e he

theorem withStatus (h : s.Mirrored) (status : Status) : (s.withStatus status).Mirrored := h

/-- A tuple that is there already may be recorded without its transpose. -/
theorem relate (h : s.Mirrored) (hold : e ∈ s.range d r) : (s.relate d r e).2.Mirrored := by
  rw [relate_of_mem hold]
  intro a q x hx
  rw [range_register, range_register] at hx ⊢
  exact h a q x hx

theorem relateBoth (h : s.Mirrored) : (s.relateBoth d r e).2.Mirrored := by
  intro a q x hx
  rw [mem_range_relateBoth] at hx ⊢
  rcases hx with ⟨rfl, rfl, rfl⟩ | ⟨rfl, rfl, rfl⟩ | hx
  · exact .inr (.inl ⟨rfl, rfl, rfl⟩)
  · exact .inl ⟨rfl, r.transpose_transpose, rfl⟩
  · exact .inr (.inr (h a q x hx))

end Mirrored
end Store

/-! ## Analysis -/

namespace Analysis

variable {scope : Scope} {a : Analysis} {m : Element}

/-- An element is taken with both directions of what it overrides. -/
theorem mirrored_process (h : a.store.Mirrored) : (a.process scope m).store.Mirrored := by
  intro d r e he
  rw [mem_range_process] at he ⊢
  rcases he with ⟨rfl, rfl, he⟩ | ⟨hd, rfl, rfl⟩ | he
  · exact .inr (.inl ⟨he, rfl, rfl⟩)
  · exact .inl ⟨rfl, rfl, hd⟩
  · exact .inr (.inr (h d r e he))

end Analysis

/-! ## Operations that add no tuple without its transpose -/

/-- Whether an entry adds no tuple without its transpose. -/
def UnitEntry.addsInPairs (s : Store) : UnitEntry → Bool
  | element _ => true
  | relation f =>
    f.transpose ||
      match Element.read? f.domain, Element.read? f.range with
      | some d, some e => e ∈ s.range d f.relation
      | _, _ => true

/-- Whether entries that are recorded one after the other add no tuple without its transpose. -/
def Store.addsInPairs : Store → List UnitEntry → Bool
  | _, [] => true
  | s, f :: rest => f.addsInPairs s && (s.enter f).addsInPairs rest

/-- Whether an operation adds no tuple without its transpose. -/
def Operation.addsInPairs (s : Session) : Operation → Bool
  | call (.intake i) =>
    s.store.addsInPairs ((i.units s.settings.failFast).flatMap SourceUnit.entries)
  | relate d r e => e ∈ s.store.range d r
  | call (.analysis _) | relateBoth .. | ask _ => true

/-- Whether no operation of a list adds a tuple without its transpose. -/
def Session.addsInPairs : Session → List Operation → Bool
  | _, [] => true
  | s, o :: rest => o.addsInPairs s && (s.perform o).addsInPairs rest

namespace Store.Mirrored

variable {s : Store} {f : UnitEntry} {es : List UnitEntry}

theorem enter (h : s.Mirrored) (hf : f.addsInPairs s = true) : (s.enter f).Mirrored := by
  cases f with
  | element f =>
    rw [Store.enter, takeElement]
    split
    · exact h.declare
    · exact h
  | relation f =>
    rw [UnitEntry.addsInPairs] at hf
    rw [Store.enter, takeRelation]
    split
    next d e hd he =>
      rw [hd, he, Bool.or_eq_true, decide_eq_true_eq] at hf
      split
      · exact h.relateBoth
      next hsingle => exact h.relate (hf.resolve_left hsingle)
    next => exact h

theorem foldl_enter (h : s.Mirrored) (hes : s.addsInPairs es = true) :
    (es.foldl Store.enter s).Mirrored := by
  induction es generalizing s with
  | nil => exact h
  | cons f es ih =>
    rw [addsInPairs, Bool.and_eq_true] at hes
    exact ih (h.enter hes.1) hes.2

end Store.Mirrored

namespace Session

variable {s : Session} {o : Operation} {ops : List Operation}

theorem mirrored_perform (h : s.store.Mirrored) (ho : o.addsInPairs s = true) :
    (s.perform o).store.Mirrored := by
  cases o with
  | call c =>
    cases c with
    | intake i =>
      show (s.intake i).store.Mirrored
      rw [store_intake]
      exact h.foldl_enter ho
    | analysis r =>
      exact run_induction (fun _ _ ha => Analysis.mirrored_process ha)
        (fun _ status ht => ht.withStatus status) h
  | relate d r e => exact h.relate (of_decide_eq_true ho)
  | relateBoth d r e => exact h.relateBoth
  | ask q =>
    show (s.asked q).store.Mirrored
    rw [store_asked]
    exact h

theorem mirrored_performAll (h : s.store.Mirrored) (hops : s.addsInPairs ops = true) :
    (s.performAll ops).store.Mirrored := by
  induction ops generalizing s with
  | nil => exact h
  | cons o ops ih =>
    rw [addsInPairs, Bool.and_eq_true] at hops
    rw [performAll_cons]
    exact ih (mirrored_perform h hops.1) hops.2

/-- **What is stored is stored with its transpose.** Whatever a session is asked to do, as long as
none of it adds a tuple without its transpose, a tuple is stored if and only if its transpose is,
and a relation has as many tuples as its transpose. To record a tuple with its transpose does the
same to any store from either end, and it is new unless both were there. -/
theorem stored_with_transpose (settings : Settings) (library : Library) (ops : List Operation)
    (h : (create settings library).addsInPairs ops = true) :
    (∀ d r e, e ∈ ((create settings library).performAll ops).store.range d r ↔
      d ∈ ((create settings library).performAll ops).store.range e r.transpose) ∧
    (∀ r, ((create settings library).performAll ops).store.tuplesOf r
      = ((create settings library).performAll ops).store.tuplesOf r.transpose) ∧
    ∀ (s : Store) d r e, s.relateBoth d r e = s.relateBoth e r.transpose d ∧
      ((s.relateBoth d r e).1 = true ↔ e ∉ s.range d r ∨ d ∉ s.range e r.transpose) := by
  have hmirrored : ((create settings library).performAll ops).store.Mirrored :=
    mirrored_performAll Store.Mirrored.empty h
  refine ⟨fun d r e => hmirrored.mem_range_iff, hmirrored.tuplesOf_eq, fun s d r e => ?_⟩
  exact ⟨Store.relateBoth_transpose, Store.relateBoth_eq_true⟩

/-- A method that calls itself. -/
def recursiveMethod : Element := ⟨"p.C.run()", .method "p.C" "run" [], Shape.read?_run⟩

/-- The method of the superclass. -/
def plainMethod : Element := ⟨"p.A.run()", .method "p.A" "run" [], by decide +kernel⟩

/-- A call of a method by itself, a transpose that comes first, and a tuple without its transpose
that is stored by then. -/
def recursiveUnit : SourceUnit where
  path := "p/Main.java"
  relations :=
    [⟨⟨.method, "p.C.run()"⟩, ⟨.calls, false⟩, ⟨.method, "p.C.run()"⟩, true⟩,
      ⟨⟨.method, "p.C.run()"⟩, ⟨.declaresMethod, true⟩, ⟨.type, "p.C"⟩, true⟩,
      ⟨⟨.type, "p.C"⟩, .declaresMethod, ⟨.method, "p.C.run()"⟩, false⟩]

/-- Units, an analysis, the override that it has found once more, and a tuple from the right. -/
def recursiveOperations : List Operation :=
  [.call (.intake (.ingest recursiveUnit)),
    .call (.intake (.ingest (.ofClass "p" "p.C" (some "p.A") ["run"]))),
    .call (.intake (.ingest (.ofClass "p" "p.A" none ["run"]))),
    .call (.analysis .silent), .relate recursiveMethod .overrides plainMethod,
    .relateBoth plainMethod ⟨.calls, true⟩ recursiveMethod, .ask (.lookup ⟨.type, "p.D"⟩)]

/-- The override that the analysis has found is stored from either end. -/
theorem stored_with_transpose_recursive :
    plainMethod ∈ ((create {} .absent).performAll recursiveOperations).store.range
        recursiveMethod .overrides ∧
      recursiveMethod ∈ ((create {} .absent).performAll recursiveOperations).store.range
        plainMethod Relation.overrides.transpose ∧
      ((create {} .absent).performAll recursiveOperations).store.tuplesOf ⟨.calls, true⟩ = 2 := by
  obtain ⟨hrange, hcount, -⟩ :=
    stored_with_transpose {} .absent recursiveOperations (by decide +kernel)
  have hend : plainMethod ∈ ((create {} .absent).performAll recursiveOperations).store.range
        recursiveMethod .overrides ∧
      ((create {} .absent).performAll recursiveOperations).store.tuplesOf ⟨.calls, false⟩ = 2 := by
    decide +kernel
  obtain ⟨hstored, hcalls⟩ := hend
  exact ⟨hstored, (hrange _ _ _).mp hstored, (hcount ⟨.calls, false⟩).symm.trans hcalls⟩

end Session
end CodeAtlas
