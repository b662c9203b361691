import CodeAtlas.Proofs.Recording
import Mathlib.Data.List.Nodup
import Mathlib.Data.List.Perm.Basic

/-!
# The tuples of a store

A store keeps what an element is related to in the record of the element, one range for each
relation, and counts tuples as they come. Listed one by one, the tuples are the ranges again, each
tuple once. Recording keeps the count equal to the length of that list and keeps no range that is
empty. So two stores in which the same elements are known, with the same modifiers and the same
ranges, are the same store.

## Main definitions

* `Store.pairs`, `Store.tuples`: the tuples of one relation and of all relations.
* `Store.Tidy`: the count is right and no empty range is kept.
* `Store.eq_of_record`, `Store.Tidy.eq_of_range`: when two stores are the same.
-/
namespace CodeAtlas

theorem Relation.mem_all (r : Relation) : r ∈ all := by
  obtain ⟨link, reversed⟩ := r
  cases link <;> cases reversed <;> decide

theorem Relation.nodup_all : all.Nodup := by decide

theorem ElementSet.nodup_toList (es : ElementSet) : es.toList.Nodup := by
  refine es.distinct_toList.imp ?_
  rintro a b hab rfl
  exact hab Std.ReflCmp.compare_self

/-- A list without repetitions that has one member more than another is the other with that member in
front of it, in some order. -/
theorem perm_cons_of_nodup {α : Type} {l l' : List α} {x : α} (hl : l.Nodup) (hl' : l'.Nodup)
    (hx : x ∉ l) (h : ∀ y, y ∈ l' ↔ y = x ∨ y ∈ l) : l'.Perm (x :: l) := by
  refine (List.perm_ext_iff_of_nodup hl' (List.nodup_cons.mpr ⟨hx, hl⟩)).mpr fun y => ?_
  rw [h, List.mem_cons]

namespace Store

variable {s t : Store} {d e a x : Element} {r q : Relation} {m : Modifiers}

/-! ## Tuples as lists -/

/-- The tuples of a relation. -/
def pairs (s : Store) (r : Relation) : List (Element × Element) :=
  s.elements.flatMap fun d => (s.range d r).toList.map (d, ·)

/-- All tuples. -/
def tuples (s : Store) : List (Element × Relation × Element) :=
  Relation.all.flatMap fun r => (s.pairs r).map fun p => (p.1, r, p.2)

theorem record_of_unknown (h : s.contains d = false) : s.record d = {} := by
  have hnone : s.records[d]? = none := Std.ExtTreeMap.getElem?_eq_none_of_contains_eq_false h
  simp [record, hnone]

theorem mem_pairs : (d, e) ∈ s.pairs r ↔ e ∈ s.range d r := by
  simp only [pairs, List.mem_flatMap, List.mem_map, Prod.mk.injEq, mem_elements,
    Std.ExtTreeSet.mem_toList]
  constructor
  · rintro ⟨d', -, e', he, rfl, rfl⟩
    exact he
  · intro he
    refine ⟨d, ?_, e, he, rfl, rfl⟩
    cases hd : s.contains d with
    | true => rfl
    | false => simp [range, record_of_unknown hd] at he

theorem nodup_pairs (s : Store) (r : Relation) : (s.pairs r).Nodup := by
  refine List.nodup_flatMap.mpr ⟨fun d _ => ?_, ?_⟩
  · exact (ElementSet.nodup_toList _).map fun _ _ h => (Prod.mk.inj h).2
  · have hkeys : s.elements.Nodup := s.records.nodup_keys
    refine hkeys.imp ?_
    intro d d' hd p hp hp'
    obtain ⟨e, -, rfl⟩ := List.mem_map.mp hp
    obtain ⟨e', -, h⟩ := List.mem_map.mp hp'
    exact hd (Prod.mk.inj h).1.symm

/-- The tuples of a relation are counted record by record. -/
theorem length_pairs (s : Store) (r : Relation) : (s.pairs r).length = s.tuplesOf r := by
  have hlist : s.pairs r
      = s.records.toList.flatMap fun entry => (entry.2.range r).toList.map (entry.1, ·) := by
    rw [pairs, elements, ← Std.ExtTreeMap.map_fst_toList_eq_keys, List.flatMap_map]
    refine List.flatMap_congr ?_
    rintro ⟨d, c⟩ hdc
    have hd : s.records[d]? = some c := Std.ExtTreeMap.mem_toList_iff_getElem?_eq_some.mp hdc
    simp [range, record, hd]
  rw [hlist, tuplesOf, Std.ExtTreeMap.foldr_eq_foldr_toList]
  induction s.records.toList with
  | nil => rfl
  | cons entry rest ih => simp [ih]

theorem mem_tuples : (d, r, e) ∈ s.tuples ↔ e ∈ s.range d r := by
  rw [← mem_pairs]
  simp only [tuples, List.mem_flatMap, List.mem_map, Prod.mk.injEq]
  constructor
  · rintro ⟨r', -, ⟨d', e'⟩, hp, rfl, rfl, rfl⟩
    exact hp
  · intro hp
    exact ⟨r, r.mem_all, (d, e), hp, rfl, rfl, rfl⟩

theorem nodup_tuples (s : Store) : s.tuples.Nodup := by
  refine List.nodup_flatMap.mpr ⟨fun r _ => ?_, ?_⟩
  · refine (s.nodup_pairs r).map ?_
    rintro ⟨d, e⟩ ⟨d', e'⟩ h
    simp_all
  · refine Relation.nodup_all.imp ?_
    intro r r' hr p hp hp'
    obtain ⟨_, -, rfl⟩ := List.mem_map.mp hp
    obtain ⟨_, -, h⟩ := List.mem_map.mp hp'
    simp only [Prod.mk.injEq] at h
    exact hr h.2.1.symm

/-- Stores with the same ranges have the same tuples. -/
theorem perm_tuples (h : ∀ d r, s.range d r = t.range d r) : s.tuples.Perm t.tuples := by
  refine (List.perm_ext_iff_of_nodup s.nodup_tuples t.nodup_tuples).mpr ?_
  rintro ⟨d, r, e⟩
  rw [mem_tuples, mem_tuples, h]

/-- A tuple that is recorded for the first time is one more. -/
theorem perm_tuples_insert (h : e ∈ s.records) (hnew : e ∉ s.range d r) :
    (s.insert d r e h).tuples.Perm ((d, r, e) :: s.tuples) := by
  refine perm_cons_of_nodup s.nodup_tuples (nodup_tuples _) (mt mem_tuples.mp hnew) ?_
  rintro ⟨a, q, x⟩
  rw [mem_tuples, mem_range_insert, mem_tuples, Prod.mk.injEq, Prod.mk.injEq]

/-! ## Tidy stores -/

/-- The count of tuples is right, and no range is kept that is empty. -/
structure Tidy (s : Store) : Prop where
  counted : s.tupleCount = s.tuples.length
  nonempty : ∀ (d : Element) (r : Relation), (s.record d).ranges[r]? ≠ some (∅ : ElementSet)

theorem tidy_empty : empty.Tidy := by
  constructor
  · have hnone : ∀ t, t ∉ empty.tuples := by
      rintro ⟨d, r, e⟩ ht
      simp [mem_tuples, empty, range, record] at ht
    rw [List.eq_nil_iff_forall_not_mem.mpr hnone]
    rfl
  · intro d r
    simp [empty, record]

theorem Tidy.register (h : s.Tidy) (e : Element) : (s.register e).Tidy where
  counted := h.counted.trans (perm_tuples fun d r => (range_register s e d r).symm).length_eq
  nonempty d r := by
    rw [record_register]
    exact h.nonempty d r

theorem Tidy.declare (h : s.Tidy) (e : Element) (m : Modifiers) : (s.declare e m).Tidy where
  counted := h.counted.trans (perm_tuples fun d r => (range_declare s e d m r).symm).length_eq
  nonempty d r := by
    rw [record_declare]
    split
    · exact h.nonempty e r
    · exact h.nonempty d r

theorem Record.ranges_insert_ne_empty {c : Record}
    (h : ∀ q : Relation, c.ranges[q]? ≠ some (∅ : ElementSet)) :
    (c.insert r e).ranges[q]? ≠ some (∅ : ElementSet) := by
  intro hq
  have hmem : e ∈ (c.range r).insert e := by simp
  simp only [Record.insert, Std.ExtTreeMap.getElem?_insert] at hq
  split at hq
  · rw [Option.some.inj hq] at hmem
    simp at hmem
  · exact h q hq

theorem Tidy.relate (h : s.Tidy) (d : Element) (r : Relation) (e : Element) :
    (s.relate d r e).2.Tidy := by
  have hknown : ((s.register e).register d).Tidy := (h.register e).register d
  by_cases hnew : e ∈ s.range d r
  · rw [relate_of_mem hnew]
    exact hknown
  · rw [relate_of_notMem hnew]
    constructor
    · have hperm := perm_tuples_insert (s := (s.register e).register d) (d := d) (r := r)
        (known_register.mpr (.inr (known_register.mpr (.inl rfl)))) (by simpa using hnew)
      rw [hperm.length_eq, List.length_cons, ← hknown.counted]
      rfl
    · intro a q
      rw [record_insert]
      split
      · exact Record.ranges_insert_ne_empty (hknown.nonempty d)
      · exact hknown.nonempty a q

/-! ## When two stores are the same -/

theorem getElem?_records (s : Store) (e : Element) :
    s.records[e]? = if s.contains e then some (s.record e) else none := by
  cases h : s.records[e]? with
  | none =>
    have hnot : s.contains e = false := by
      rw [contains, Std.ExtTreeMap.contains_eq_isSome_getElem?, h]
      rfl
    simp [hnot]
  | some c =>
    have hknown : s.contains e = true := by
      rw [contains, Std.ExtTreeMap.contains_eq_isSome_getElem?, h]
      rfl
    simp [hknown, record, h]

/-- A store is told by the known elements, their records, its count and its status. -/
theorem eq_of_record (hcontains : ∀ e, s.contains e = t.contains e)
    (hrecord : ∀ e, s.record e = t.record e) (hcount : s.tupleCount = t.tupleCount)
    (hstatus : s.status = t.status) : s = t := by
  have hrecords : s.records = t.records := by
    apply Std.ExtTreeMap.ext_getElem?
    intro e
    rw [getElem?_records, getElem?_records, hcontains, hrecord]
  cases s
  cases t
  simp_all

/-- Tidy stores are told by what can be asked of them. -/
theorem Tidy.eq_of_range (hs : s.Tidy) (ht : t.Tidy)
    (hcontains : ∀ e, s.contains e = t.contains e) (hmodifiers : ∀ e, s.modifiers e = t.modifiers e)
    (hrange : ∀ d r, s.range d r = t.range d r) (hstatus : s.status = t.status) : s = t := by
  refine eq_of_record hcontains ?_ ?_ hstatus
  · intro e
    have hranges : (s.record e).ranges = (t.record e).ranges := by
      apply Std.ExtTreeMap.ext_getElem?
      intro r
      have hr := hrange e r
      have hs := hs.nonempty e r
      have ht := ht.nonempty e r
      simp only [range, Record.range] at hr
      cases hc : (s.record e).ranges[r]? <;> cases hc' : (t.record e).ranges[r]? <;> simp_all
    have hmods := hmodifiers e
    simp only [modifiers] at hmods
    cases hc : s.record e
    cases hc' : t.record e
    simp_all
  · rw [hs.counted, ht.counted, (perm_tuples hrange).length_eq]

end Store
end CodeAtlas
