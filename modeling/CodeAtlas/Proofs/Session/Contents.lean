import CodeAtlas.Proofs.Session.Acceptance
import CodeAtlas.Proofs.Tuples

/-!
# What a store holds of the units taken in

Recording units is recording their entries one after the other. An element is known afterwards if an
entry names it, two elements are related if an entry relates them, and an element has the modifiers
that an entry declares it with. The first two do not depend on the order of the entries, and neither
does the third if no element is declared with different modifiers. So a session that takes units in
holds the same facts whatever their order is and however often each of them comes.

## Main definitions

* `Store.enter`: record one entry.
* `UnitEntry.Names`, `UnitEntry.Relates`, `UnitEntry.Declares`: what an entry says.
* `Store.foldl_enter_eq`: entries that say the same leave the same store.
* `Session.ingested_eq`: units that are the same leave the same facts.
-/
namespace CodeAtlas

/-! ## Entries -/

namespace UnitEntry

/-- An entry names an element. -/
def Names (x : Element) : UnitEntry → Prop
  | element f => f.key = x.key
  | relation f => f.domain = x.key ∨ f.range = x.key

/-- An entry relates an element to another, as it stands or by the transpose that goes with it. -/
def Relates (d : Element) (r : Relation) (x : Element) : UnitEntry → Prop
  | element _ => False
  | relation f =>
    (f.domain = d.key ∧ f.relation = r ∧ f.range = x.key) ∨
      (f.transpose = true ∧ f.domain = x.key ∧ f.relation.transpose = r ∧ f.range = d.key)

/-- An entry declares an element with modifiers. -/
def Declares (x : Element) (m : Modifiers) : UnitEntry → Prop
  | element f => f.key = x.key ∧ f.modifiers = m
  | relation _ => False

end UnitEntry

theorem Element.key_inj {a b : Element} : a.key = b.key ↔ a = b :=
  ⟨key_injective, congrArg key⟩

namespace Store

variable {s : Store} {d e x : Element} {r : Relation} {m : Modifiers} {f : UnitEntry}
  {es : List UnitEntry}

/-- Record an entry of a unit. -/
def enter (s : Store) : UnitEntry → Store
  | .element f => s.takeElement f
  | .relation f => s.takeRelation f

/-- Recording a unit is recording its entries in their order. -/
theorem take_eq_foldl_enter (s : Store) (u : SourceUnit) : s.take u = u.entries.foldl enter s := by
  simp only [take, SourceUnit.entries, List.foldl_append, List.foldl_map, enter]

theorem foldl_take_eq_foldl_enter (s : Store) (us : List SourceUnit) :
    us.foldl take s = (us.flatMap SourceUnit.entries).foldl enter s := by
  rw [List.foldl_flatMap]
  exact congrArg (us.foldl · s) (by funext s u; exact s.take_eq_foldl_enter u)

theorem enter_element {f : ElementFact} (h : e.key = f.key) :
    s.enter (.element f) = s.declare e f.modifiers := by
  simp [enter, takeElement, ← h]

theorem enter_relation {f : RelationFact} (hd : d.key = f.domain) (he : e.key = f.range) :
    s.enter (.relation f) =
      if f.transpose then (s.relateBoth d f.relation e).2 else (s.relate d f.relation e).2 := by
  simp [enter, takeRelation, ← hd, ← he]

/-! ## One entry -/

theorem contains_enter (h : f.Valid) :
    (s.enter f).contains x = true ↔ f.Names x ∨ s.contains x = true := by
  cases f with
  | element f =>
    obtain ⟨e, he⟩ := h
    rw [enter_element he, contains_declare, UnitEntry.Names, ← he, Element.key_inj, eq_comm]
  | relation f =>
    obtain ⟨-, -, ⟨d, hd⟩, e, he⟩ := h
    rw [enter_relation hd he, UnitEntry.Names, ← hd, ← he, Element.key_inj, Element.key_inj,
      or_assoc, eq_comm (a := d), eq_comm (a := e)]
    split
    · exact contains_relateBoth
    · exact contains_relate

theorem mem_range_enter (h : f.Valid) :
    x ∈ (s.enter f).range d r ↔ f.Relates d r x ∨ x ∈ s.range d r := by
  cases f with
  | element f =>
    obtain ⟨e, he⟩ := h
    simp only [enter_element he, range_declare, UnitEntry.Relates, false_or]
  | relation f =>
    obtain ⟨-, -, ⟨a, ha⟩, b, hb⟩ := h
    rw [enter_relation ha hb, UnitEntry.Relates, ← ha, ← hb]
    simp only [Element.key_inj]
    cases f.transpose with
    | true =>
      rw [if_pos rfl, mem_range_relateBoth]
      grind
    | false =>
      rw [if_neg Bool.false_ne_true, mem_range_relate]
      grind

theorem modifiers_enter (h : f.Declares x m) : (s.enter f).modifiers x = m := by
  cases f with
  | element f =>
    obtain ⟨hx, rfl⟩ := h
    rw [enter_element hx.symm, modifiers_declare, if_pos rfl]
  | relation f => exact h.elim

theorem modifiers_enter_of_not (hf : f.Valid) (h : ∀ m, ¬ f.Declares x m) :
    (s.enter f).modifiers x = s.modifiers x := by
  cases f with
  | element f =>
    obtain ⟨e, he⟩ := hf
    have hne : e ≠ x := by
      rintro rfl
      exact h _ ⟨he.symm, rfl⟩
    rw [enter_element he, modifiers_declare, if_neg hne]
  | relation f =>
    obtain ⟨-, -, ⟨d, hd⟩, e, he⟩ := hf
    rw [enter_relation hd he]
    split
    · exact modifiers_relateBoth
    · exact modifiers_relate

theorem status_relate : (s.relate d r e).2.status = s.status := by
  by_cases h : e ∈ s.range d r
  · rw [relate_of_mem h]
    rfl
  · rw [relate_of_notMem h]
    rfl

/-- Recording an entry comes down to declaring an element and relating elements. -/
theorem enter_induction {P : Store → Prop} (hdeclare : ∀ s e m, P s → P (s.declare e m))
    (hrelate : ∀ s d r e, P s → P (s.relate d r e).2) (h : P s) : P (s.enter f) := by
  cases f with
  | element f =>
    rw [enter, takeElement]
    split
    · exact hdeclare _ _ _ h
    · exact h
  | relation f =>
    rw [enter, takeRelation]
    split
    · split
      · exact hrelate _ _ _ _ (hrelate _ _ _ _ h)
      · exact hrelate _ _ _ _ h
    · exact h

theorem Tidy.enter (h : s.Tidy) : (s.enter f).Tidy :=
  enter_induction (fun _ e m h => h.declare e m) (fun _ d r e h => h.relate d r e) h

theorem status_enter : (s.enter f).status = s.status :=
  enter_induction (P := fun t => t.status = s.status) (fun _ _ _ h => h)
    (fun _ _ _ _ h => status_relate.trans h) rfl

/-! ## All entries -/

theorem contains_foldl_enter (h : ∀ f ∈ es, f.Valid) :
    (es.foldl enter s).contains x = true ↔ (∃ f ∈ es, f.Names x) ∨ s.contains x = true :=
  foldl_iff_exists (Q := fun t : Store => t.contains x = true) fun _ f hf =>
    contains_enter (h f hf)

theorem mem_range_foldl_enter (h : ∀ f ∈ es, f.Valid) :
    x ∈ (es.foldl enter s).range d r ↔ (∃ f ∈ es, f.Relates d r x) ∨ x ∈ s.range d r :=
  foldl_iff_exists (Q := fun t : Store => x ∈ t.range d r) fun _ f hf => mem_range_enter (h f hf)

theorem modifiers_foldl_enter_of_not (h : ∀ f ∈ es, f.Valid)
    (hnot : ∀ f ∈ es, ∀ m, ¬ f.Declares x m) : (es.foldl enter s).modifiers x = s.modifiers x := by
  induction es generalizing s with
  | nil => rfl
  | cons f es ih =>
    obtain ⟨hf, hes⟩ := List.forall_mem_cons.mp h
    obtain ⟨hfx, hesx⟩ := List.forall_mem_cons.mp hnot
    rw [List.foldl_cons, ih hes hesx, modifiers_enter_of_not hf hfx]

/-- An element that is declared with some modifiers and with no others has these. -/
theorem modifiers_foldl_enter (h : ∀ f ∈ es, f.Valid) (hdecl : ∃ f ∈ es, f.Declares x m)
    (honly : ∀ f ∈ es, ∀ m', f.Declares x m' → m' = m) : (es.foldl enter s).modifiers x = m := by
  induction es generalizing s with
  | nil => simp at hdecl
  | cons f es ih =>
    obtain ⟨-, hes⟩ := List.forall_mem_cons.mp h
    obtain ⟨-, hesx⟩ := List.forall_mem_cons.mp honly
    rw [List.exists_mem_cons_iff] at hdecl
    rw [List.foldl_cons]
    by_cases hlater : ∃ g ∈ es, g.Declares x m
    · exact ih hes hlater hesx
    · have hfirst : f.Declares x m := hdecl.resolve_right hlater
      have hrest : ∀ g ∈ es, ∀ m', ¬ g.Declares x m' := by
        intro g hg m' hm'
        obtain rfl := hesx g hg m' hm'
        exact hlater ⟨g, hg, hm'⟩
      rw [modifiers_foldl_enter_of_not hes hrest, modifiers_enter hfirst]

theorem tidy_foldl_enter (h : s.Tidy) : (es.foldl enter s).Tidy :=
  List.foldlRecOn es enter h fun _ ht _ _ => ht.enter

theorem status_foldl_enter : (es.foldl enter s).status = s.status :=
  List.foldlRecOn (motive := fun t : Store => t.status = s.status) es enter rfl
    fun _ ht _ _ => status_enter.trans ht

/-- **Entries leave the same store in any order and with any repetitions**, if no element is
declared with different modifiers. -/
theorem foldl_enter_eq {fs : List UnitEntry} (hs : s.Tidy) (hvalid : ∀ f ∈ es, f.Valid)
    (hsame : ∀ f, f ∈ es ↔ f ∈ fs)
    (hagree : ∀ x m m', (∃ f ∈ es, f.Declares x m) → (∃ f ∈ es, f.Declares x m') → m = m') :
    es.foldl enter s = fs.foldl enter s := by
  have hvalid' : ∀ f ∈ fs, f.Valid := fun f hf => hvalid f ((hsame f).mpr hf)
  have hexists : ∀ P : UnitEntry → Prop, (∃ f ∈ es, P f) ↔ ∃ f ∈ fs, P f := by
    intro P
    simp only [hsame]
  refine (tidy_foldl_enter hs).eq_of_range (tidy_foldl_enter hs) ?_ ?_ ?_ ?_
  · intro e
    rw [Bool.eq_iff_iff, contains_foldl_enter hvalid, contains_foldl_enter hvalid', hexists]
  · intro e
    by_cases hdecl : ∃ m, ∃ f ∈ es, f.Declares e m
    · obtain ⟨m, hm⟩ := hdecl
      have honly : ∀ f ∈ es, ∀ m', f.Declares e m' → m' = m :=
        fun f hf m' hm' => hagree e m' m ⟨f, hf, hm'⟩ hm
      rw [modifiers_foldl_enter hvalid hm honly,
        modifiers_foldl_enter hvalid' ((hexists _).mp hm) fun f hf => honly f ((hsame f).mpr hf)]
    · have hnot : ∀ f ∈ es, ∀ m, ¬ f.Declares e m := fun f hf m hm => hdecl ⟨m, f, hf, hm⟩
      rw [modifiers_foldl_enter_of_not hvalid hnot,
        modifiers_foldl_enter_of_not hvalid' fun f hf => hnot f ((hsame f).mpr hf)]
  · intro d r
    ext x
    rw [mem_range_foldl_enter hvalid, mem_range_foldl_enter hvalid', hexists]
  · rw [status_foldl_enter, status_foldl_enter]

end Store

/-! ## Packages -/

namespace Packages

variable {p : Packages} {us vs : List SourceUnit} {name : String}

theorem contains_take {u : SourceUnit} :
    (p.take u).contains name = true ↔ u.package = some name ∨ p.contains name = true := by
  unfold take
  split
  next n hn => simp [hn]
  next hn => simp [hn]

theorem contains_foldl_take :
    (us.foldl take p).contains name = true ↔
      (∃ u ∈ us, u.package = some name) ∨ p.contains name = true :=
  foldl_iff_exists (Q := fun q : Packages => q.contains name = true) fun _ _ _ => contains_take

/-- The same packages are registered whatever the order of the units. -/
theorem foldl_take_eq (hsame : ∀ u, u ∈ us ↔ u ∈ vs) : us.foldl take p = vs.foldl take p := by
  have hnames : (us.foldl take p).names = (vs.foldl take p).names := by
    ext name
    have h : (us.foldl take p).contains name = true ↔ (vs.foldl take p).contains name = true := by
      simp only [contains_foldl_take, hsame]
    exact h
  cases h : us.foldl take p
  cases h' : vs.foldl take p
  simp_all

end Packages

/-! ## Sessions -/

/-- Only valid entries get in. -/
theorem Intake.valid_of_mem_entries {failFast : Bool} {i : Intake} {f : UnitEntry}
    (h : f ∈ (i.units failFast).flatMap SourceUnit.entries) : f.Valid := by
  obtain ⟨u, hu, hfu⟩ := List.mem_flatMap.mp h
  exact SourceUnit.flaw?_eq_none.mp (i.flaw?_of_mem_units hu) f hfu

namespace Session

variable {s : Session} {us vs : List SourceUnit}

/-- An intake records the entries of the units that it comes down to. -/
theorem store_intake (s : Session) (i : Intake) : (s.intake i).store
    = ((i.units s.settings.failFast).flatMap SourceUnit.entries).foldl Store.enter s.store := by
  rw [s.records_intake.store_eq, Store.foldl_take_eq_foldl_enter]

/-- Several intakes record the units that they come down to. -/
theorem records_intakeAll (s : Session) (is : List Intake) :
    s.Records (s.intakeAll is) (is.flatMap (·.units s.settings.failFast)) := by
  induction is generalizing s with
  | nil => exact ⟨rfl, rfl, rfl, rfl, rfl⟩
  | cons i is ih =>
    have hfirst := s.records_intake (i := i)
    have hrest := ih (s.intake i)
    rw [hfirst.settings_eq] at hrest
    constructor
    · rw [List.flatMap_cons, List.foldl_append, ← hfirst.store_eq]
      exact hrest.store_eq
    · rw [List.flatMap_cons, List.foldl_append, ← hfirst.project_eq]
      exact hrest.project_eq
    · exact settings_intakeAll
    · exact library_intakeAll
    · exact worklist_intakeAll

/-- A valid unit is taken in as it is. -/
theorem flatMap_units_ingest {failFast : Bool} (h : ∀ u ∈ us, ∀ e ∈ u.entries, e.Valid) :
    (us.map Intake.ingest).flatMap (·.units failFast) = us := by
  induction us with
  | nil => rfl
  | cons u us ih =>
    obtain ⟨hu, hus⟩ := List.forall_mem_cons.mp h
    have hone : (Intake.ingest u).units failFast = [u] :=
      accepted_cons_ok (SourceUnit.flaw?_eq_none.mpr hu)
    rw [List.map_cons, List.flatMap_cons, hone, ih hus, List.singleton_append]

/-- **The facts are determined by the set of units.** Two lists of valid units that hold the same
units, in any order and with any repetitions, leave the same store in a new session, and so the same
known elements, modifiers, ranges and counts, and the same packages, as long as no element is
declared with different modifiers. -/
theorem ingested_eq (settings : Settings) (library : Library)
    (hvalid : ∀ u ∈ us, ∀ e ∈ u.entries, e.Valid) (hsame : ∀ u, u ∈ us ↔ u ∈ vs)
    (hagree : ∀ u ∈ us, ∀ v ∈ us, ∀ f ∈ u.elements, ∀ g ∈ v.elements,
      f.key = g.key → f.modifiers = g.modifiers) :
    ((create settings library).intakeAll (us.map .ingest)).store
        = ((create settings library).intakeAll (vs.map .ingest)).store ∧
      ((create settings library).intakeAll (us.map .ingest)).project
        = ((create settings library).intakeAll (vs.map .ingest)).project := by
  have hvalid' : ∀ v ∈ vs, ∀ e ∈ v.entries, e.Valid := fun v hv => hvalid v ((hsame v).mpr hv)
  have hus := (create settings library).records_intakeAll (us.map .ingest)
  have hvs := (create settings library).records_intakeAll (vs.map .ingest)
  rw [flatMap_units_ingest hvalid] at hus
  rw [flatMap_units_ingest hvalid'] at hvs
  rw [hus.store_eq, hvs.store_eq, hus.project_eq, hvs.project_eq]
  refine ⟨?_, Packages.foldl_take_eq hsame⟩
  rw [Store.foldl_take_eq_foldl_enter, Store.foldl_take_eq_foldl_enter]
  refine Store.foldl_enter_eq Store.tidy_empty ?_ ?_ ?_
  · intro e he
    obtain ⟨u, hu, heu⟩ := List.mem_flatMap.mp he
    exact hvalid u hu e heu
  · intro e
    simp only [List.mem_flatMap, hsame]
  · rintro x m m' ⟨f, hf, hm⟩ ⟨g, hg, hm'⟩
    obtain ⟨u, hu, hfu⟩ := List.mem_flatMap.mp hf
    obtain ⟨v, hv, hgv⟩ := List.mem_flatMap.mp hg
    cases f with
    | relation f => exact hm.elim
    | element f =>
      cases g with
      | relation g => exact hm'.elim
      | element g =>
        obtain ⟨hkey, rfl⟩ := hm
        obtain ⟨hkey', rfl⟩ := hm'
        refine hagree u hu v hv f ?_ g ?_ (hkey.trans hkey'.symm)
        · simpa [SourceUnit.entries] using hfu
        · simpa [SourceUnit.entries] using hgv

/-- A class and its superclass, which the class names before the superclass is declared or after it.
The class comes once or twice. -/
theorem ingested_eq_reversed :
    ((create {} .absent).intakeAll ([.ofClass "p" "p.A" none ["run"],
        .ofClass "p" "p.C" (some "p.A") ["run"]].map .ingest)).store
      = ((create {} .absent).intakeAll ([.ofClass "p" "p.C" (some "p.A") ["run"],
        .ofClass "p" "p.A" none ["run"], .ofClass "p" "p.C" (some "p.A") ["run"]].map
          .ingest)).store := by
  have hflawless : ∀ u ∈ [SourceUnit.ofClass "p" "p.A" none ["run"],
      .ofClass "p" "p.C" (some "p.A") ["run"]], u.flaw? = none := by decide +kernel
  refine (ingested_eq {} .absent ?_ ?_ ?_).1
  · exact fun u hu => SourceUnit.flaw?_eq_none.mp (hflawless u hu)
  · intro u
    simp only [List.mem_cons, List.not_mem_nil, or_false]
    tauto
  · decide +kernel

end Session
end CodeAtlas
