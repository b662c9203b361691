import CodeAtlas.Proofs.Session.Intake

/-!
# Which units are accepted

The entries of a unit are its element facts and, behind them, its relation facts. Each entry is valid
or has one flaw, and whether it is valid is a matter of the entry alone. A unit is accepted exactly
if all its entries are valid. Otherwise the flaw of its first entry that is not is reported, and the
session is left as it was, save that elements met before that flaw have instances.

## Main definitions

* `Key.WellFormed`, `UnitEntry.Valid`: what may be recorded.
* `UnitEntry.Flawed`: what is wrong with an entry that may not.
* `SourceUnit.flaw?_cases`: the flaw of a unit is that of its first entry that is not valid.
* `Session.ingest_ok_iff_valid`: which units are accepted, and what the others leave behind.
-/
namespace CodeAtlas

/-! ## Entries -/

/-- A key is well formed if it is the key of an element. -/
def Key.WellFormed (k : Key) : Prop := ∃ e : Element, e.key = k

theorem Key.WellFormed.check {k : Key} (h : k.WellFormed) : ∃ e, k.check = .ok e := by
  obtain ⟨e, rfl⟩ := h
  exact ⟨e, by simp [Key.check]⟩

theorem Key.check_of_not_wellFormed {k : Key} (h : ¬ k.WellFormed) :
    k.check = .error (.invalidKey k.id (Element.flaw k)) := by
  have hnone : Element.read? k = none := by
    rw [Option.eq_none_iff_forall_ne_some]
    intro e he
    exact h ⟨e, Element.key_of_read? he⟩
  simp [Key.check, hnone]

/-- A fact of a unit. -/
inductive UnitEntry where
  | element (f : ElementFact)
  | relation (f : RelationFact)

/-- The facts of a unit in the order in which they are checked. -/
def SourceUnit.entries (u : SourceUnit) : List UnitEntry :=
  u.elements.map .element ++ u.relations.map .relation

namespace UnitEntry

/-- A fact that may be recorded: its keys are well formed, and its relation is not a computed one and
relates their categories. -/
def Valid : UnitEntry → Prop
  | element f => f.key.WellFormed
  | relation f =>
    f.relation.isComputed = false ∧
      f.relation.accepts f.domain.category f.range.category = true ∧
      f.domain.WellFormed ∧ f.range.WellFormed

/-- What is wrong with a fact that may not be recorded. Of several things the first counts: the
relation, the categories, the key on the left, the key on the right. -/
inductive Flawed : UnitEntry → UnitFlaw → Prop
  | element {f : ElementFact} (h : ¬ f.key.WellFormed) :
      Flawed (.element f) (.invalidKey f.id (Element.flaw f.key))
  | computed {f : RelationFact} (h : f.relation.isComputed = true) :
      Flawed (.relation f) (.computedRelation f.relation)
  | unrelated {f : RelationFact} (hr : f.relation.isComputed = false)
      (h : f.relation.accepts f.domain.category f.range.category = false) :
      Flawed (.relation f)
        (.unrelatedCategories f.relation f.domain.category f.range.category)
  | domain {f : RelationFact} (hr : f.relation.isComputed = false)
      (hc : f.relation.accepts f.domain.category f.range.category = true)
      (h : ¬ f.domain.WellFormed) :
      Flawed (.relation f) (.invalidKey f.domain.id (Element.flaw f.domain))
  | range {f : RelationFact} (hr : f.relation.isComputed = false)
      (hc : f.relation.accepts f.domain.category f.range.category = true)
      (hd : f.domain.WellFormed) (h : ¬ f.range.WellFormed) :
      Flawed (.relation f) (.invalidKey f.range.id (Element.flaw f.range))

theorem Flawed.not_valid {e : UnitEntry} {flaw : UnitFlaw} (h : e.Flawed flaw) : ¬ e.Valid := by
  cases h with
  | element h => exact h
  | computed h => exact fun hv => absurd h (by simp [hv.1])
  | unrelated _ h => exact fun hv => absurd hv.2.1 (by simp [h])
  | domain _ _ h => exact fun hv => h hv.2.2.1
  | range _ _ _ h => exact fun hv => h hv.2.2.2

theorem valid_or_flawed (e : UnitEntry) : e.Valid ∨ ∃ flaw, e.Flawed flaw := by
  cases e with
  | element f =>
    by_cases h : f.key.WellFormed
    · exact .inl h
    · exact .inr ⟨_, .element h⟩
  | relation f =>
    cases hr : f.relation.isComputed with
    | true => exact .inr ⟨_, .computed hr⟩
    | false =>
      cases hc : f.relation.accepts f.domain.category f.range.category with
      | false => exact .inr ⟨_, .unrelated hr hc⟩
      | true =>
        by_cases hd : f.domain.WellFormed
        · by_cases he : f.range.WellFormed
          · exact .inl ⟨hr, hc, hd, he⟩
          · exact .inr ⟨_, .range hr hc hd he⟩
        · exact .inr ⟨_, .domain hr hc hd⟩

/-- What is checked of a fact. -/
def checks : UnitEntry → List (Except UnitFlaw Element)
  | element f => [f.key.check]
  | relation f => f.checks

theorem Valid.firstFlaw? {e : UnitEntry} (h : e.Valid) :
    SourceUnit.firstFlaw? e.checks = none := by
  cases e with
  | element f =>
    obtain ⟨x, hx⟩ := Key.WellFormed.check h
    simp [checks, SourceUnit.firstFlaw?, hx]
  | relation f =>
    obtain ⟨hr, hc, hd, he⟩ := h
    obtain ⟨x, hx⟩ := hd.check
    obtain ⟨y, hy⟩ := he.check
    simp [checks, RelationFact.checks, SourceUnit.firstFlaw?, hr, hc, hx, hy]

theorem Flawed.firstFlaw? {e : UnitEntry} {flaw : UnitFlaw} (h : e.Flawed flaw) :
    SourceUnit.firstFlaw? e.checks = some flaw := by
  cases h with
  | element h =>
    have hcheck := Key.check_of_not_wellFormed h
    simp only [checks, hcheck]
    rfl
  | computed h => simp [checks, RelationFact.checks, SourceUnit.firstFlaw?, h]
  | unrelated hr h => simp [checks, RelationFact.checks, SourceUnit.firstFlaw?, hr, h]
  | domain hr hc h =>
    simp [checks, RelationFact.checks, SourceUnit.firstFlaw?, hr, hc,
      Key.check_of_not_wellFormed h]
  | range hr hc hd h =>
    obtain ⟨x, hx⟩ := hd.check
    simp [checks, RelationFact.checks, SourceUnit.firstFlaw?, hr, hc, hx,
      Key.check_of_not_wellFormed h]

end UnitEntry

/-! ## Units -/

namespace SourceUnit

theorem checks_eq_flatMap (u : SourceUnit) : u.checks = u.entries.flatMap UnitEntry.checks := by
  have helement : ∀ f : ElementFact, (UnitEntry.element f).checks = [f.key.check] := fun _ => rfl
  have hrelation : ∀ f : RelationFact, (UnitEntry.relation f).checks = f.checks := fun _ => rfl
  rw [checks, entries, List.flatMap_append, List.flatMap_map, List.flatMap_map,
    List.map_eq_flatMap]
  simp only [helement, hrelation]

/-- Of a list of facts all are valid, or there is a first one that is not, whose flaw is found. -/
theorem firstFlaw?_cases (es : List UnitEntry) :
    ((∀ e ∈ es, e.Valid) ∧ firstFlaw? (es.flatMap UnitEntry.checks) = none) ∨
      ∃ before e after flaw, es = before ++ e :: after ∧ (∀ e ∈ before, e.Valid) ∧
        e.Flawed flaw ∧ firstFlaw? (es.flatMap UnitEntry.checks) = some flaw := by
  induction es with
  | nil => exact .inl ⟨by simp, rfl⟩
  | cons e es ih =>
    rw [List.flatMap_cons, firstFlaw?_append]
    rcases e.valid_or_flawed with hvalid | ⟨flaw, hflaw⟩
    · rw [hvalid.firstFlaw?, Option.none_or]
      rcases ih with ⟨hall, hnone⟩ | ⟨before, e', after, flaw, rfl, hbefore, hflaw, hsome⟩
      · exact .inl ⟨List.forall_mem_cons.mpr ⟨hvalid, hall⟩, hnone⟩
      · exact .inr ⟨e :: before, e', after, flaw, rfl,
          List.forall_mem_cons.mpr ⟨hvalid, hbefore⟩, hflaw, hsome⟩
    · rw [hflaw.firstFlaw?]
      exact .inr ⟨[], e, es, flaw, rfl, by simp, hflaw, rfl⟩

/-- **The flaw of a unit is that of its first entry that is not valid.** -/
theorem flaw?_cases (u : SourceUnit) :
    ((∀ e ∈ u.entries, e.Valid) ∧ u.flaw? = none) ∨
      ∃ before e after flaw, u.entries = before ++ e :: after ∧ (∀ e ∈ before, e.Valid) ∧
        e.Flawed flaw ∧ u.flaw? = some flaw := by
  rw [flaw?, checks_eq_flatMap]
  exact firstFlaw?_cases u.entries

theorem flaw?_eq_none {u : SourceUnit} : u.flaw? = none ↔ ∀ e ∈ u.entries, e.Valid := by
  rcases u.flaw?_cases with ⟨hall, hnone⟩ | ⟨before, e, after, flaw, hes, -, hflaw, hsome⟩
  · exact iff_of_true hnone hall
  · simp only [hsome, reduceCtorEq, false_iff]
    intro hall
    exact hflaw.not_valid (hall e (by rw [hes]; exact List.mem_append_right _ List.mem_cons_self))

end SourceUnit

/-! ## Sessions -/

namespace Session

/-- **A unit is accepted exactly if all its entries are valid**, whatever the session holds. A unit
that is not accepted leaves everything but the registry as it was, in which no instance is lost, and
the fault names the path of the unit and is about the first of its entries that is not valid. -/
theorem ingest_ok_iff_valid (s : Session) (u : SourceUnit) :
    ((s.ingest u).1 = .ok () ↔ ∀ e ∈ u.entries, e.Valid) ∧
    (∀ t : Session, (t.ingest u).1 = (s.ingest u).1) ∧
    ∀ fault, (s.ingest u).1 = .error fault →
      (∃ registry : Registry, registry.Extends s.registry ∧
        (s.ingest u).2 = { s with registry }) ∧
      ∃ before e after flaw, u.entries = before ++ e :: after ∧ (∀ e ∈ before, e.Valid) ∧
        e.Flawed flaw ∧ fault = .extraction u.path flaw ∧
        fault.message = "extraction failed for " ++ u.path ++ ": " ++ flaw.message := by
  have hresult : ∀ t : Session, (t.ingest u).1
      = u.flaw?.elim (.ok ()) fun flaw => .error (.extraction u.path flaw) := by
    intro t
    cases h : u.flaw? with
    | none =>
      obtain ⟨registry, hingest⟩ := t.ingest_of_flawless h
      rw [hingest]
      rfl
    | some flaw =>
      obtain ⟨registry, hingest⟩ := t.ingest_of_flaw h
      rw [hingest]
      rfl
  refine ⟨?_, fun t => (hresult t).trans (hresult s).symm, ?_⟩
  · rw [hresult, ← SourceUnit.flaw?_eq_none]
    cases u.flaw? <;> simp
  · intro fault hfault
    rw [hresult] at hfault
    rcases u.flaw?_cases with ⟨-, hnone⟩ | ⟨before, e, after, flaw, hes, hbefore, hflaw, hsome⟩
    · rw [hnone] at hfault
      cases hfault
    · rw [hsome] at hfault
      cases hfault
      refine ⟨?_, before, e, after, flaw, hes, hbefore, hflaw, rfl, rfl⟩
      obtain ⟨qs, ⟨hnone, -⟩ | ⟨flaw', -, hingest⟩⟩ := s.ingest_cases u
      · simp [hsome] at hnone
      · exact ⟨_, Registry.extends_askAll s.registry qs, by rw [hingest]⟩

/-- A unit with two facts that are in order, a key without its closing parenthesis, and an override
behind it. -/
def unclosedUnit : SourceUnit where
  path := "p/B.java"
  package := some "p"
  elements := [⟨.type, "p.B", ⟨1⟩⟩]
  relations :=
    [⟨⟨.type, "p.B"⟩, .extendsClass, ⟨.type, "p.A"⟩, true⟩,
      ⟨⟨.type, "p.B"⟩, .declaresMethod, ⟨.method, "p.B.run("⟩, true⟩,
      ⟨⟨.method, "p.B.run()"⟩, .overrides, ⟨.method, "p.A.run()"⟩, true⟩]

/-- The key is what the unit is rejected for, by a session that knows the superclass. -/
theorem ingest_ok_iff_valid_unclosed :
    (((create {} .absent).ingest (.ofClass "p" "p.A" none ["run"])).2.ingest unclosedUnit).1
        = .error (.extraction "p/B.java" (.invalidKey "p.B.run(" (.malformedId .method))) ∧
      ∃ before e after flaw, unclosedUnit.entries = before ++ e :: after ∧
        (∀ e ∈ before, e.Valid) ∧ e.Flawed flaw ∧
        (Fault.extraction "p/B.java" (.invalidKey "p.B.run(" (.malformedId .method)))
          = .extraction unclosedUnit.path flaw := by
  have hfault : (((create {} .absent).ingest (.ofClass "p" "p.A" none ["run"])).2.ingest
      unclosedUnit).1
        = .error (.extraction "p/B.java" (.invalidKey "p.B.run(" (.malformedId .method))) := by
    decide +kernel
  obtain ⟨-, -, hrejected⟩ := ingest_ok_iff_valid
    ((create {} .absent).ingest (.ofClass "p" "p.A" none ["run"])).2 unclosedUnit
  obtain ⟨-, before, e, after, flaw, hes, hbefore, hflaw, hpath, -⟩ := hrejected _ hfault
  exact ⟨hfault, before, e, after, flaw, hes, hbefore, hflaw, hpath⟩

end Session
end CodeAtlas
