import CodeAtlas.Proofs.Asking
import CodeAtlas.Session.Intake

/-!
# What preparing a unit comes to

Preparing a unit asks the registry for one instance after the other, and stops at the first that
there is none of. Yet how it ends is a matter of the unit alone: what is checked of a unit is a list
of checks that do not look at a registry, and preparing ends with the first flaw of that list, if
there is one. Otherwise it ends with the facts of the unit, about instances of the registry that it
leaves, and recording these is recording the facts of the unit.

## Main definitions

* `SourceUnit.checks`, `SourceUnit.flaw?`: what is checked of a unit, and its first flaw.
* `Store.take`: the facts of a unit recorded.
* `Preparation`, `SourceUnit.meets_prepare`: how preparing ends.
* `Session.ingest_cases`, `Session.declare_eq`: what taking in a unit or an element comes to.
-/
namespace CodeAtlas

open Asking (Meets)

/-! ## Checks -/

/-- The element of a key in a unit. -/
def Key.check (k : Key) : Except UnitFlaw Element :=
  match Element.read? k with
  | some e => .ok e
  | none => .error (.invalidKey k.id (Element.flaw k))

/-- What is checked of a relation fact: that the relation is not a computed one, that it relates the
two categories, and that the two keys name elements. -/
def RelationFact.checks (f : RelationFact) : List (Except UnitFlaw Element) :=
  if f.relation.isComputed then [.error (.computedRelation f.relation)]
  else if f.relation.accepts f.domain.category f.range.category then
    [f.domain.check, f.range.check]
  else [.error (.unrelatedCategories f.relation f.domain.category f.range.category)]

namespace SourceUnit

/-- What is checked of a unit, in order; each check gives an element or a flaw. -/
def checks (u : SourceUnit) : List (Except UnitFlaw Element) :=
  u.elements.map (·.key.check) ++ u.relations.flatMap RelationFact.checks

/-- The first flaw of a list of checks. -/
def firstFlaw? : List (Except UnitFlaw Element) → Option UnitFlaw
  | [] => none
  | .ok _ :: rest => firstFlaw? rest
  | .error flaw :: _ => some flaw

/-- The first flaw of a unit. -/
def flaw? (u : SourceUnit) : Option UnitFlaw := firstFlaw? u.checks

theorem firstFlaw?_append (cs ds : List (Except UnitFlaw Element)) :
    firstFlaw? (cs ++ ds) = (firstFlaw? cs).or (firstFlaw? ds) := by
  induction cs with
  | nil => simp [firstFlaw?]
  | cons c cs ih => cases c <;> simp [firstFlaw?, ih]

end SourceUnit

/-! ## Recording -/

/-- Record an element fact; a key that names no element is passed over. -/
def Store.takeElement (s : Store) (f : ElementFact) : Store :=
  match Element.read? f.key with
  | some e => s.declare e f.modifiers
  | none => s

/-- Record a relation fact; keys that name no elements are passed over. -/
def Store.takeRelation (s : Store) (f : RelationFact) : Store :=
  match Element.read? f.domain, Element.read? f.range with
  | some d, some e =>
    if f.transpose then (s.relateBoth d f.relation e).2 else (s.relate d f.relation e).2
  | _, _ => s

/-- Record all facts of a unit, elements first. -/
def Store.take (s : Store) (u : SourceUnit) : Store :=
  u.relations.foldl takeRelation (u.elements.foldl takeElement s)

/-! ## Prepared facts -/

/-- The fact that was prepared. -/
def PreparedElement.fact (f : PreparedElement) : ElementFact :=
  ⟨f.element.element.key.category, f.element.element.key.id, f.modifiers⟩

/-- The fact that was prepared. -/
def PreparedRelation.fact (f : PreparedRelation) : RelationFact :=
  ⟨f.domain.element.key, f.relation, f.range.element.key, f.transpose⟩

theorem PreparedElement.record_eq (s : Store) (f : PreparedElement) :
    f.record s = s.takeElement f.fact := by
  have hread : Element.read? f.fact.key = some f.element.element :=
    Element.read?_key f.element.element
  simp only [record, Store.takeElement, hread]
  rfl

theorem PreparedRelation.record_eq (s : Store) (f : PreparedRelation) :
    f.record s = s.takeRelation f.fact := by
  simp only [record, Store.takeRelation, fact, Element.read?_key]
  rfl

/-- The instance is that of a registry. -/
def PreparedElement.Held (f : PreparedElement) (r : Registry) : Prop := r.Holds f.element

/-- The two instances are those of a registry. -/
def PreparedRelation.Held (f : PreparedRelation) (r : Registry) : Prop :=
  r.Holds f.domain ∧ r.Holds f.range

theorem PreparedElement.Held.extends {f : PreparedElement} {r r' : Registry}
    (hext : r'.Extends r) (h : f.Held r) : f.Held r' := hext.holds h

theorem PreparedRelation.Held.extends {f : PreparedRelation} {r r' : Registry}
    (hext : r'.Extends r) (h : f.Held r) : f.Held r' := ⟨hext.holds h.1, hext.holds h.2⟩

/-- The facts of a unit, about instances of a registry. -/
structure PreparedUnit.Represents (p : PreparedUnit) (u : SourceUnit) (r : Registry) : Prop where
  elements_eq : p.elements.map PreparedElement.fact = u.elements
  relations_eq : p.relations.map PreparedRelation.fact = u.relations
  element : ∀ f ∈ p.elements, f.Held r
  relation : ∀ f ∈ p.relations, f.Held r

/-- To record prepared facts is to record the facts of the unit. -/
theorem PreparedUnit.Represents.record_eq {p : PreparedUnit} {u : SourceUnit} {r : Registry}
    (h : p.Represents u r) (s : Store) : p.record s = s.take u := by
  rw [Store.take, ← h.elements_eq, ← h.relations_eq, List.foldl_map, List.foldl_map, record]
  have helement : PreparedElement.record = fun s f => s.takeElement f.fact :=
    funext₂ PreparedElement.record_eq
  have hrelation : PreparedRelation.record = fun s f => s.takeRelation f.fact :=
    funext₂ PreparedRelation.record_eq
  rw [helement, hrelation]

/-! ## How preparing ends -/

section Preparing

variable {α β : Type} {path : String} {checks more : List (Except UnitFlaw Element)}
  {P : α → Prop} {Q : β → Prop} {r : Registry}

/-- How the preparation of facts ends: with what is asked of it if all checks give elements, and
otherwise with a fault that comes to the first flaw. -/
inductive Preparation (path : String) (checks : List (Except UnitFlaw Element)) (P : α → Prop) :
    Except Fault α → Prop
  | done {a : α} (hnone : SourceUnit.firstFlaw? checks = none) (ha : P a) :
    Preparation path checks P (.ok a)
  | flawed {fault : Fault} {flaw : UnitFlaw} (hflaw : SourceUnit.firstFlaw? checks = some flaw)
    (hfault : fault.ofUnit path = .extraction path flaw) : Preparation path checks P (.error fault)

/-- If the first part of a preparation ends well, the second part is up to the checks that are left;
otherwise there is none. -/
theorem Preparation.bind {c : ExceptT Fault Asking α} {f : α → ExceptT Fault Asking β}
    {P : α → Registry → Prop} {Q : β → Registry → Prop}
    (h : Meets c.run r fun result r' => Preparation path checks (P · r') result)
    (hf : ∀ a r', r'.Extends r → P a r' → Meets (f a).run r' fun result r'' =>
      Preparation path more (Q · r'') result) :
    Meets (c >>= f).run r fun result r' => Preparation path (checks ++ more) (Q · r') result := by
  rw [ExceptT.run_bind]
  refine h.bind fun result r' hext hresult => ?_
  cases hresult with
  | flawed hflaw hfault =>
    refine Asking.meets_pure (.flawed ?_ hfault)
    rw [SourceUnit.firstFlaw?_append, hflaw, Option.some_or]
  | done hnone ha =>
    refine (hf _ r' hext ha).imp fun result r'' _ hresult => ?_
    cases hresult with
    | done hnone' hb => exact .done (by rw [SourceUnit.firstFlaw?_append, hnone, hnone']; rfl) hb
    | flawed hflaw hfault =>
      exact .flawed (by rw [SourceUnit.firstFlaw?_append, hnone, Option.none_or, hflaw]) hfault

/-- What is made of the last part of a preparation is up to no further check. -/
theorem Preparation.map {c : ExceptT Fault Asking α} {f : α → β} {P : α → Registry → Prop}
    {Q : β → Registry → Prop}
    (h : Meets c.run r fun result r' => Preparation path checks (P · r') result)
    (hf : ∀ a r', r'.Extends r → P a r' → Q (f a) r') :
    Meets (c >>= fun a => pure (f a)).run r fun result r' =>
      Preparation path checks (Q · r') result := by
  rw [← List.append_nil checks]
  exact Preparation.bind h fun a r' hext ha => Asking.meets_pure (.done rfl (hf a r' hext ha))

/-- Facts are prepared one after the other. -/
theorem Preparation.mapM {f : α → ExceptT Fault Asking β} {fact : β → α}
    {checksOf : α → List (Except UnitFlaw Element)} {R : β → Registry → Prop}
    (hstable : ∀ {b r r'}, r'.Extends r → R b r → R b r')
    (hf : ∀ a r, Meets (f a).run r fun result r' =>
      Preparation path (checksOf a) (fun b => fact b = a ∧ R b r') result)
    (as : List α) (r : Registry) :
    Meets (as.mapM f).run r fun result r' => Preparation path (as.flatMap checksOf)
      (fun bs => bs.map fact = as ∧ ∀ b ∈ bs, R b r') result := by
  induction as generalizing r with
  | nil =>
    rw [List.mapM_nil]
    exact Asking.meets_pure (.done rfl ⟨rfl, by simp⟩)
  | cons a as ih =>
    rw [List.mapM_cons, List.flatMap_cons]
    refine Preparation.bind (hf a r) fun b r' _ hb => ?_
    refine Preparation.map (ih r') fun bs r'' hext hbs => ?_
    exact ⟨congrArg₂ List.cons hb.1 hbs.1,
      List.forall_mem_cons.mpr ⟨hstable hext hb.2, hbs.2⟩⟩

/-- The registry has an instance just if the check of the key gives its element. -/
theorem Preparation.get (path : String) (k : Key) (r : Registry) :
    Meets (ExceptT.mk (Asking.get k)).run r fun result r' =>
      Preparation path [k.check] (fun i => i.element.key = k ∧ r'.Holds i) result := by
  refine (Asking.meets_get k r).imp fun found r' _ hfound => ?_
  obtain ⟨helement, hholds⟩ := hfound
  cases found with
  | ok i =>
    have hread : Element.read? k = some i.element := Element.read_eq_ok.mp helement.symm
    refine .done ?_ ⟨Element.key_of_read? hread, hholds i rfl⟩
    rw [Key.check, hread]
    rfl
  | error fault =>
    cases hread : Element.read? k with
    | some e => simp [Except.map, Element.read, hread] at helement
    | none =>
      simp only [Except.map, Element.read, hread, Except.error.injEq] at helement
      have hflaw : SourceUnit.firstFlaw? [k.check] = some (.invalidKey k.id (Element.flaw k)) := by
        rw [Key.check, hread]
        rfl
      refine .flawed hflaw ?_
      rw [helement]
      rfl

end Preparing

theorem ElementFact.meets_prepare (path : String) (f : ElementFact) (r : Registry) :
    Meets f.prepare.run r fun result r' => Preparation path [f.key.check]
      (fun p => p.fact = f ∧ p.Held r') result := by
  refine Preparation.map (Preparation.get path f.key r) fun i r' _ hi => ⟨?_, hi.2⟩
  simp only [PreparedElement.fact, hi.1]
  rfl

theorem RelationFact.meets_prepare (path : String) (f : RelationFact) (r : Registry) :
    Meets (f.prepare path).run r fun result r' => Preparation path f.checks
      (fun p => p.fact = f ∧ p.Held r') result := by
  unfold prepare checks
  split
  · exact Asking.meets_pure (.flawed rfl rfl)
  · split
    · have hchecks : [f.domain.check, f.range.check] = [f.domain.check] ++ [f.range.check] := rfl
      rw [hchecks]
      refine Preparation.bind (Preparation.get path f.domain r) fun d r' _ hd => ?_
      refine Preparation.map (Preparation.get path f.range r') fun e r'' hext he =>
        ⟨?_, hext.holds hd.2, he.2⟩
      simp only [PreparedRelation.fact, hd.1, he.1]
    · exact Asking.meets_pure (.flawed rfl rfl)

/-- **Preparing a unit ends with its first flaw, or with its facts.** -/
theorem SourceUnit.meets_prepare (u : SourceUnit) (r : Registry) :
    Meets u.prepare.run r fun result r' =>
      Preparation u.path u.checks (PreparedUnit.Represents · u r') result := by
  rw [checks, List.map_eq_flatMap]
  have hfirst := Preparation.mapM (R := PreparedElement.Held) PreparedElement.Held.extends
    (ElementFact.meets_prepare u.path) u.elements r
  refine Preparation.bind hfirst fun elements r' _ helements => ?_
  have hsecond := Preparation.mapM (R := PreparedRelation.Held) PreparedRelation.Held.extends
    (RelationFact.meets_prepare u.path) u.relations r'
  refine Preparation.map hsecond fun relations r'' hext hrelations => ?_
  exact ⟨helements.1, hrelations.1, fun f hf => (helements.2 f hf).extends hext, hrelations.2⟩

/-! ## Taking in a unit -/

/-- A computation that asks the registry of a session leaves the session with more instances. -/
theorem Session.consult_of_meets {α : Type} {s : Session} {c : Asking α} {P : α → Registry → Prop}
    (h : Meets c s.registry P) : ∃ a qs, P a (s.registry.askAll qs) ∧
      s.consult c = (a, { s with registry := s.registry.askAll qs }) := by
  obtain ⟨⟨qs, hqs⟩, hmeets⟩ := h
  rw [hqs] at hmeets
  exact ⟨_, qs, hmeets, by rw [← hqs]; rfl⟩

/-- **A unit with a flaw is not taken in, and any other unit is.** What the registry holds is of no
consequence, and becomes more. -/
theorem Session.ingest_cases (s : Session) (u : SourceUnit) : ∃ qs,
    (u.flaw? = none ∧ s.ingest u = (.ok (), { s with
      registry := s.registry.askAll qs
      project := s.project.take u
      store := s.store.take u })) ∨
    ∃ flaw, u.flaw? = some flaw ∧ s.ingest u = (.error (.extraction u.path flaw), { s with
      registry := s.registry.askAll qs }) := by
  obtain ⟨result, qs, hend, hconsult⟩ := consult_of_meets (u.meets_prepare s.registry)
  refine ⟨qs, ?_⟩
  rw [ingest, hconsult]
  cases hend with
  | done hnone hp => exact .inl ⟨hnone, by simp only [hp.record_eq]⟩
  | flawed hflaw hfault => exact .inr ⟨_, hflaw, by simp only [hfault]⟩

/-- **A key is declared by recording the fact about its element**, if it names one. -/
theorem Session.declare_eq (s : Session) (k : Key) (m : Modifiers) : ∃ qs,
    s.declare k m = (Element.read k, { s with
      registry := s.registry.askAll qs
      store := s.store.takeElement ⟨k.category, k.id, m⟩ }) := by
  obtain ⟨found, qs, ⟨helement, -⟩, hconsult⟩ := consult_of_meets (Asking.meets_get k s.registry)
  refine ⟨qs, ?_⟩
  have hkey : ElementFact.key ⟨k.category, k.id, m⟩ = k := rfl
  rw [declare, lookup, hconsult, Store.takeElement, hkey, ← helement]
  cases found with
  | ok i =>
    have hread : Element.read? k = some i.element := Element.read_eq_ok.mp helement.symm
    rw [hread]
    rfl
  | error fault =>
    cases hread : Element.read? k with
    | some e => simp [Except.map, Element.read, hread] at helement
    | none => rfl

theorem Session.ingest_of_flawless {u : SourceUnit} (h : u.flaw? = none) (s : Session) :
    ∃ registry, s.ingest u = (.ok (), { s with
      registry
      project := s.project.take u
      store := s.store.take u }) := by
  obtain ⟨qs, ⟨-, heq⟩ | ⟨flaw, hflaw, -⟩⟩ := s.ingest_cases u
  · exact ⟨_, heq⟩
  · simp [h] at hflaw

theorem Session.ingest_of_flaw {u : SourceUnit} {flaw : UnitFlaw} (h : u.flaw? = some flaw)
    (s : Session) : ∃ registry,
      s.ingest u = (.error (.extraction u.path flaw), { s with registry }) := by
  obtain ⟨qs, ⟨hnone, -⟩ | ⟨flaw', hflaw, heq⟩⟩ := s.ingest_cases u
  · simp [h] at hnone
  · obtain rfl : flaw = flaw' := Option.some.inj (h.symm.trans hflaw)
    exact ⟨_, heq⟩

end CodeAtlas
