import CodeAtlas.Proofs.Hierarchy.Ancestry
import CodeAtlas.Proofs.Recording
import CodeAtlas.Proofs.Session.Accepted

/-!
# What taking facts in does

However facts get into a session, they come down to flawless units that are recorded one after the
other. Which units these are depends on what is taken in and on one of the settings, and not on
what the session holds already. So the same intakes record the same facts in any two sessions. No
intake records an override, and none looks at the state of hierarchy analysis.

## Main definitions

* `Intake`, with `Session.intake` and `Session.intakeAll`: the ways in which facts get in.
* `Intake.units`: the units that an intake comes down to.
* `Store.take_induction`: what a flawless unit does to two stores at a time.
* `Session.records_intake`, `Session.intake_induction`: what an intake does to one session, and to
  two at a time.
-/
namespace CodeAtlas

/-! ## Flawless units -/

namespace SourceUnit

theorem firstFlaw?_eq_none {checks : List (Except UnitFlaw Element)} :
    firstFlaw? checks = none ↔ ∀ c ∈ checks, ∃ e, c = .ok e := by
  induction checks with
  | nil => simp [firstFlaw?]
  | cons c rest ih => cases c <;> simp [firstFlaw?, ih]

theorem isComputed_of_flaw? {u : SourceUnit} {f : RelationFact} (h : u.flaw? = none)
    (hf : f ∈ u.relations) : f.relation.isComputed = false := by
  rw [← Bool.not_eq_true]
  intro hc
  have hcheck : .error (.computedRelation f.relation) ∈ u.checks :=
    List.mem_append_right _ (List.mem_flatMap.mpr ⟨f, hf, by simp [RelationFact.checks, hc]⟩)
  obtain ⟨e, he⟩ := firstFlaw?_eq_none.mp h _ hcheck
  simp at he

end SourceUnit

namespace Store

variable {s t : Store} {u : SourceUnit} {d e : Element}

/-- Whatever two stores have in common stays so when both record an element, and when both record a
tuple of a relation that is not a computed one, stays so when both record a flawless unit. -/
theorem take_induction {P : Store → Store → Prop}
    (hdeclare : ∀ s t e m, P s t → P (s.declare e m) (t.declare e m))
    (hrelate : ∀ s t d r e, r.isComputed = false → P s t → P (s.relate d r e).2 (t.relate d r e).2)
    (hu : u.flaw? = none) (h : P s t) : P (s.take u) (t.take u) := by
  have helement : ∀ (f : ElementFact) (s t : Store), P s t →
      P (s.takeElement f) (t.takeElement f) := by
    intro f s t h
    unfold takeElement
    split
    · exact hdeclare _ _ _ _ h
    · exact h
  have hrelation : ∀ f ∈ u.relations, ∀ s t : Store, P s t →
      P (s.takeRelation f) (t.takeRelation f) := by
    intro f hf s t h
    have hr := SourceUnit.isComputed_of_flaw? hu hf
    unfold takeRelation
    split
    · split
      · exact hrelate _ _ _ _ _ hr (hrelate _ _ _ _ _ hr h)
      · exact hrelate _ _ _ _ _ hr h
    · exact h
  exact List.foldl_rel (List.foldl_rel h fun f _ s t h => helement f s t h)
    fun f hf s t h => hrelation f hf s t h

/-- A flawless unit records no override. -/
theorem range_take (hu : u.flaw? = none) : (s.take u).range d .overrides = s.range d .overrides := by
  refine take_induction (P := fun s' _ => s'.range d .overrides = s.range d .overrides)
    (t := s) ?_ ?_ hu rfl
  · intro s' _ e m h
    rw [range_declare, h]
  · intro s' _ a r e hr h
    refine (range_relate_of_ne ?_).trans h
    rintro rfl
    simp [Relation.isComputed] at hr

/-- Two stores that both record a flawless unit have the same modifiers of an element if they had. -/
theorem modifiers_take (hu : u.flaw? = none) (h : s.modifiers e = t.modifiers e) :
    (s.take u).modifiers e = (t.take u).modifiers e := by
  refine take_induction (P := fun s t => s.modifiers e = t.modifiers e) ?_ ?_ hu h
  · intro s t a m h
    rw [modifiers_declare, modifiers_declare, h]
  · intro s t a r b _ h
    rw [modifiers_relate, modifiers_relate, h]

end Store

/-! ## Intakes -/

/-- Something that takes facts into a session. -/
inductive Intake : Type 1 where
  | populate {σ : Type} (sink : Sink σ) (l : Listener σ) (items : List (Except Fault SourceUnit))
  | ingest (u : SourceUnit)
  | registerPackage (name : String)
  | declare (k : Key) (m : Modifiers)

/-- The units that an intake comes down to. -/
def Intake.units (failFast : Bool) : Intake → List SourceUnit
  | populate _ _ items => accepted failFast items
  | ingest u => accepted failFast [.ok u]
  | registerPackage name => [{ path := "", package := some name }]
  | declare k m => accepted failFast [.ok { path := "", elements := [⟨k.category, k.id, m⟩] }]

theorem Intake.flaw?_of_mem_units {failFast : Bool} {i : Intake} {u : SourceUnit}
    (h : u ∈ i.units failFast) : u.flaw? = none := by
  cases i with
  | populate => exact flaw?_of_mem_accepted h
  | ingest => exact flaw?_of_mem_accepted h
  | registerPackage name =>
    obtain rfl := List.mem_singleton.mp h
    rfl
  | declare => exact flaw?_of_mem_accepted h

/-- The unit of a public class with public methods that take no parameters. -/
def SourceUnit.ofClass (package name : String) (superclass : Option String)
    (methods : List String) : SourceUnit where
  path := name ++ ".java"
  package := some package
  elements := ⟨.type, name, ⟨1⟩⟩ :: methods.map fun m => ⟨.method, name ++ "." ++ m ++ "()", ⟨1⟩⟩
  relations :=
    superclass.toList.map (fun c => ⟨⟨.type, name⟩, .extendsClass, ⟨.type, c⟩, true⟩) ++
      methods.map fun m =>
        ⟨⟨.type, name⟩, .declaresMethod, ⟨.method, name ++ "." ++ m ++ "()"⟩, true⟩

/-- The id of such a method. -/
theorem Shape.read?_run :
    Shape.read? .method "p.C.run()" = some (.method "p.C" "run" []) := by decide +kernel

/-- Such a method. -/
def runMethod : Element := ⟨"p.C.run()", .method "p.C" "run" [], Shape.read?_run⟩

namespace Session

variable {s t : Session} {i : Intake} {is : List Intake} {d e : Element}

/-- Take facts in. -/
def intake (s : Session) : Intake → Session
  | .populate sink l items => (s.populate sink items l).2.2
  | .ingest u => (s.ingest u).2
  | .registerPackage name => (s.registerPackage name).2
  | .declare k m => (s.declare k m).2

/-- Take facts in several times. -/
def intakeAll (s : Session) (is : List Intake) : Session := is.foldl intake s

/-- The second session is the first one with these units recorded. They were built with the same, and
neither is further with hierarchy analysis. -/
structure Records (s t : Session) (us : List SourceUnit) : Prop where
  store_eq : t.store = us.foldl Store.take s.store
  project_eq : t.project = us.foldl Packages.take s.project
  settings_eq : t.settings = s.settings
  library_eq : t.library = s.library
  worklist_eq : t.worklist = s.worklist

theorem records_ingest {failFast : Bool} {u : SourceUnit} :
    s.Records (s.ingest u).2 (accepted failFast [.ok u]) := by
  cases h : u.flaw? with
  | none =>
    obtain ⟨registry, hingest⟩ := s.ingest_of_flawless h
    simp only [hingest, accepted, h]
    exact ⟨rfl, rfl, rfl, rfl, rfl⟩
  | some flaw =>
    obtain ⟨registry, hingest⟩ := s.ingest_of_flaw h
    simp only [hingest, accepted, h]
    cases failFast <;> exact ⟨rfl, rfl, rfl, rfl, rfl⟩

theorem records_populate {σ : Type} {sink : Sink σ} {l : Listener σ}
    {items : List (Except Fault SourceUnit)} :
    s.Records (s.populate sink items l).2.2 (accepted s.settings.failFast items) := by
  obtain ⟨registry, h⟩ := s.same_populate sink l items
  rw [h]
  exact ⟨rfl, rfl, rfl, rfl, rfl⟩

/-- Declaring an element records the unit that holds this element alone. -/
theorem records_declare {failFast : Bool} {k : Key} {m : Modifiers} :
    s.Records (s.declare k m).2
      (accepted failFast [.ok { path := "", elements := [⟨k.category, k.id, m⟩] }]) := by
  obtain ⟨qs, hdeclare⟩ := s.declare_eq k m
  have hread : Element.read? (ElementFact.key ⟨k.category, k.id, m⟩) = Element.read? k := rfl
  rw [hdeclare]
  cases hk : Element.read? k with
  | some e =>
    have hflaw : SourceUnit.flaw? { path := "", elements := [⟨k.category, k.id, m⟩] } = none := by
      simp [SourceUnit.flaw?, SourceUnit.checks, Key.check, hread, hk, SourceUnit.firstFlaw?]
    simp only [accepted, hflaw]
    exact ⟨rfl, rfl, rfl, rfl, rfl⟩
  | none =>
    have hflaw : SourceUnit.flaw? { path := "", elements := [⟨k.category, k.id, m⟩] }
        = some (.invalidKey k.id (Element.flaw k)) := by
      simp [SourceUnit.flaw?, SourceUnit.checks, Key.check, hread, hk, SourceUnit.firstFlaw?]
      exact ⟨rfl, rfl⟩
    have htake : s.store.takeElement ⟨k.category, k.id, m⟩ = s.store := by
      simp [Store.takeElement, hread, hk]
    simp only [accepted, hflaw, htake]
    cases failFast <;> exact ⟨rfl, rfl, rfl, rfl, rfl⟩

theorem records_intake : s.Records (s.intake i) (i.units s.settings.failFast) := by
  cases i with
  | populate => exact records_populate
  | ingest => exact records_ingest
  | registerPackage => exact ⟨rfl, rfl, rfl, rfl, rfl⟩
  | declare => exact records_declare

/-- What two stores have in common whenever they both record a flawless unit, two sessions have in
common when both take the same facts in. -/
theorem intake_induction {P : Store → Store → Prop}
    (htake : ∀ u, u.flaw? = none → ∀ s t, P s t → P (s.take u) (t.take u))
    (hsettings : t.settings = s.settings) (h : P s.store t.store) :
    P (s.intake i).store (t.intake i).store := by
  rw [s.records_intake.store_eq, t.records_intake.store_eq, hsettings]
  exact List.foldl_rel h fun u hu s t h => htake u (Intake.flaw?_of_mem_units hu) s t h

/-- No intake records an override. -/
theorem range_intake : (s.intake i).store.range d .overrides = s.store.range d .overrides :=
  intake_induction (P := fun t _ => t.range d .overrides = s.store.range d .overrides) (t := s)
    (fun _ hu _ _ h => (Store.range_take hu).trans h) rfl rfl

@[simp] theorem settings_intake : (s.intake i).settings = s.settings :=
  s.records_intake.settings_eq

@[simp] theorem library_intake : (s.intake i).library = s.library := s.records_intake.library_eq

@[simp] theorem worklist_intake : (s.intake i).worklist = s.worklist :=
  s.records_intake.worklist_eq

/-- The same packages are registered in two sessions. -/
theorem project_intake (hsettings : t.settings = s.settings) (h : s.project = t.project) :
    (s.intake i).project = (t.intake i).project := by
  rw [s.records_intake.project_eq, t.records_intake.project_eq, hsettings, h]

/-- A package stays registered. -/
theorem owns_intake (h : s.owns e = true) : (s.intake i).owns e = true := by
  unfold owns Packages.owns at h ⊢
  rw [s.records_intake.project_eq]
  refine List.foldlRecOn (motive := fun p : Packages => p.contains e.package = true) _ _ h ?_
  intro p hp u _
  unfold Packages.take
  split
  · simp [hp]
  · exact hp

/-! ## Populated sessions -/

theorem range_intakeAll :
    (s.intakeAll is).store.range d .overrides = s.store.range d .overrides := by
  induction is generalizing s with
  | nil => rfl
  | cons i is ih => exact ih.trans range_intake

@[simp] theorem settings_intakeAll : (s.intakeAll is).settings = s.settings := by
  induction is generalizing s with
  | nil => rfl
  | cons i is ih => exact ih.trans settings_intake

@[simp] theorem library_intakeAll : (s.intakeAll is).library = s.library := by
  induction is generalizing s with
  | nil => rfl
  | cons i is ih => exact ih.trans library_intake

@[simp] theorem worklist_intakeAll : (s.intakeAll is).worklist = s.worklist := by
  induction is generalizing s with
  | nil => rfl
  | cons i is ih => exact ih.trans worklist_intake

/-- A session that has only taken facts in has recorded no override. -/
@[simp] theorem range_populated {settings : Settings} {library : Library} :
    ((create settings library).intakeAll is).store.range d .overrides = ∅ := by
  rw [range_intakeAll]
  simp [create, Store.empty, Store.range, Store.record]

end Session
end CodeAtlas
