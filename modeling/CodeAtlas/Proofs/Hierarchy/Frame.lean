import CodeAtlas.Proofs.Hierarchy.Growth
import CodeAtlas.Proofs.Session.Intake

/-!
# What a step may change

A step of the analysis takes one element and records what it overrides. It takes nothing away. It
leaves alone the tuples of all other relations, the modifiers of the project's elements and those of
everything that is no method. What it adds can be told beforehand, from what the element overrides
by the store before the step: the overrides themselves, both ways, and for each method among them
that lies outside the project the modifiers that the library declares. A method that the library
does not declare has none afterwards, whatever was recorded before.

## Main definitions

* `Store.TakenTo`: what a step may change, and what it brings about.
* `Analysis.takenTo_step`: a step does that and no more.
-/
namespace CodeAtlas

/-- The first store has become the second by an element being taken. -/
structure Store.TakenTo (scope : Scope) (m : Element) (s t : Store) : Prop where
  /-- No element is removed. -/
  known : ∀ e, s.contains e = true → t.contains e = true
  /-- No tuple is removed. -/
  kept : ∀ d r x, x ∈ s.range d r → x ∈ t.range d r
  /-- The tuples of the relations that are not computed stay as they are. -/
  stated : ∀ d r, r.isComputed = false → t.range d r = s.range d r
  /-- Elements of the project keep their modifiers. -/
  owned : ∀ e, scope.project.owns e = true → t.modifiers e = s.modifiers e
  /-- So does everything that is no method. -/
  unlike : ∀ e, e.isMethod = false → t.modifiers e = s.modifiers e
  /-- Only methods become known. -/
  new : ∀ e, t.contains e = true → s.contains e = false → e.isMethod = true
  /-- The tuples that are added are overrides of the element, and their transposes. -/
  added : ∀ d r x, x ∈ t.range d r → x ∉ s.range d r →
    (d = m ∧ r = .overrides ∧ x ∈ View.overridden ⟨scope, s⟩ m) ∨
      (d ∈ View.overridden ⟨scope, s⟩ m ∧ r = Relation.overrides.transpose ∧ x = m)
  /-- Each override is stored both ways. -/
  recorded : ∀ y ∈ View.overridden ⟨scope, s⟩ m,
    y ∈ t.range m .overrides ∧ m ∈ t.range y Relation.overrides.transpose
  /-- What is overridden outside the project has the declared modifiers, and is marked if it is
  declared abstract. -/
  declared : ∀ y ∈ View.overridden ⟨scope, s⟩ m, scope.project.owns y = false →
    ∀ d, scope.library.declaration? y.key = some d → t.modifiers y =
      if d.modifiers.isAbstract then d.modifiers ∪ .abstractInferred else d.modifiers
  /-- It has no modifiers if it is not declared. -/
  undeclared : ∀ y ∈ View.overridden ⟨scope, s⟩ m, scope.project.owns y = false →
    scope.library.declaration? y.key = none → t.modifiers y = .empty
  /-- No other modifiers change. -/
  otherwise : ∀ e, ¬ (e ∈ View.overridden ⟨scope, s⟩ m ∧ scope.project.owns e = false) →
    t.modifiers e = s.modifiers e

namespace Analysis

variable {scope : Scope} {a : Analysis} {m e : Element} {rest : List Element}

/-- What becomes known when an element is taken is overridden by it, or is the element itself. -/
theorem isMethod_of_new (hnew : (a.process scope m).store.contains e = true)
    (hold : a.store.contains e = false) : e.isMethod = true := by
  rcases contains_process.mp hnew with ⟨rfl, hsome⟩ | he | he
  · obtain ⟨y, hy⟩ := not_forall_not.mp (mt Std.ExtTreeSet.eq_empty_iff_forall_not_mem.mpr hsome)
    exact View.isMethod_of_overrides hy
  · exact View.isMethod_of_mem_overridden he
  · simp [hold] at he

/-- An element keeps its modifiers unless it is overridden from outside the project. -/
theorem modifiers_process_of_not (h : ¬ (e ∈ a.overridden scope m ∧ scope.project.owns e = false)) :
    (a.process scope m).store.modifiers e = a.store.modifiers e := by
  rw [modifiers_process, if_neg h]

theorem takenTo_process : a.store.TakenTo scope m (a.process scope m).store where
  known _ := growsTo_process.contains
  kept _ _ _ hx := mem_range_process.mpr (.inr (.inr hx))
  stated := growsTo_process.tuples
  owned _ := growsTo_process.owned
  unlike e hplain := modifiers_process_of_not fun h => by
    simp [View.isMethod_of_mem_overridden h.1] at hplain
  new _ := isMethod_of_new
  added d r x hx hold := by
    rcases mem_range_process.mp hx with hx | hx | hx
    · exact .inl hx
    · exact .inr hx
    · exact absurd hx hold
  recorded y hy :=
    ⟨mem_range_process.mpr (.inl ⟨rfl, rfl, hy⟩),
      mem_range_process.mpr (.inr (.inl ⟨hy, rfl, rfl⟩))⟩
  declared y hy hown d hd := by
    rw [modifiers_process, if_pos ⟨hy, hown⟩, Library.inferred_of_declaration hd]
    rfl
  undeclared y hy hown hd := by
    rw [modifiers_process, if_pos ⟨hy, hown⟩, Library.inferred_of_undeclared hd]
    rfl
  otherwise _ := modifiers_process_of_not

/-- A step that tells which element it was has taken the first one that waits. -/
theorem step_eq_some (h : (a.step scope).1 = some m) :
    ∃ rest, a.worklist.queue = m :: rest ∧ (a.step scope).2 = (a.withQueue rest).process scope m := by
  unfold step at h ⊢
  split at h
  next => cases h
  next first rest hq =>
    obtain rfl := Option.some.inj h
    exact ⟨rest, hq, rfl⟩

/-- **A step changes only what it may**, whatever is stored, declared and waiting. -/
theorem takenTo_step (h : (a.step scope).1 = some m) :
    a.store.TakenTo scope m (a.step scope).2.store := by
  obtain ⟨rest, -, hstep⟩ := step_eq_some h
  rw [hstep]
  exact takenTo_process (a := a.withQueue rest)

/-! ## A method that overrides itself -/

/-- A class outside the project with an abstract method, and a superclass of it that lists a method
of the project. -/
def entangledLibrary : Library := .catalogue (.ofList [
  { id := "lib.K", superclass := some "lib.L", methods := [⟨"lib.K.run()", ⟨0x401⟩⟩] },
  { id := "lib.L", methods := [⟨"p.C.run()", ⟨0x9⟩⟩] }])

/-- The class of that method, and a superclass of it in the project that declares a method of no
class that is known. -/
def entangledSession : Session := (Session.create {} entangledLibrary).intakeAll
  [.ingest (.ofClass "p" "p.C" (some "p.B") ["run"]),
    .ingest { path := "p.B.java", elements := [⟨.method, "q.X.run()", ⟨0x1⟩⟩], relations :=
      [⟨⟨.type, "p.B"⟩, .extendsClass, ⟨.type, "lib.K"⟩, true⟩,
        ⟨⟨.type, "p.B"⟩, .declaresMethod, ⟨.method, "q.X.run()"⟩, true⟩] }]

/-- The analysis that takes the method next. -/
def entangled : Analysis := ⟨entangledSession.store, { queue := [runMethod] }, .empty⟩

/-- The abstract method. -/
def hollowMethod : Element := ⟨"lib.K.run()", .method "lib.K" "run" [], by decide +kernel⟩

/-- The method of no known class. -/
def strayMethod : Element := ⟨"q.X.run()", .method "q.X" "run" [], by decide +kernel⟩

/-- The method is found to override itself, which leaves its modifiers alone, the abstract method is
marked, and the method that is not declared loses the modifiers that it had. -/
theorem takenTo_step_entangled :
    (entangled.step entangledSession.scope).1 = some runMethod ∧
      runMethod ∈ (entangled.step entangledSession.scope).2.store.range runMethod .overrides ∧
      (entangled.step entangledSession.scope).2.store.modifiers runMethod = ⟨0x1⟩ ∧
      (entangled.step entangledSession.scope).2.store.modifiers hollowMethod = ⟨0x4401⟩ ∧
      entangled.store.modifiers strayMethod = ⟨0x1⟩ ∧
      (entangled.step entangledSession.scope).2.store.modifiers strayMethod = .empty := by
  have hstep : (entangled.step entangledSession.scope).1 = some runMethod := by decide +kernel
  have hframe := takenTo_step hstep
  refine ⟨hstep, (hframe.recorded runMethod (by decide +kernel)).1, ?_, ?_, by decide +kernel, ?_⟩
  · rw [hframe.owned runMethod (by decide +kernel)]
    decide +kernel
  · exact hframe.declared hollowMethod (by decide +kernel) (by decide +kernel) ⟨⟨0x401⟩, false, none,
      [], [], [], []⟩ (by decide +kernel)
  · exact hframe.undeclared strayMethod (by decide +kernel) (by decide +kernel) (by decide +kernel)

end Analysis
end CodeAtlas
