import CodeAtlas.Proofs.Session.History

/-!
# Everything that a session can be asked to do

Besides taking facts in and running hierarchy analysis, a session records single tuples and answers
questions. A question may intern elements, and that is all it changes.

## Main definitions

* `Question`, with `Session.asked`: what a session can be asked.
* `Operation`, with `Session.perform` and `Session.performAll`: what it can be asked to do.
* `Session.perform_context`: what stays as it was built.
-/
namespace CodeAtlas

/-- A question that a session answers. -/
inductive Question where
  | range (d : Element) (r : Relation)
  | projectRange (d : Element) (r : Relation)
  | overridden (m : Element)
  | lookup (k : Key)
  | elementOf (k : Key)
  | handleOf (e : Element)
  | owns (e : Element)
  | modifiers (e : Element)

/-- What a session can be asked to do. -/
inductive Operation : Type 1 where
  | call (c : Call)
  | relate (d : Element) (r : Relation) (e : Element)
  | relateBoth (d : Element) (r : Relation) (e : Element)
  | ask (q : Question)

namespace Session

variable {s : Session} {o : Operation} {ops : List Operation}

/-- The session after a question. -/
def asked (s : Session) : Question → Session
  | .range d r => (s.range d r).2
  | .overridden m => (s.overridden m).2
  | .lookup k => (s.lookup k).2
  | .elementOf k => (s.elementOf k).2
  | .projectRange .. | .handleOf .. | .owns .. | .modifiers .. => s

/-- Perform an operation. -/
def perform (s : Session) : Operation → Session
  | .call c => s.call c
  | .relate d r e => (s.relate d r e).2
  | .relateBoth d r e => (s.relateBoth d r e).2
  | .ask q => s.asked q

/-- Perform operations one after the other. -/
def performAll (s : Session) (ops : List Operation) : Session := ops.foldl perform s

/-! ## Questions -/

/-- The range of an element is what the view shows, whatever the registry holds. -/
theorem range_eq (s : Session) (d : Element) (r : Relation) : ∃ qs,
    s.range d r = (s.range? d r, { s with registry := s.registry.askAll qs }) := by
  rw [range, range?]
  by_cases hrefused : (r.isComputed && !s.settings.analysis) = true
  · simp only [guard, hrefused, if_true]
    exact ⟨[], rfl⟩
  · simp only [guard, hrefused, Bool.false_eq_true, if_false]
    obtain ⟨found, qs, hfound, hconsult⟩ := consult_of_meets (s.view.meets_findings? d r s.registry)
    refine ⟨qs, ?_⟩
    rw [hconsult]
    generalize s.view.range? d r = answer at hfound ⊢
    cases found with
    | ok fs =>
      cases answer with
      | ok range =>
        have helements : fs.map Finding.element = range.toList := Except.ok.inj hfound
        simp only [Except.map, helements, ElementSet.ofList_toList]
      | error => cases hfound
    | error fault =>
      cases answer with
      | ok => cases hfound
      | error fault' =>
        obtain rfl : fault = fault' := Except.error.inj hfound
        rfl

/-- What a method overrides is what the view shows. -/
theorem overridden_eq (s : Session) (m : Element) : ∃ qs,
    s.overridden m = (s.view.overridden m, { s with registry := s.registry.askAll qs }) := by
  obtain ⟨found, qs, ⟨hfound, -⟩, hconsult⟩ :=
    consult_of_meets (s.view.meets_overriddenIn m s.registry)
  refine ⟨qs, ?_⟩
  simp only [overridden, hconsult, hfound, ElementSet.ofList_toList]

/-- The element of a declared key is what the library says. -/
theorem elementOf_eq (s : Session) (k : Key) : ∃ qs,
    s.elementOf k = (s.library.element k, { s with registry := s.registry.askAll qs }) := by
  obtain ⟨found, qs, ⟨hfound, -⟩, hconsult⟩ := consult_of_meets (s.library.meets_resolve k s.registry)
  exact ⟨qs, by simp only [elementOf, hconsult, hfound]⟩

/-- A question does no more than ask the registry for instances. -/
theorem asked_askAll (s : Session) (q : Question) :
    ∃ qs, s.asked q = { s with registry := s.registry.askAll qs } := by
  cases q with
  | range d r =>
    obtain ⟨qs, h⟩ := s.range_eq d r
    exact ⟨qs, congrArg Prod.snd h⟩
  | overridden m =>
    obtain ⟨qs, h⟩ := s.overridden_eq m
    exact ⟨qs, congrArg Prod.snd h⟩
  | elementOf k =>
    obtain ⟨qs, h⟩ := s.elementOf_eq k
    exact ⟨qs, congrArg Prod.snd h⟩
  | lookup k => exact ⟨[.key k], rfl⟩
  | projectRange | handleOf | owns | modifiers => exact ⟨[], rfl⟩

/-- A question changes nothing but the registry. -/
theorem asked_eq (s : Session) (q : Question) :
    ∃ registry : Registry, s.asked q = { s with registry } := by
  obtain ⟨qs, h⟩ := s.asked_askAll q
  exact ⟨_, h⟩

/-! ## Operations -/

@[simp] theorem store_asked (s : Session) (q : Question) : (s.asked q).store = s.store := by
  obtain ⟨registry, h⟩ := s.asked_eq q
  rw [h]

@[simp] theorem performAll_cons : s.performAll (o :: ops) = (s.perform o).performAll ops := rfl

/-- An operation does not change what a session was built with. -/
theorem perform_context (s : Session) (o : Operation) :
    (s.perform o).settings = s.settings ∧ (s.perform o).library = s.library := by
  cases o with
  | call c =>
    cases c with
    | intake i => exact ⟨settings_intake, library_intake⟩
    | analysis r => exact ⟨settings_run, library_run⟩
  | relate | relateBoth => exact ⟨rfl, rfl⟩
  | ask q =>
    obtain ⟨registry, h⟩ := s.asked_eq q
    rw [perform, h]
    exact ⟨rfl, rfl⟩

theorem library_performAll : (s.performAll ops).library = s.library := by
  induction ops generalizing s with
  | nil => rfl
  | cons o ops ih => exact ih.trans (s.perform_context o).2

@[simp] theorem settings_performAll : (s.performAll ops).settings = s.settings := by
  induction ops generalizing s with
  | nil => rfl
  | cons o ops ih => exact ih.trans (s.perform_context o).1

end Session
end CodeAtlas
