import CodeAtlas.Proofs.Hierarchy.Resumption
import CodeAtlas.Proofs.Session.Operations

/-!
# Questions leave no trace

A question asks the registry for instances on its way, and so do taking in units, hierarchy analysis
and later questions, all of which go on with the elements of the instances that the registry gives
them. But an instance is made for a key just if the key names an element, and it is an instance of
that element, whether or not it was there before. So two sessions that differ in their registries
alone answer alike, and differ in their registries alone after any operation. Hence questions may be
left out of a history without a trace. Which instance stands for an element is not compared here,
since that does depend on the questions.

## Main definitions

* `Result`, with `Session.result` and `Session.results`: what comes back from operations.
* `Session.Same.result_eq`, `Session.Same.perform`: operations do not tell registries apart.
* `leaveOut`: a list without the places that are marked.
* `Session.questions_leave_no_trace`: what becomes of a history without some of its questions.
-/
namespace CodeAtlas

/-- What comes back from an operation, and what a listener makes of it. Of an instance only the
element is looked at. -/
inductive Result : Type 1 where
  | populated {σ : Type} (result : Except Fault Tally) (l : Listener σ)
  | ingested (result : Except Fault Unit)
  | analyzed {σ : Type} (result : Except Fault Report) (l : Listener σ)
  | truth (b : Bool)
  | element (result : Except Fault Element)
  | range (result : Except Fault ElementSet)
  | methods (overridden : ElementSet)
  | handle (result : Except Fault Key)
  | modifiers (m : Modifiers)

/-! ## Analysis -/

namespace Analysis

variable {σ : Type}

/-- The listener is told the same, whatever the instances are. -/
theorem drain_withRegistry (scope : Scope) (sink : Sink σ) (queue : List Element) (l : Listener σ)
    (a : Analysis) (ρ : Registry) : ∃ ρ', drain scope sink queue l (a.withRegistry ρ)
      = ((drain scope sink queue l a).1, (drain scope sink queue l a).2.withRegistry ρ') := by
  induction queue generalizing l a ρ with
  | nil =>
    refine ⟨ρ, ?_⟩
    rw [drain, drain]
    split <;> rfl
  | cons m rest ih =>
    rw [drain, drain]
    split
    · exact ⟨ρ, rfl⟩
    · obtain ⟨ρ', hprocess⟩ := process_withRegistry scope (a.withQueue rest) m ρ
      have hqueue : (a.withRegistry ρ).withQueue rest = (a.withQueue rest).withRegistry ρ := rfl
      rw [hqueue, hprocess]
      exact ih _ _ ρ'

theorem run_withRegistry (scope : Scope) (sink : Sink σ) (l : Listener σ) (a : Analysis)
    (ρ : Registry) : ∃ ρ', run scope sink l (a.withRegistry ρ)
      = ((run scope sink l a).1, (run scope sink l a).2.withRegistry ρ') := by
  obtain ⟨ρ', hdrain⟩ := drain_withRegistry scope sink a.worklist.queue
    (l.tell sink (.begun .analysis a.worklist.queue.length))
    ((a.withCancelled false).withStatus .running) ρ
  have hstart : ((a.withRegistry ρ).withCancelled false).withStatus .running
      = ((a.withCancelled false).withStatus .running).withRegistry ρ := rfl
  refine ⟨ρ', ?_⟩
  simp only [run]
  rw [hstart]
  simp only [withRegistry] at hdrain ⊢
  rw [hdrain]

end Analysis

namespace Session

variable {s t : Session} {o : Operation} {ops : List Operation} {q : Question} {σ : Type}

/-- What comes back from a question. -/
def replyToQuestion (s : Session) : Question → Result
  | .range d r => .range (s.range d r).1
  | .projectRange d r => .range (s.projectRange? d r)
  | .overridden m => .methods (s.overridden m).1
  | .lookup k => .element ((s.lookup k).1.map Interned.element)
  | .elementOf k => .element (s.elementOf k).1
  | .handleOf e => .handle (s.handleOf e)
  | .owns e => .truth (s.owns e)
  | .modifiers e => .modifiers (s.store.modifiers e)

/-- What comes back from an operation. -/
def result (s : Session) : Operation → Result
  | .call (.intake (.populate sink l items)) =>
    .populated (s.populate sink items l).1 (s.populate sink items l).2.1
  | .call (.intake (.ingest u)) => .ingested (s.ingest u).1
  | .call (.intake (.registerPackage name)) => .truth (s.registerPackage name).1
  | .call (.intake (.declare k m)) => .element (s.declare k m).1
  | .call (.analysis r) =>
    .analyzed (s.analyze r.sink r.listener).1 (s.analyze r.sink r.listener).2.1
  | .relate d r e => .truth (s.relate d r e).1
  | .relateBoth d r e => .truth (s.relateBoth d r e).1
  | .ask q => s.replyToQuestion q

/-- What comes back from operations that are performed one after the other. -/
def results (s : Session) : List Operation → List Result
  | [] => []
  | o :: ops => s.result o :: (s.perform o).results ops

/-! ## Sessions that differ in their registries -/

/-- Whatever the registry, a key gives the element that it names by itself. -/
theorem element_lookup (s : Session) (k : Key) :
    (s.lookup k).1.map Interned.element = Element.read k := s.registry.element_get k

/-- A question is answered alike, since each answer is what the view or the library shows. -/
theorem Same.replyToQuestion_eq (h : s.Same t) (q : Question) :
    t.replyToQuestion q = s.replyToQuestion q := by
  obtain ⟨registry, rfl⟩ := h
  cases q with
  | lookup k => simp only [replyToQuestion, element_lookup]
  | range d r =>
    obtain ⟨_, hs⟩ := s.range_eq d r
    obtain ⟨_, ht⟩ := { s with registry }.range_eq d r
    simp only [replyToQuestion, hs, ht]
    rfl
  | overridden m =>
    obtain ⟨_, hs⟩ := s.overridden_eq m
    obtain ⟨_, ht⟩ := { s with registry }.overridden_eq m
    simp only [replyToQuestion, hs, ht]
    rfl
  | elementOf k =>
    obtain ⟨_, hs⟩ := s.elementOf_eq k
    obtain ⟨_, ht⟩ := { s with registry }.elementOf_eq k
    simp only [replyToQuestion, hs, ht]
  | projectRange | handleOf | owns | modifiers => rfl

theorem same_asked (s : Session) (q : Question) : s.Same (s.asked q) := s.asked_eq q

theorem Same.asked (h : s.Same t) (q : Question) : (s.asked q).Same (t.asked q) :=
  (s.same_asked q).symm.trans (h.trans (t.same_asked q))

theorem Same.declare (h : s.Same t) (k : Key) (m : Modifiers) :
    (t.declare k m).1 = (s.declare k m).1 ∧ (s.declare k m).2.Same (t.declare k m).2 := by
  obtain ⟨registry, rfl⟩ := h
  obtain ⟨qs, hs⟩ := s.declare_eq k m
  obtain ⟨qs', ht⟩ := { s with registry }.declare_eq k m
  rw [hs, ht]
  exact ⟨rfl, _, rfl⟩

theorem Same.ingest (h : s.Same t) (u : SourceUnit) :
    (t.ingest u).1 = (s.ingest u).1 ∧ (s.ingest u).2.Same (t.ingest u).2 := by
  obtain ⟨registry, rfl⟩ := h
  obtain ⟨_, ⟨hs, hsingest⟩ | ⟨flaw, hs, hsingest⟩⟩ := s.ingest_cases u
  · obtain ⟨ρ, htingest⟩ := { s with registry }.ingest_of_flawless hs
    rw [hsingest, htingest]
    exact ⟨rfl, ρ, rfl⟩
  · obtain ⟨ρ, htingest⟩ := { s with registry }.ingest_of_flaw hs
    rw [hsingest, htingest]
    exact ⟨rfl, ρ, rfl⟩

theorem Same.accept (h : s.Same t) (n : Nat) (item : Except Fault SourceUnit) :
    (t.accept n item).1 = (s.accept n item).1 ∧ (s.accept n item).2.Same (t.accept n item).2 := by
  cases item with
  | error fault => exact ⟨rfl, h⟩
  | ok u =>
    obtain ⟨hresult, hsame⟩ := h.ingest u
    rw [Session.accept, Session.accept]
    generalize s.ingest u = left at hresult hsame ⊢
    generalize t.ingest u = right at hresult hsame ⊢
    obtain ⟨result, s'⟩ := left
    obtain ⟨result', t'⟩ := right
    obtain rfl : result' = result := hresult
    obtain ⟨registry, rfl⟩ : s'.Same t' := hsame
    cases result' <;> exact ⟨rfl, registry, rfl⟩

theorem Same.skip (h : s.Same t) : s.skip.Same t.skip := by
  obtain ⟨registry, rfl⟩ := h
  exact ⟨registry, rfl⟩

/-- Populating tells the listener the same. -/
theorem Same.acceptAll (h : s.Same t) (sink : Sink σ) (n : Nat)
    (items : List (Except Fault SourceUnit)) (l : Listener σ) :
    (acceptAll sink n items l t).1 = (acceptAll sink n items l s).1 ∧
      (acceptAll sink n items l t).2.1 = (acceptAll sink n items l s).2.1 ∧
      (acceptAll sink n items l s).2.2.Same (acceptAll sink n items l t).2.2 := by
  induction items generalizing n l s t with
  | nil => exact ⟨rfl, rfl, h⟩
  | cons item items ih =>
    obtain ⟨hresult, hsame⟩ := h.accept n item
    rw [Session.acceptAll, Session.acceptAll]
    generalize s.accept n item = left at hresult hsame ⊢
    generalize t.accept n item = right at hresult hsame ⊢
    obtain ⟨result, s'⟩ := left
    obtain ⟨result', t'⟩ := right
    obtain rfl : result' = result := hresult
    replace hsame : s'.Same t' := hsame
    cases result' with
    | ok => exact ih hsame _ _
    | error fault =>
      dsimp only
      rw [hsame.settings_eq]
      split
      · exact ⟨rfl, rfl, hsame⟩
      · exact ih hsame.skip _ _

theorem Same.populate (h : s.Same t) (sink : Sink σ) (items : List (Except Fault SourceUnit))
    (l : Listener σ) :
    (t.populate sink items l).1 = (s.populate sink items l).1 ∧
      (t.populate sink items l).2.1 = (s.populate sink items l).2.1 ∧
      (s.populate sink items l).2.2.Same (t.populate sink items l).2.2 := by
  have hall := h.acceptAll sink 0 items (l.tell sink (.begun .population items.length))
  unfold Session.populate
  generalize Session.acceptAll sink 0 items _ s = left at hall ⊢
  generalize Session.acceptAll sink 0 items _ t = right at hall ⊢
  obtain ⟨result, l, s'⟩ := left
  obtain ⟨result', l', t'⟩ := right
  obtain ⟨hresult, hl, hsame⟩ := hall
  obtain rfl : result' = result := hresult
  obtain rfl : l' = l := hl
  cases result' with
  | error => exact ⟨rfl, rfl, hsame⟩
  | ok =>
    obtain ⟨registry, rfl⟩ : s'.Same t' := hsame
    exact ⟨rfl, rfl, registry, rfl⟩

theorem Same.analyze (h : s.Same t) (sink : Sink σ) (l : Listener σ) :
    (t.analyze sink l).1 = (s.analyze sink l).1 ∧
      (t.analyze sink l).2.1 = (s.analyze sink l).2.1 ∧
      (s.analyze sink l).2.2.Same (t.analyze sink l).2.2 := by
  obtain ⟨registry, rfl⟩ := h
  by_cases hanalysis : s.settings.analysis = true
  · obtain ⟨ρ', hrun⟩ := Analysis.run_withRegistry s.scope sink l s.outset registry
    simp only [outset, Analysis.withRegistry] at hrun
    have hpending : { s with registry }.pending = s.pending := rfl
    have hscope : { s with registry }.scope = s.scope := rfl
    simp only [Session.analyze, hanalysis, if_true, hpending, hscope, hrun, true_and]
    exact ⟨ρ', rfl⟩
  · simp only [Session.analyze, hanalysis]
    exact ⟨rfl, rfl, registry, rfl⟩

/-- **What comes back from an operation does not depend on the registry.** -/
theorem Same.result_eq (h : s.Same t) (o : Operation) : t.result o = s.result o := by
  cases o with
  | ask q => exact h.replyToQuestion_eq q
  | relate d r e =>
    obtain ⟨registry, rfl⟩ := h
    rfl
  | relateBoth d r e =>
    obtain ⟨registry, rfl⟩ := h
    rfl
  | call c =>
    cases c with
    | analysis r =>
      obtain ⟨hresult, hl, -⟩ := h.analyze r.sink r.listener
      rw [result, result, hresult, hl]
    | intake i =>
      cases i with
      | populate sink l items =>
        obtain ⟨hresult, hl, -⟩ := h.populate sink items l
        rw [result, result, hresult, hl]
      | ingest u =>
        obtain ⟨hresult, -⟩ := h.ingest u
        rw [result, result, hresult]
      | registerPackage name =>
        obtain ⟨registry, rfl⟩ := h
        rfl
      | declare k m =>
        obtain ⟨hresult, -⟩ := h.declare k m
        rw [result, result, hresult]

/-- **Neither does what it leaves, apart from the registry.** -/
theorem Same.perform (h : s.Same t) (o : Operation) : (s.perform o).Same (t.perform o) := by
  cases o with
  | ask q => exact h.asked q
  | relate d r e =>
    obtain ⟨registry, rfl⟩ := h
    exact ⟨registry, rfl⟩
  | relateBoth d r e =>
    obtain ⟨registry, rfl⟩ := h
    exact ⟨registry, rfl⟩
  | call c =>
    cases c with
    | analysis r => exact (h.analyze r.sink r.listener).2.2
    | intake i =>
      cases i with
      | populate sink l items => exact (h.populate sink items l).2.2
      | ingest u => exact (h.ingest u).2
      | registerPackage name =>
        obtain ⟨registry, rfl⟩ := h
        exact ⟨registry, rfl⟩
      | declare k m => exact (h.declare k m).2

/-! ## Histories without some of their questions -/

/-- Operations that are performed one after the other do not tell registries apart. -/
theorem Same.performAll (h : s.Same t) (ops : List Operation) :
    t.results ops = s.results ops ∧ (s.performAll ops).Same (t.performAll ops) := by
  induction ops generalizing s t with
  | nil => exact ⟨rfl, h⟩
  | cons o ops ih =>
    obtain ⟨hresults, hsame⟩ := ih (h.perform o)
    exact ⟨congrArg₂ List.cons (h.result_eq o) hresults, hsame⟩

end Session

/-- What is left of a list without the places that are marked. -/
def leaveOut {α : Type*} : List Bool → List α → List α
  | [], xs => xs
  | _ :: _, [] => []
  | mark :: marks, x :: xs => if mark then leaveOut marks xs else x :: leaveOut marks xs

namespace Session

variable {s t : Session} {ops : List Operation} {marks : List Bool}

/-- So the second of two such sessions may be spared some of the questions. -/
theorem Same.leaveOut (h : s.Same t)
    (hmarks : ∀ p ∈ marks.zip ops, p.1 = true → ∃ q, p.2 = .ask q) :
    t.results (leaveOut marks ops) = leaveOut marks (s.results ops) ∧
      (s.performAll ops).Same (t.performAll (leaveOut marks ops)) := by
  induction ops generalizing marks s t with
  | nil => cases marks <;> exact ⟨rfl, h⟩
  | cons o ops ih =>
    cases marks with
    | nil => exact h.performAll (o :: ops)
    | cons mark marks =>
      have hrest : ∀ p ∈ marks.zip ops, p.1 = true → ∃ q, p.2 = .ask q := fun p hp =>
        hmarks p (List.mem_cons_of_mem _ hp)
      cases mark with
      | true =>
        -- the question is left out: only the session that was asked has moved on
        obtain ⟨q, rfl⟩ : ∃ q, o = .ask q := hmarks (true, o) List.mem_cons_self rfl
        exact ih ((s.same_asked q).symm.trans h) hrest
      | false =>
        obtain ⟨hresults, hsame⟩ := ih (h.perform o) hrest
        exact ⟨congrArg₂ List.cons (h.result_eq o) hresults, hsame⟩

/-- **Questions leave no trace**: a history without some of its questions ends in a session that
differs in its registry at most, and everything else that is done on the way gives the same. -/
theorem questions_leave_no_trace (s : Session) (marks : List Bool) (ops : List Operation)
    (h : ∀ p ∈ marks.zip ops, p.1 = true → ∃ q, p.2 = .ask q) :
    s.results (leaveOut marks ops) = leaveOut marks (s.results ops) ∧
      ∃ registry, s.performAll (leaveOut marks ops) = { s.performAll ops with registry } :=
  (Same.refl s).leaveOut h

/-- A library of two types, each of which declares one method. -/
def askedLibrary : Library := .catalogue (.ofList [
  { id := "lib.L", methods := [⟨"lib.L.run()", {}⟩] },
  { id := "lib.M", methods := [⟨"lib.M.walk()", {}⟩] }])

/-- One of the types. -/
def askedType : Element := ⟨"lib.M", .type, by decide +kernel⟩

/-- What that type declares, a class that extends the other one, what the method of the class
overrides, hierarchy analysis, and what it has found. -/
def askedHistory : List Operation :=
  [.ask (.range askedType .declaresMethod),
    .call (.intake (.ingest (.ofClass "p" "p.C" (some "lib.L") ["run"]))),
    .ask (.overridden runMethod),
    .call (.analysis .silent),
    .ask (.range runMethod .overrides)]

/-- The first two questions of it. -/
def earlyQuestions : List Bool := [true, false, true, false]

/-- Without them fewer elements have instances, and nothing else is different. -/
theorem questions_leave_no_trace_apart_from_instances :
    (∃ registry, (create {} askedLibrary).performAll (leaveOut earlyQuestions askedHistory)
        = { (create {} askedLibrary).performAll askedHistory with registry }) ∧
      ((create {} askedLibrary).performAll (leaveOut earlyQuestions askedHistory)).registry.size
        < ((create {} askedLibrary).performAll askedHistory).registry.size ∧
      (create {} askedLibrary).results (leaveOut earlyQuestions askedHistory)
        = leaveOut earlyQuestions ((create {} askedLibrary).results askedHistory) := by
  have hquestions : ∀ p ∈ earlyQuestions.zip askedHistory, p.1 = true → ∃ q, p.2 = .ask q := by
    simp [earlyQuestions, askedHistory]
  obtain ⟨hresults, hstate⟩ :=
    questions_leave_no_trace (create {} askedLibrary) earlyQuestions askedHistory hquestions
  exact ⟨hstate, by decide +kernel, hresults⟩

end Session
end CodeAtlas
