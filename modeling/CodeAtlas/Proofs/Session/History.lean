import CodeAtlas.Proofs.Hierarchy.Run
import CodeAtlas.Proofs.Session.Intake

/-!
# Histories of a session

In its life a session takes facts in and runs hierarchy analysis, in any order, and each run may be
cancelled between any two elements. A run goes on where the one before it stopped, with what has
become known since at the end. Of all this the stored overrides keep one thing: each method is
recorded to override what it overrides on its turn, when a run takes it, and nothing that comes
later adds to that or takes from it.

## Main definitions

* `Run`, `Session.run`, `Session.taken`: a run, and the elements that it takes.
* `Call`, `Session.after`: what a session is asked to do, in any order.
* `Session.Turn`: that an element is taken at some point of a history.
* `Session.mem_range_after`: the stored overrides are those that were found on some turn.
-/
namespace CodeAtlas

/-- A run of hierarchy analysis, told apart by who listens. -/
structure Run : Type 1 where
  {σ : Type}
  sink : Sink σ
  listener : Listener σ

/-- A run that nobody listens to. -/
def Run.silent : Run := ⟨.silent, ⟨(), false⟩⟩

/-- What a session is asked to do. -/
inductive Call : Type 1 where
  | intake (i : Intake)
  | analysis (r : Run)

/-- The facts that a call takes in. -/
def Call.intakes : Call → List Intake
  | intake i => [i]
  | analysis _ => []

namespace Session

variable {s : Session} {r : Run} {rs : List Run} {i : Intake} {is : List Intake} {c : Call}
  {calls : List Call} {m d x : Element} {q : Relation} {v : View} {es pre post : List Element}

/-- Run hierarchy analysis, or go on with it. -/
def run (s : Session) (r : Run) : Session := (s.analyze r.sink r.listener).2.2

/-- Answer a call. -/
def call (s : Session) : Call → Session
  | .intake i => s.intake i
  | .analysis r => s.run r

/-- Answer calls one after the other. -/
def after (s : Session) (calls : List Call) : Session := calls.foldl call s

/-- The elements that the last run left waiting. -/
def waiting (s : Session) : List Element := s.worklist.elim [] (·.queue)

/-- The elements that wait, have been taken, or need not be taken. -/
def seen (s : Session) : ElementSet := s.worklist.elim ∅ (·.seen)

/-- The elements that a run takes, in their order. -/
def taken (s : Session) (r : Run) : List Element :=
  if s.settings.analysis then
    s.pending.queue.take (s.pending.queue.length - (s.run r).waiting.length)
  else []

/-- Where a run starts. -/
def outset (s : Session) : Analysis := ⟨s.store, s.pending, s.registry⟩

/-- How far a run has come once it has taken some elements. -/
def reached (s : Session) (es : List Element) : Analysis := s.outset.processAll s.scope es

/-- All that is known in a run once it has taken some elements. -/
def turn (s : Session) (es : List Element) : View := (s.reached es).view s.scope

/-- In the course of the calls a run takes the element, and what is known then is the view. -/
def Turn (s : Session) (calls : List Call) (m : Element) (v : View) : Prop :=
  ∃ before r rest pre post, calls = before ++ .analysis r :: rest ∧
    (s.after before).taken r = pre ++ m :: post ∧ v = (s.after before).turn pre

@[simp] theorem waiting_intake : (s.intake i).waiting = s.waiting := by
  simp only [waiting, worklist_intake]

@[simp] theorem seen_intake : (s.intake i).seen = s.seen := by
  simp only [seen, worklist_intake]

@[simp] theorem after_nil : s.after [] = s := rfl

@[simp] theorem after_cons : s.after (c :: calls) = (s.call c).after calls := rfl

theorem after_append {more : List Call} : s.after (calls ++ more) = (s.after calls).after more :=
  List.foldl_append

/-! ## One run -/

/-- A run takes a first part of what waits, and all of it unless it is cancelled. -/
theorem run_cases (h : s.settings.analysis = true) :
    ∃ a : Analysis,
      (a = s.outset.stopped s.scope (s.taken r) (s.run r).waiting ∨
        (s.run r).waiting = [] ∧ a = s.outset.finished s.scope (s.taken r)) ∧
      s.pending.queue = s.taken r ++ (s.run r).waiting ∧
      (s.analyze r.sink r.listener).1 = .ok a.worklist.report ∧
      s.run r = { s with store := a.store, worklist := some a.worklist, registry := a.registry } := by
  have hrun : ∀ a, (Analysis.run s.scope r.sink r.listener s.outset).2 = a →
      (s.analyze r.sink r.listener).1 = .ok a.worklist.report ∧
        s.run r = { s with store := a.store, worklist := some a.worklist, registry := a.registry } := by
    rintro _ rfl
    simp only [run, analyze, h, if_true]
    exact ⟨rfl, rfl⟩
  have htaken : ∀ done rest, s.pending.queue = done ++ rest → (s.run r).waiting = rest →
      s.taken r = done := fun done rest hq hw => by simp [taken, h, hw, hq]
  rcases Analysis.run_cases s.scope r.sink r.listener s.outset with
    ⟨done, rest, hq, hend⟩ | hend
  · obtain ⟨hok, hst⟩ := hrun _ hend
    have hw : (s.run r).waiting = rest := by rw [hst]; rfl
    rw [htaken done rest hq hw, hw]
    exact ⟨_, .inl rfl, hq, hok, hst⟩
  · obtain ⟨hok, hst⟩ := hrun _ hend
    have hw : (s.run r).waiting = [] := by rw [hst]; rfl
    rw [htaken _ [] (List.append_nil _).symm hw, hw]
    exact ⟨_, .inr ⟨rfl, rfl⟩, (List.append_nil _).symm, hok, hst⟩

theorem run_of_disabled (h : s.settings.analysis = false) : s.run r = s := by
  simp only [run, analyze, h, Bool.false_eq_true, if_false]

theorem queue_pending (h : s.settings.analysis = true) :
    s.pending.queue = s.taken r ++ (s.run r).waiting :=
  let ⟨_, _, hq, _⟩ := s.run_cases h
  hq

theorem mem_queue_of_mem_taken (h : s.settings.analysis = true) (hm : m ∈ s.taken r) :
    m ∈ s.pending.queue := by
  rw [s.queue_pending h]
  exact List.mem_append_left _ hm

theorem mem_queue_of_mem_waiting (h : s.settings.analysis = true) (hm : m ∈ (s.run r).waiting) :
    m ∈ s.pending.queue := by
  rw [s.queue_pending h]
  exact List.mem_append_right _ hm

/-- A run that is asked for takes place, and it leaves nothing waiting unless it is cancelled. -/
theorem analyze_eq_ok (h : s.settings.analysis = true) :
    ∃ report, (s.analyze r.sink r.listener).1 = .ok report ∧ (s.run r).report = some report ∧
      (report.cancelled = false → (s.run r).waiting = []) := by
  obtain ⟨a, ha, -, hok, hrun⟩ := s.run_cases (r := r) h
  refine ⟨_, hok, by rw [hrun]; rfl, ?_⟩
  intro hc
  rcases ha with rfl | ⟨hw, -⟩
  · simp [Analysis.stopped, Analysis.withCancelled] at hc
  · exact hw

/-- The run is not cancelled. -/
def Completes (s : Session) (r : Run) : Prop := (s.run r).report.map (·.cancelled) = some false

theorem Completes.waiting_eq_nil (hr : s.Completes r) (h : s.settings.analysis = true) :
    (s.run r).waiting = [] := by
  obtain ⟨report, -, hreport, hwaiting⟩ := s.analyze_eq_ok (r := r) h
  rw [Completes, hreport] at hr
  exact hwaiting (Option.some.inj hr)

theorem seen_run (h : s.settings.analysis = true) :
    (s.run r).seen = (s.reached (s.taken r)).worklist.seen := by
  obtain ⟨a, ha, -, -, hrun⟩ := s.run_cases (r := r) h
  rw [hrun]
  rcases ha with rfl | ⟨-, rfl⟩ <;> rfl

/-- What a run leaves in the store. -/
theorem store_run (s : Session) (r : Run) : ∃ status,
    (s.run r).store = (s.reached (s.taken r)).store.withStatus status := by
  by_cases h : s.settings.analysis = true
  · obtain ⟨a, ha, -, -, hrun⟩ := s.run_cases (r := r) h
    rw [hrun]
    rcases ha with rfl | ⟨-, rfl⟩
    · exact ⟨.cancelled, rfl⟩
    · exact ⟨.complete, rfl⟩
  · rw [Bool.not_eq_true] at h
    have htaken : s.taken r = [] := by simp [taken, h]
    rw [run_of_disabled h, htaken]
    exact ⟨s.store.status, rfl⟩

/-- A run does no more to the registry than to ask for instances. -/
theorem asked_run (s : Session) (r : Run) :
    ∃ qs, (s.run r).registry = s.registry.askAll qs := by
  by_cases h : s.settings.analysis = true
  · obtain ⟨a, ha, -, -, hrun⟩ := s.run_cases (r := r) h
    rw [hrun]
    have hreached : a.registry = (s.reached (s.taken r)).registry := by
      rcases ha with rfl | ⟨-, rfl⟩ <;> rfl
    rw [hreached]
    exact Analysis.asked_processAll
  · rw [Bool.not_eq_true] at h
    rw [run_of_disabled h]
    exact ⟨[], rfl⟩

/-- A run that takes place has started, even if it is cancelled at once. -/
theorem hasStarted_run (h : s.settings.analysis = true) :
    (s.run r).store.status.hasStarted = true := by
  obtain ⟨a, ha, -, -, hrun⟩ := s.run_cases (r := r) h
  rw [hrun]
  rcases ha with rfl | ⟨-, rfl⟩ <;> rfl

/-- What is kept whenever an element is taken, whatever the status is, a run keeps. -/
theorem run_induction {P : Store → Prop}
    (hprocess : ∀ (a : Analysis) (m : Element), P a.store → P (a.process s.scope m).store)
    (hstatus : ∀ (t : Store) (status : Status), P t → P (t.withStatus status)) (h : P s.store) :
    P (s.run r).store := by
  have hall : ∀ (es : List Element) (a : Analysis), P a.store →
      P (a.processAll s.scope es).store := by
    intro es
    induction es with
    | nil => exact fun _ ha => ha
    | cons m es ih => exact fun a ha => ih _ (hprocess a m ha)
  obtain ⟨status, hrun⟩ := s.store_run r
  rw [hrun]
  exact hstatus _ _ (hall (s.taken r) s.outset h)

theorem range_run :
    (s.run r).store.range d q = (s.reached (s.taken r)).store.range d q := by
  obtain ⟨status, h⟩ := s.store_run r
  rw [h, Store.range_withStatus]

/-- A run keeps what the analysis keeps. -/
theorem growsTo_run : s.store.GrowsTo s.scope (s.run r).store := by
  obtain ⟨status, hrun⟩ := s.store_run r
  rw [hrun]
  exact (Analysis.growsTo_processAll (a := s.outset)).withStatus status

/-- So does each part of it. -/
theorem growsTo_turn : s.store.GrowsTo s.scope (s.turn es).store :=
  Analysis.growsTo_processAll (a := s.outset)

theorem growsTo_run_of_turn (h : s.taken r = pre ++ post) :
    (s.turn pre).store.GrowsTo s.scope (s.run r).store := by
  obtain ⟨status, hrun⟩ := s.store_run r
  rw [hrun, h]
  exact Analysis.growsTo_processAll_append.withStatus status

/-- A run changes neither what a session was built with nor its project. -/
theorem run_context (s : Session) (r : Run) : (s.run r).settings = s.settings ∧
    (s.run r).library = s.library ∧ (s.run r).project = s.project := by
  by_cases h : s.settings.analysis = true
  · obtain ⟨a, -, -, -, hrun⟩ := s.run_cases (r := r) h
    rw [hrun]
    exact ⟨rfl, rfl, rfl⟩
  · rw [Bool.not_eq_true] at h
    rw [run_of_disabled h]
    exact ⟨rfl, rfl, rfl⟩

@[simp] theorem scope_run : (s.run r).scope = s.scope := by
  obtain ⟨-, hl, hp⟩ := s.run_context r
  simp only [scope, hl, hp]

@[simp] theorem settings_run : (s.run r).settings = s.settings := (s.run_context r).1

@[simp] theorem library_run : (s.run r).library = s.library := (s.run_context r).2.1

@[simp] theorem project_run : (s.run r).project = s.project := (s.run_context r).2.2

/-! ## Turns -/

/-- What a run finds of a method is what the method overrides on its turn. -/
theorem mem_range_run :
    x ∈ (s.run r).store.range m .overrides ↔ x ∈ s.store.range m .overrides ∨
      ∃ pre post, s.taken r = pre ++ m :: post ∧ x ∈ (s.turn pre).overridden m := by
  rw [range_run]
  exact Analysis.mem_range_processAll

/-- An element that is not taken is not found to override anything more. -/
theorem range_run_of_notMem (h : m ∉ s.taken r) :
    (s.run r).store.range m .overrides = s.store.range m .overrides := by
  rw [range_run]
  exact Analysis.range_processAll_of_notMem h

/-- An element that the first run takes is taken on the turn that is reached by the elements before
it. -/
theorem turn_of_taken (h : s.taken r = pre ++ m :: post) :
    s.Turn (.analysis r :: calls) m (s.turn pre) := ⟨[], r, calls, pre, post, rfl, h, rfl⟩

theorem turn_cons {c : Call} : s.Turn (c :: calls) m v ↔
    (∃ r pre post, c = .analysis r ∧ s.taken r = pre ++ m :: post ∧ v = s.turn pre) ∨
      (s.call c).Turn calls m v := by
  unfold Turn
  constructor
  · rintro ⟨before, r, rest, pre, post, hcalls, htaken, hv⟩
    cases before with
    | nil =>
      obtain ⟨rfl, -⟩ := List.cons.inj hcalls
      exact .inl ⟨r, pre, post, rfl, htaken, hv⟩
    | cons c' before =>
      obtain ⟨rfl, rfl⟩ := List.cons.inj hcalls
      exact .inr ⟨before, r, rest, pre, post, rfl, htaken, hv⟩
  · rintro (⟨r, pre, post, rfl, htaken, hv⟩ | ⟨before, r, rest, pre, post, rfl, htaken, hv⟩)
    · exact ⟨[], r, calls, pre, post, rfl, htaken, hv⟩
    · exact ⟨c :: before, r, rest, pre, post, rfl, htaken, hv⟩

/-- **The stored overrides are those that were found on some turn**, whatever has come in between
and since. -/
theorem mem_range_after :
    x ∈ (s.after calls).store.range m .overrides ↔ x ∈ s.store.range m .overrides ∨
      ∃ v, s.Turn calls m v ∧ x ∈ v.overridden m := by
  induction calls generalizing s with
  | nil => simp [Turn]
  | cons c calls ih =>
    rw [after_cons, ih]
    simp only [turn_cons]
    cases c with
    | intake i =>
      simp [call, range_intake]
    | analysis r =>
      rw [call, mem_range_run]
      simp only [Call.analysis.injEq]
      constructor
      · rintro ((hx | ⟨pre, post, htaken, hx⟩) | ⟨v, hv, hx⟩)
        · exact .inl hx
        · exact .inr ⟨_, .inl ⟨r, pre, post, rfl, htaken, rfl⟩, hx⟩
        · exact .inr ⟨v, .inr hv, hx⟩
      · rintro (hx | ⟨v, ⟨_, pre, post, rfl, htaken, rfl⟩ | hv, hx⟩)
        · exact .inl (.inl hx)
        · exact .inl (.inr ⟨pre, post, htaken, hx⟩)
        · exact .inr ⟨v, hv, hx⟩

/-! ## Histories -/

theorem after_intake : s.after (calls ++ [.intake i]) = (s.after calls).intake i := after_append

theorem after_analysis : s.after (calls ++ [.analysis r]) = (s.after calls).run r := after_append

@[simp] theorem settings_after : (s.after calls).settings = s.settings := by
  induction calls generalizing s with
  | nil => rfl
  | cons c calls ih =>
    cases c with
    | intake i => exact ih.trans settings_intake
    | analysis r => exact ih.trans settings_run

@[simp] theorem library_after : (s.after calls).library = s.library := by
  induction calls generalizing s with
  | nil => rfl
  | cons c calls ih =>
    cases c with
    | intake i => exact ih.trans library_intake
    | analysis r => exact ih.trans library_run

theorem owns_after (h : s.owns m = true) : (s.after calls).owns m = true := by
  induction calls generalizing s with
  | nil => exact h
  | cons c calls ih =>
    cases c with
    | intake i => exact ih (owns_intake h)
    | analysis r => exact ih (by rwa [call, owns, project_run])

/-! ## Runs with nothing taken in between -/

@[simp] theorem scope_after_runs : (s.after (rs.map .analysis)).scope = s.scope := by
  induction rs generalizing s with
  | nil => rfl
  | cons r rs ih => exact ih.trans scope_run

@[simp] theorem owns_after_runs : (s.after (rs.map .analysis)).owns x = s.owns x :=
  congrArg (fun scope : Scope => scope.project.owns x) scope_after_runs

theorem growsTo_after_runs : s.store.GrowsTo s.scope (s.after (rs.map .analysis)).store := by
  induction rs generalizing s with
  | nil => exact .refl _
  | cons r rs ih =>
    have hrest := ih (s := s.run r)
    rw [scope_run] at hrest
    exact growsTo_run.trans hrest

/-- On each turn of such a history, what is known lies between its start and its end. -/
theorem growsTo_of_turn (h : s.Turn (rs.map .analysis) m v) :
    v.toScope = s.scope ∧ s.store.GrowsTo s.scope v.store ∧
      v.store.GrowsTo s.scope (s.after (rs.map .analysis)).store := by
  induction rs generalizing s with
  | nil => simp [Turn] at h
  | cons r rs ih =>
    rcases turn_cons.mp h with ⟨_, pre, post, hr, htaken, rfl⟩ | hlater
    · obtain rfl := Call.analysis.inj hr
      have hrest : (s.run r).store.GrowsTo s.scope ((s.run r).after (rs.map .analysis)).store :=
        scope_run (s := s) ▸ growsTo_after_runs
      exact ⟨rfl, growsTo_turn, (growsTo_run_of_turn htaken).trans hrest⟩
    · obtain ⟨hscope, hstart, hend⟩ := ih hlater
      have hrun : (s.call (.analysis r)).scope = s.scope := scope_run
      rw [hrun] at hscope hstart hend
      exact ⟨hscope, growsTo_run.trans hstart, hend⟩

/-- What an element of the project overrides by what was known at the start is found to be
overridden, by that element or by one that is taken before it. -/
theorem exists_mem_range_after_runs (h : s.Turn (rs.map .analysis) m v) (hown : s.owns m = true)
    (hx : x ∈ s.view.overridden m) :
    ∃ d, x ∈ (s.after (rs.map .analysis)).store.range d .overrides := by
  obtain ⟨hscope, hstart, hend⟩ := growsTo_of_turn h
  by_cases hfree : ∀ d, x ∉ v.store.range d .overrides
  · have habs : s.store.isAbstractMethod m = v.store.isAbstractMethod m := by
      simp only [Store.isAbstractMethod, hstart.owned hown]
    have hfound := hstart.mem_overridden habs hx hfree
    rw [← hscope] at hfound
    exact ⟨m, mem_range_after.mpr (.inr ⟨v, h, hfound⟩)⟩
  · obtain ⟨d, hd⟩ := not_forall_not.mp hfree
    exact ⟨d, hend.overrides hd⟩

end Session
end CodeAtlas
