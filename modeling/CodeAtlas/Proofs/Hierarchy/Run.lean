import CodeAtlas.Proofs.Hierarchy.Growth
import Mathlib.Data.List.Induction

/-!
# What a run of the analysis does

A run takes elements from the front of the queue until there are none left or until it is
cancelled. Which of the two happens, and after how many elements, is up to the listener; what is in
the store is up to the elements that were taken, in their order. A method that is taken is related
to what it overrides at its turn, and to nothing else by the rest of the run.

## Main definitions

* `Analysis.processAll`: take the elements of a list.
* `Analysis.stopped`, `Analysis.finished`: the two ways in which a run ends.
* `Analysis.run_cases`: a run ends in one of them.
* `Sink.Patient`, `Analysis.run_of_patient`: a run that nobody cancels ends in the second.
* `Analysis.mem_range_processAll`: what a method is found to override.
-/
namespace CodeAtlas

/-- A kind of listener that never asks for cancellation. -/
def Sink.Patient {σ : Type} (sink : Sink σ) : Prop :=
  ∀ state event, (sink.receive state event).2.cancels = false

theorem Sink.Patient.cancelled_tell {σ : Type} {sink : Sink σ} (h : sink.Patient) (l : Listener σ)
    (event : Event) : (l.tell sink event).cancelled = l.cancelled := by
  simp [Listener.tell, h l.state event]

theorem Sink.patient_steadfast {σ : Type} (sink : Sink σ) : sink.steadfast.Patient :=
  fun _ _ => rfl

namespace Analysis

variable {scope : Scope} {a : Analysis} {m e x d : Element} {r : Relation}
  {es pre post : List Element}

/-- Take the elements of a list one after the other. -/
def processAll (scope : Scope) (es : List Element) (a : Analysis) : Analysis :=
  es.foldl (fun a m => a.process scope m) a

@[simp] theorem processAll_nil : a.processAll scope [] = a := rfl

@[simp] theorem processAll_cons :
    a.processAll scope (m :: es) = (a.process scope m).processAll scope es := rfl

/-- A list of elements may be taken in two parts. -/
theorem processAll_append :
    a.processAll scope (pre ++ post) = (a.processAll scope pre).processAll scope post :=
  List.foldl_append

/-- To take elements is to ask for instances, as far as the registry is concerned. -/
theorem asked_processAll : ∃ qs, (a.processAll scope es).registry = a.registry.askAll qs := by
  induction es generalizing a with
  | nil => exact ⟨[], rfl⟩
  | cons m es ih =>
    have hone : ∃ qs, (a.process scope m).registry = a.registry.askAll qs := asked_process
    obtain ⟨qs, hqs⟩ := hone
    obtain ⟨qs', hqs'⟩ := ih (a := a.process scope m)
    exact ⟨qs ++ qs', by rw [processAll_cons, hqs', hqs, Registry.askAll_append]⟩

/-! ## What is recorded -/

section Recorded

theorem growsTo_processAll : a.store.GrowsTo scope (a.processAll scope es).store := by
  induction es generalizing a with
  | nil => exact .refl _
  | cons m es ih => exact growsTo_process.trans ih

/-- What is reached on the way is kept to the end. -/
theorem growsTo_processAll_append :
    (a.processAll scope pre).store.GrowsTo scope (a.processAll scope (pre ++ post)).store := by
  rw [processAll_append]
  exact growsTo_processAll

/-- **What is found of a method is what it overrides at its turn.** -/
theorem mem_range_processAll :
    x ∈ (a.processAll scope es).store.range m .overrides ↔
      x ∈ a.store.range m .overrides ∨
        ∃ pre post, es = pre ++ m :: post ∧ x ∈ (a.processAll scope pre).overridden scope m := by
  induction es generalizing a with
  | nil => simp
  | cons e es ih =>
    rw [processAll_cons, ih, mem_range_process]
    simp only [List.cons_eq_append_iff, List.cons.injEq]
    constructor
    · rintro ((⟨rfl, -, hx⟩ | ⟨-, hr, -⟩ | hx) | ⟨pre, post, rfl, hx⟩)
      · exact .inr ⟨[], es, .inl (by simp), hx⟩
      · simp [Relation.transpose] at hr
      · exact .inl hx
      · exact .inr ⟨e :: pre, post, .inr ⟨pre, rfl, rfl⟩, hx⟩
    · rintro (hx | ⟨_, post, ⟨rfl, rfl, rfl⟩ | ⟨pre, rfl, rfl⟩, hx⟩)
      · exact .inl (.inr (.inr hx))
      · exact .inl (.inl ⟨rfl, trivial, hx⟩)
      · exact .inr ⟨pre, post, rfl, hx⟩

/-- No tuple is taken back, of whatever relation. -/
theorem range_subset_processAll (h : x ∈ a.store.range d r) :
    x ∈ (a.processAll scope es).store.range d r := by
  induction es generalizing a with
  | nil => exact h
  | cons m es ih => exact ih (mem_range_process.mpr (.inr (.inr h)))

/-- An element that is not taken is not found to override anything more. -/
theorem range_processAll_of_notMem (h : m ∉ es) :
    (a.processAll scope es).store.range m .overrides = a.store.range m .overrides := by
  ext x
  rw [mem_range_processAll, or_iff_left]
  rintro ⟨pre, post, rfl, -⟩
  exact h (List.mem_append_right _ List.mem_cons_self)

/-- What has been seen at the end had been seen before, or is a method outside the project that has
been found to be overridden. -/
theorem mem_seen_processAll (h : x ∈ (a.processAll scope es).worklist.seen) :
    x ∈ a.worklist.seen ∨ scope.project.owns x = false ∧
      ∃ d, x ∈ (a.processAll scope es).store.range d .overrides := by
  induction es using List.reverseRecOn with
  | nil => exact .inl h
  | append_singleton es m ih =>
    simp only [processAll_append, processAll_cons, processAll_nil] at h ⊢
    rcases mem_seen_process.mp h with ⟨hx, hown⟩ | hx
    · exact .inr ⟨hown, m, mem_range_process.mpr (.inl ⟨rfl, rfl, hx⟩)⟩
    · exact (ih hx).imp_right fun ⟨hown, d, hd⟩ => ⟨hown, d, growsTo_process.overrides hd⟩

theorem seen_subset_processAll (h : x ∈ a.worklist.seen) :
    x ∈ (a.processAll scope es).worklist.seen := by
  induction es generalizing a with
  | nil => exact h
  | cons m es ih => exact ih (mem_seen_process.mpr (.inr h))

end Recorded

/-! ## Ends of runs -/

/-- The analysis that was cancelled after some elements, while others wait. -/
def stopped (scope : Scope) (done rest : List Element) (a : Analysis) : Analysis :=
  (((a.processAll scope done).withQueue rest).withStatus .cancelled).withCancelled true

/-- The analysis that has taken all elements. -/
def finished (scope : Scope) (done : List Element) (a : Analysis) : Analysis :=
  (((a.processAll scope done).withQueue []).withStatus .complete).withCancelled false

theorem override_withCancelled (c : Bool) :
    (a.withCancelled c).override scope m e = (a.override scope m e).withCancelled c := by
  by_cases he : scope.project.owns e
  · simp only [override, he, if_true]
    rfl
  · simp only [override, he, Bool.false_eq_true, if_false]
    rfl

theorem foldl_override_withCancelled (c : Bool) :
    es.foldl (override scope m) (a.withCancelled c)
      = (es.foldl (override scope m) a).withCancelled c :=
  List.foldl_hom (withCancelled · c) fun _ _ => override_withCancelled c

theorem process_withCancelled (c : Bool) :
    (a.withCancelled c).process scope m = (a.process scope m).withCancelled c := by
  simp only [process_eq]
  rw [← foldl_override_withCancelled]
  rfl

/-- The status at the start is of no consequence, since each step sets it. -/
theorem process_withStatus (status : Status) :
    (a.withStatus status).process scope m = a.process scope m := rfl

theorem processAll_withQueue (q : List Element) :
    (a.withQueue q).processAll scope es = (a.processAll scope es).withQueue q :=
  List.foldl_hom (withQueue · q) fun _ _ => process_withQueue q

theorem processAll_withCancelled (c : Bool) :
    (a.withCancelled c).processAll scope es = (a.processAll scope es).withCancelled c :=
  List.foldl_hom (withCancelled · c) fun _ _ => process_withCancelled c

theorem withStatus_processAll (status before : Status) :
    ((a.withStatus before).processAll scope es).withStatus status
      = (a.processAll scope es).withStatus status := by
  cases es with
  | nil => rfl
  | cons m es => rw [processAll_cons, process_withStatus, processAll_cons]

variable {σ : Type}

theorem drain_cases (scope : Scope) (sink : Sink σ) (l : Listener σ) (a : Analysis)
    (queue : List Element) :
    (∃ done rest, queue = done ++ rest ∧
      (drain scope sink queue l a).2 = a.stopped scope done rest) ∨
      (drain scope sink queue l a).2 =
        ((a.processAll scope queue).withQueue []).withStatus .complete := by
  induction queue generalizing l a with
  | nil =>
    rw [drain]
    split
    · exact .inl ⟨[], [], rfl, rfl⟩
    · exact .inr rfl
  | cons m rest ih =>
    rw [drain]
    split
    · exact .inl ⟨[], m :: rest, rfl, rfl⟩
    · rw [process_withQueue]
      rcases ih (l.tell sink (.worked 1)) ((a.process scope m).withQueue rest) with
        ⟨done, left, hq, hend⟩ | hend
      · refine .inl ⟨m :: done, left, by rw [hq]; rfl, ?_⟩
        rw [hend, stopped, processAll_withQueue]
        rfl
      · refine .inr ?_
        rw [hend, processAll_withQueue]
        rfl

/-- The note of an earlier cancellation that a run takes away at its start might as well be taken
away later. -/
theorem processAll_outset : ((a.withCancelled false).withStatus .running).processAll scope es
    = ((a.withStatus .running).processAll scope es).withCancelled false :=
  processAll_withCancelled (a := a.withStatus .running) false

theorem finished_eq : ((((a.withCancelled false).withStatus .running).processAll scope es).withQueue
    []).withStatus .complete = a.finished scope es := by
  rw [processAll_outset]
  exact congrArg (fun b => (b.withQueue []).withCancelled false)
    (withStatus_processAll .complete .running)

/-- **A run takes a first part of the queue and is cancelled, or it takes all of it.** -/
theorem run_cases (scope : Scope) (sink : Sink σ) (l : Listener σ) (a : Analysis) :
    (∃ done rest, a.worklist.queue = done ++ rest ∧
      (run scope sink l a).2 = a.stopped scope done rest) ∨
      (run scope sink l a).2 = a.finished scope a.worklist.queue := by
  rcases drain_cases scope sink (l.tell sink (.begun .analysis a.worklist.queue.length))
      ((a.withCancelled false).withStatus .running) a.worklist.queue with
    ⟨done, rest, hq, hend⟩ | hend
  · refine .inl ⟨done, rest, hq, ?_⟩
    rw [run, hend, stopped, processAll_outset]
    exact congrArg (fun b => (b.withQueue rest).withCancelled true)
      (withStatus_processAll .cancelled .running)
  · refine .inr ?_
    rw [run, hend, finished_eq]

/-! ## Runs that nobody cancels -/

theorem drain_of_patient {sink : Sink σ} {l : Listener σ} (hsink : sink.Patient)
    (hl : l.cancelled = false) (a : Analysis) (queue : List Element) :
    (drain scope sink queue l a).2 = ((a.processAll scope queue).withQueue []).withStatus .complete := by
  induction queue generalizing l a with
  | nil =>
    rw [drain, hl]
    rfl
  | cons m rest ih =>
    have hnext : (l.tell sink (.worked 1)).cancelled = false := by rw [hsink.cancelled_tell, hl]
    rw [drain, hl, process_withQueue]
    refine (ih hnext _).trans ?_
    rw [processAll_withQueue]
    rfl

/-- A run that nobody cancels takes all of the queue. -/
theorem run_of_patient {sink : Sink σ} {l : Listener σ} (hsink : sink.Patient)
    (hl : l.cancelled = false) (a : Analysis) :
    (run scope sink l a).2 = a.finished scope a.worklist.queue := by
  have hbegun : (l.tell sink (.begun .analysis a.worklist.queue.length)).cancelled = false := by
    rw [hsink.cancelled_tell, hl]
  rw [run, drain_of_patient hsink hbegun, finished_eq]

end Analysis
end CodeAtlas
