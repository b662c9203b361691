import CodeAtlas.Proofs.Hierarchy.Resumption
import CodeAtlas.Proofs.Hierarchy.Search
import Mathlib.Logic.Function.Iterate

/-!
# A run is its steps

A run looks at the token of cancellation before each element and once more after the last one, and
tells its listener of every element that it takes. The listener may fail to take note of anything,
and may ask for cancellation whenever it is told something. So there are as many ways for a run to
end as there are looks at the token. In each of them the run has done what as many steps do, and
what is left waits in the order in which it waited before.

A run is written down here once more as a loop that nothing bounds and in which a refused question
ends everything. It always comes to an end, without a refusal.

## Main definitions

* `Listener.tellAll`, `Listener.heard`: a listener after some events.
* `Listener.allows`: how many elements a listener lets a run take.
* `Analysis.stepped`: the analysis after some steps.
* `Analysis.runLoop`: a run as a loop.
* `Analysis.run_eq_steps`: what a run does.
-/
namespace CodeAtlas

/-! ## Listeners -/

namespace Listener

variable {σ τ : Type} {sink : Sink σ} {sink' : Sink τ} {l : Listener σ} {l' : Listener τ}
  {n j : ℕ} {event : Event} {events : List Event}

/-- Tell a listener of one event after the other. -/
def tellAll (sink : Sink σ) (events : List Event) (l : Listener σ) : Listener σ :=
  events.foldl (fun l event => l.tell sink event) l

@[simp] theorem tellAll_nil : l.tellAll sink [] = l := rfl

@[simp] theorem tellAll_cons :
    l.tellAll sink (event :: events) = (l.tell sink event).tellAll sink events := rfl

theorem tellAll_append {more : List Event} :
    l.tellAll sink (events ++ more) = (l.tellAll sink events).tellAll sink more :=
  List.foldl_append

/-- The listener to a run over `n` elements when the run looks at the token after `j` of them. -/
def heard (sink : Sink σ) (n j : ℕ) (l : Listener σ) : Listener σ :=
  l.tellAll sink (.begun .analysis n :: List.replicate j (.worked 1))

/-- Once it has been asked for, cancellation is never taken back. -/
theorem cancelled_tellAll (h : l.cancelled = true) : (l.tellAll sink events).cancelled = true := by
  induction events generalizing l with
  | nil => exact h
  | cons event events ih =>
    apply ih
    simp [tell, h]

theorem cancelled_heard_mono {i : ℕ} (hij : i ≤ j) (h : (l.heard sink n i).cancelled = true) :
    (l.heard sink n j).cancelled = true := by
  have hsplit : List.replicate j (Event.worked 1)
      = List.replicate i (.worked 1) ++ List.replicate (j - i) (.worked 1) := by
    rw [List.replicate_append_replicate, Nat.add_sub_cancel' hij]
  rw [heard, hsplit, ← List.cons_append, tellAll_append]
  exact cancelled_tellAll h

/-- How many of `n` elements are taken before the listener is seen to ask for cancellation. -/
def allows (sink : Sink σ) : ℕ → Listener σ → ℕ
  | 0, _ => 0
  | n + 1, l => if l.cancelled then 0 else allows sink n (l.tell sink (.worked 1)) + 1

theorem allows_le : l.allows sink n ≤ n := by
  induction n generalizing l with
  | zero => exact le_refl 0
  | succ n ih =>
    rw [allows]
    split
    · exact Nat.zero_le _
    · exact Nat.succ_le_succ ih

/-- It has not asked for cancellation before that. -/
theorem cancelled_of_lt_allows (h : j < l.allows sink n) :
    (l.tellAll sink (List.replicate j (.worked 1))).cancelled = false := by
  induction n generalizing l j with
  | zero => exact absurd h (Nat.not_lt_zero j)
  | succ n ih =>
    rw [allows] at h
    split at h
    next => exact absurd h (Nat.not_lt_zero j)
    next hl =>
      cases j with
      | zero => simpa using hl
      | succ j => exact ih (l := l.tell sink (.worked 1)) (Nat.lt_of_succ_lt_succ h)

/-- All elements are taken unless it has asked by then. -/
theorem allows_eq_of_cancelled
    (h : (l.tellAll sink (List.replicate (l.allows sink n) (.worked 1))).cancelled = false) :
    l.allows sink n = n := by
  induction n generalizing l with
  | zero => rfl
  | succ n ih =>
    rw [allows] at h ⊢
    split at h
    next hl => simp [hl] at h
    next hl =>
      rw [if_neg hl]
      exact congrArg (· + 1) (ih h)

/-- Listeners that ask for cancellation at the same looks let a run take as many elements. -/
theorem allows_congr
    (h : ∀ j ≤ n, (l.tellAll sink (List.replicate j (.worked 1))).cancelled
      = (l'.tellAll sink' (List.replicate j (.worked 1))).cancelled) :
    l.allows sink n = l'.allows sink' n := by
  induction n generalizing l l' with
  | zero => rfl
  | succ n ih =>
    have hfirst : l.cancelled = l'.cancelled := h 0 (Nat.zero_le _)
    have hrest : (l.tell sink (.worked 1)).allows sink n
        = (l'.tell sink' (.worked 1)).allows sink' n :=
      ih fun j hj => h (j + 1) (Nat.succ_le_succ hj)
    rw [allows, allows, hfirst, hrest]

end Listener

/-- The same kind of listener, which also writes down what it is told. -/
def Sink.recorded {σ : Type} (sink : Sink σ) : Sink (σ × List Event) where
  receive s event :=
    (((sink.receive s.1 event).1, s.2 ++ [event]), (sink.receive s.1 event).2)

/-- The listener of that kind that has written some events down. -/
def Listener.recorded {σ : Type} (l : Listener σ) (log : List Event) : Listener (σ × List Event) :=
  ⟨(l.state, log), l.cancelled⟩

/-- It is told the same, and has it in writing. -/
theorem Listener.tellAll_recorded {σ : Type} {sink : Sink σ} {l : Listener σ}
    {log events : List Event} :
    (l.recorded log).tellAll sink.recorded events
      = (l.tellAll sink events).recorded (log ++ events) := by
  induction events generalizing l log with
  | nil => simp
  | cons event events ih =>
    have hone : (l.recorded log).tell sink.recorded event
        = (l.tell sink event).recorded (log ++ [event]) := rfl
    rw [tellAll_cons, tellAll_cons, hone, ih, List.append_assoc, List.singleton_append]

namespace Analysis

variable {scope : Scope} {a : Analysis} {queue : List Element} {k : ℕ} {σ τ : Type} {sink : Sink σ}
  {sink' : Sink τ} {l : Listener σ} {l' : Listener τ}

/-! ## Steps -/

/-- The analysis after some steps. -/
def stepped (scope : Scope) (k : ℕ) (a : Analysis) : Analysis :=
  (fun a : Analysis => (a.step scope).2)^[k] a

/-- As many steps as there are elements waiting take a first part of the queue. -/
theorem stepped_eq (hk : k ≤ a.worklist.queue.length) :
    a.stepped scope k
      = (a.processAll scope (a.worklist.queue.take k)).withQueue (a.worklist.queue.drop k) := by
  induction k generalizing a with
  | zero => rfl
  | succ k ih =>
    cases hq : a.worklist.queue with
    | nil => simp [hq] at hk
    | cons m rest =>
      have hstep : (a.step scope).2 = (a.process scope m).withQueue rest := by
        simp only [step, hq, process_withQueue]
      have hlen : k ≤ rest.length := by
        rw [hq] at hk
        exact Nat.le_of_succ_le_succ hk
      rw [stepped, Function.iterate_succ_apply, hstep]
      refine (ih (a := (a.process scope m).withQueue rest) hlen).trans ?_
      rw [processAll_withQueue]
      rfl

/-! ## Runs -/

/-- What is left of a queue once the run has come to its end. -/
theorem drain_eq (scope : Scope) (sink : Sink σ) (l : Listener σ) (a : Analysis)
    (queue : List Element) :
    drain scope sink queue l a =
      (l.tellAll sink (List.replicate (l.allows sink queue.length) (.worked 1)),
        if (l.tellAll sink (List.replicate (l.allows sink queue.length) (.worked 1))).cancelled then
          a.stopped scope (queue.take (l.allows sink queue.length))
            (queue.drop (l.allows sink queue.length))
        else ((a.processAll scope queue).withQueue []).withStatus .complete) := by
  induction queue generalizing l a with
  | nil =>
    by_cases hl : l.cancelled = true
    · simp [drain, hl, Listener.allows, stopped]
    · simp [drain, hl, Listener.allows]
  | cons m rest ih =>
    by_cases hl : l.cancelled = true
    · simp [drain, hl, Listener.allows, stopped]
    · have hallows : l.allows sink (m :: rest).length
          = (l.tell sink (.worked 1)).allows sink rest.length + 1 := by
        simp [Listener.allows, hl]
      rw [drain, if_neg hl, ih, hallows, process_withQueue]
      simp only [stopped, processAll_withQueue]
      rfl

/-- How many elements a run takes. -/
def taking (sink : Sink σ) (l : Listener σ) (a : Analysis) : ℕ :=
  (l.tell sink (.begun .analysis a.worklist.remaining)).allows sink a.worklist.remaining

/-- The listener at the last look of a run. -/
def lastLook (sink : Sink σ) (l : Listener σ) (a : Analysis) : Listener σ :=
  l.heard sink a.worklist.remaining (a.taking sink l)

/-- How a run leaves the status. -/
def endStatus (cancelled : Bool) : Status := if cancelled then .cancelled else .complete

theorem taking_le (sink : Sink σ) (l : Listener σ) (a : Analysis) :
    a.taking sink l ≤ a.worklist.queue.length := Listener.allows_le

theorem taking_eq (h : (a.lastLook sink l).cancelled = false) :
    a.taking sink l = a.worklist.queue.length := Listener.allows_eq_of_cancelled h

theorem stopped_outset {done rest : List Element} :
    ((a.withCancelled false).withStatus .running).stopped scope done rest
      = a.stopped scope done rest := by
  rw [stopped, processAll_outset]
  exact congrArg (fun b => (b.withQueue rest).withCancelled true)
    (withStatus_processAll .cancelled .running)

/-- A run is over at a look that finds cancellation asked for, or when nothing waits. -/
theorem run_eq_ite (scope : Scope) (a : Analysis) (sink : Sink σ) (l : Listener σ) :
    a.run scope sink l =
      ((a.lastLook sink l).tell sink .done,
        if (a.lastLook sink l).cancelled then
          a.stopped scope (a.worklist.queue.take (a.taking sink l))
            (a.worklist.queue.drop (a.taking sink l))
        else a.finished scope a.worklist.queue) := by
  rw [run, drain_eq, stopped_outset, finished_eq]
  rfl

/-- It does what as many steps do, the status and the note of a cancellation aside. -/
theorem run_eq (scope : Scope) (a : Analysis) (sink : Sink σ) (l : Listener σ) :
    a.run scope sink l =
      ((a.lastLook sink l).tell sink .done,
        ((a.stepped scope (a.taking sink l)).withStatus
          (endStatus (a.lastLook sink l).cancelled)).withCancelled
            (a.lastLook sink l).cancelled) := by
  rw [run_eq_ite, stepped_eq (taking_le sink l a)]
  cases hc : (a.lastLook sink l).cancelled with
  | true => rfl
  | false =>
    rw [taking_eq hc, List.take_length, List.drop_length]
    rfl

theorem queue_run : (a.run scope sink l).2.worklist.queue
    = a.worklist.queue.drop (a.taking sink l) := by
  rw [run_eq, stepped_eq (taking_le sink l a)]
  rfl

theorem status_run : (a.run scope sink l).2.store.status
    = endStatus (a.lastLook sink l).cancelled := by
  rw [run_eq]
  rfl

theorem cancelled_run : (a.run scope sink l).2.worklist.report.cancelled
    = (a.lastLook sink l).cancelled := by
  rw [run_eq]
  rfl

/-- What a run does depends on what its looks at the token find. -/
theorem run_congr (h : ∀ j ≤ a.worklist.remaining,
    (l'.heard sink' a.worklist.remaining j).cancelled
      = (l.heard sink a.worklist.remaining j).cancelled) :
    (a.run scope sink' l').2 = (a.run scope sink l).2 := by
  have htaking : a.taking sink' l' = a.taking sink l := Listener.allows_congr h
  have hlast : (a.lastLook sink' l').cancelled = (a.lastLook sink l).cancelled := by
    rw [lastLook, htaking]
    exact h _ (taking_le sink l a)
  rw [run_eq, run_eq, htaking, hlast]

/-- A listener that writes everything down changes nothing, and has been told of the beginning, of
each element that has been taken, and of the end. -/
theorem run_recorded (scope : Scope) (a : Analysis) (sink : Sink σ) (l : Listener σ) :
    a.run scope sink.recorded (l.recorded []) =
      ((a.run scope sink l).1.recorded (.begun .analysis a.worklist.remaining ::
          List.replicate (a.taking sink l) (.worked 1) ++ [.done]),
        (a.run scope sink l).2) := by
  have hheard : ∀ j, (l.recorded []).heard sink.recorded a.worklist.remaining j
      = (l.heard sink a.worklist.remaining j).recorded
          (.begun .analysis a.worklist.remaining :: List.replicate j (.worked 1)) :=
    fun j => Listener.tellAll_recorded
  have hcancelled : ∀ j, ((l.recorded []).heard sink.recorded a.worklist.remaining j).cancelled
      = (l.heard sink a.worklist.remaining j).cancelled := fun j => by
    rw [hheard]
    rfl
  have htaking : a.taking sink.recorded (l.recorded []) = a.taking sink l :=
    Listener.allows_congr fun j _ => hcancelled j
  refine Prod.ext ?_ (run_congr fun j _ => hcancelled j)
  rw [run_eq, run_eq, lastLook, htaking, hheard]
  rfl

/-! ## The loop -/

/-- Take an element that is known to override some methods. -/
def take (scope : Scope) (m : Element) (found : ElementSet) (a : Analysis) : Analysis :=
  found.toList.foldl (override scope m)
    { a with
      store := a.store.withStatus .running
      worklist.report.processed := a.worklist.report.processed + 1
      registry := a.consulted scope m }

/-- A step in which the search for what an element overrides may go on forever, and may be
refused. -/
def stepLoop (scope : Scope) (a : Analysis) : Part (Except Fault (Option Element × Analysis)) :=
  match a.worklist.queue with
  | [] => .some (.ok (none, a.withStatus .complete))
  | m :: rest =>
    let a := a.withQueue rest
    ((a.view scope).search m).map fun answer =>
      answer.map fun found => (some m, a.take scope m found)

/-- One turn of a run: look at the token, take an element, and tell the listener. -/
def runTurn (scope : Scope) (sink : Sink σ) :
    Listener σ × Analysis →. Except Fault (Listener σ × Analysis) ⊕ (Listener σ × Analysis) :=
  fun (l, a) =>
    if l.cancelled then .some (.inl (.ok (l, (a.withStatus .cancelled).withCancelled true)))
    else
      (a.stepLoop scope).map fun
        | .error fault => .inl (.error fault)
        | .ok (none, a) => .inl (.ok (l, a))
        | .ok (some _, a) => .inr (l.tell sink (.worked 1), a)

/-- A run turn by turn. There is no result if it goes on forever. -/
def runLoop (scope : Scope) (sink : Sink σ) (l : Listener σ) (a : Analysis) :
    Part (Except Fault (Listener σ × Analysis)) :=
  (PFun.fix (runTurn scope sink) (l.tell sink (.begun .analysis a.worklist.remaining),
    (a.withCancelled false).withStatus .running)).map fun answer =>
      answer.map fun (l, a) => (l.tell sink .done, a)

/-- No step goes on forever, and none is refused. -/
theorem stepLoop_eq (scope : Scope) (a : Analysis) :
    a.stepLoop scope = .some (.ok (a.step scope)) := by
  cases hq : a.worklist.queue with
  | nil => simp only [stepLoop, step, hq]
  | cons m rest =>
    simp only [stepLoop, step, hq, View.search_eq_overridden, Part.map_some, process_eq]
    rfl

theorem runTurn_of_cancelled (hl : l.cancelled = true) : runTurn scope sink (l, a)
    = .some (.inl (.ok (l, (a.withStatus .cancelled).withCancelled true))) := if_pos hl

theorem runTurn_of_empty (hl : l.cancelled = false) (hq : a.worklist.queue = []) :
    runTurn scope sink (l, a) = .some (.inl (.ok (l, a.withStatus .complete))) := by
  simp only [runTurn, hl, stepLoop_eq, step, hq, Part.map_some]
  rfl

theorem runTurn_of_cons {m : Element} {rest : List Element} (hl : l.cancelled = false)
    (hq : a.worklist.queue = m :: rest) : runTurn scope sink (l, a)
      = .some (.inr (l.tell sink (.worked 1), (a.withQueue rest).process scope m)) := by
  simp only [runTurn, hl, stepLoop_eq, step, hq, Part.map_some]
  rfl

/-- The loop ends as the recursion along the queue does. -/
theorem mem_fix_runTurn (hq : a.worklist.queue = queue) :
    .ok (drain scope sink queue l a) ∈ PFun.fix (runTurn scope sink) (l, a) := by
  induction queue generalizing l a with
  | nil =>
    apply PFun.fix_stop
    cases hl : l.cancelled with
    | true =>
      rw [runTurn_of_cancelled hl, drain, if_pos hl, ← hq]
      exact Part.mem_some _
    | false =>
      rw [runTurn_of_empty hl hq, drain, if_neg (Bool.eq_false_iff.mp hl), ← hq]
      exact Part.mem_some _
  | cons m rest ih =>
    cases hl : l.cancelled with
    | true =>
      apply PFun.fix_stop
      rw [runTurn_of_cancelled hl, drain, if_pos hl, ← hq]
      exact Part.mem_some _
    | false =>
      have hturn : .inr (l.tell sink (.worked 1), (a.withQueue rest).process scope m)
          ∈ runTurn scope sink (l, a) := by
        rw [runTurn_of_cons hl hq]
        exact Part.mem_some _
      rw [drain, if_neg (Bool.eq_false_iff.mp hl), PFun.fix_fwd_eq hturn]
      exact ih queue_process

/-- A run comes to its end and is not refused. -/
theorem runLoop_eq (scope : Scope) (sink : Sink σ) (l : Listener σ) (a : Analysis) :
    a.runLoop scope sink l = .some (.ok (a.run scope sink l)) := by
  have hend : _ ∈ PFun.fix (runTurn scope sink)
      (l.tell sink (.begun .analysis a.worklist.remaining),
        (a.withCancelled false).withStatus .running) := mem_fix_runTurn rfl
  rw [runLoop, Part.eq_some_iff.mpr hend, Part.map_some]
  rfl

/-! ## What a run does -/

/-- **A run is its steps, whatever its listener does.** The run comes to its end without a refusal.
The listener is told of the beginning with the number of elements that wait, of each element that is
taken, and of the end, and of nothing else. If `k` elements are taken, then the run leaves what `k`
steps leave, the status and the note of a cancellation aside. No element is taken after a look at
the token that finds cancellation asked for. If no look finds that, then all elements are taken and
the analysis is complete. If one does, then the run is noted as cancelled, and the elements that
have not been taken wait in their order. Another listener that has asked for cancellation at the
same looks, whatever else it does and whatever it fails to take note of, leads to the same analysis.
-/
theorem run_eq_steps (scope : Scope) (a : Analysis) (sink : Sink σ) (l : Listener σ) :
    a.runLoop scope sink l = .some (.ok (a.run scope sink l)) ∧
    ∃ k ≤ a.worklist.remaining,
      (a.run scope sink.recorded (l.recorded []) = ((a.run scope sink l).1.recorded
          (.begun .analysis a.worklist.remaining :: List.replicate k (.worked 1) ++ [.done]),
        (a.run scope sink l).2)) ∧
      (∃ status cancelled, (a.run scope sink l).2
        = ((a.stepped scope k).withStatus status).withCancelled cancelled) ∧
      (∀ j < k, (l.heard sink a.worklist.remaining j).cancelled = false) ∧
      ((∀ j ≤ k, (l.heard sink a.worklist.remaining j).cancelled = false) →
        k = a.worklist.remaining ∧ (a.run scope sink l).2.worklist.queue = [] ∧
        (a.run scope sink l).2.store.status = .complete ∧
        (a.run scope sink l).2.worklist.report.cancelled = false) ∧
      ((∃ j ≤ k, (l.heard sink a.worklist.remaining j).cancelled = true) →
        (a.run scope sink l).2.store.status = .cancelled ∧
        (a.run scope sink l).2.worklist.report.cancelled = true ∧
        (a.run scope sink l).2.worklist.queue = a.worklist.queue.drop k) ∧
      ∀ (τ : Type) (sink' : Sink τ) (l' : Listener τ),
        (∀ j ≤ a.worklist.remaining, (l'.heard sink' a.worklist.remaining j).cancelled
          = (l.heard sink a.worklist.remaining j).cancelled) →
        (a.run scope sink' l').2 = (a.run scope sink l).2 := by
  refine ⟨runLoop_eq scope sink l a, a.taking sink l, taking_le sink l a,
    run_recorded scope a sink l, ?_, fun j => Listener.cancelled_of_lt_allows, ?_, ?_,
    fun τ sink' l' hsame => run_congr hsame⟩
  · rw [run_eq]
    exact ⟨_, _, rfl⟩
  · intro hnever
    have hlast : (a.lastLook sink l).cancelled = false := hnever _ (le_refl _)
    rw [queue_run, status_run, cancelled_run, hlast, taking_eq hlast]
    exact ⟨rfl, List.drop_length, rfl, rfl⟩
  · intro hasked
    obtain ⟨j, hj, hcancelled⟩ := hasked
    have hlast : (a.lastLook sink l).cancelled = true :=
      Listener.cancelled_heard_mono hj hcancelled
    rw [queue_run, status_run, cancelled_run, hlast]
    exact ⟨rfl, rfl, rfl⟩

/-! ## Two listeners that agree about cancellation -/

/-- A listener that takes note of everything and asks for cancellation at the third event. -/
def diligent : Sink (List Event) :=
  ⟨fun log event => (log ++ [event], { cancels := log.length = 2 })⟩

/-- One that counts what it is told, fails each time, and asks for cancellation at the same event.
-/
def failing : Sink ℕ := ⟨fun n _ => (n + 1, { failed := true, cancels := n = 2 })⟩

/-- Two elements are taken, which the second listener does not take note of, and the analysis is the
same for both. -/
theorem run_eq_steps_failing :
    interrupted.runLoop interruptedSession.scope failing ⟨0, false⟩
      = .some (.ok (interrupted.run interruptedSession.scope failing ⟨0, false⟩)) ∧
    (interrupted.run interruptedSession.scope failing ⟨0, false⟩).2.worklist.queue
      = interrupted.worklist.queue.drop 2 ∧
    (interrupted.run interruptedSession.scope failing ⟨0, false⟩).2.store.status = .cancelled ∧
    (interrupted.run interruptedSession.scope diligent ⟨[], false⟩).2
      = (interrupted.run interruptedSession.scope failing ⟨0, false⟩).2 := by
  obtain ⟨hloop, k, hk, htold, -, -, -, hasked, hsame⟩ :=
    run_eq_steps interruptedSession.scope interrupted failing ⟨0, false⟩
  have hlog : (interrupted.run interruptedSession.scope failing.recorded
      (Listener.recorded ⟨0, false⟩ [])).1.state.2.length = 4 := by decide +kernel
  obtain rfl : k = 2 := by
    rw [htold] at hlog
    simpa [Listener.recorded] using hlog
  obtain ⟨hstatus, -, hqueue⟩ := hasked ⟨2, le_refl 2, by decide +kernel⟩
  exact ⟨hloop, hqueue, hstatus, hsame _ diligent ⟨[], false⟩ (by decide +kernel)⟩

end Analysis
end CodeAtlas
