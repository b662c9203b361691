import CodeAtlas.Proofs.Hierarchy.Run
import CodeAtlas.Proofs.Session.Intake

/-!
# Stopping and going on

The analysis may stop after any element and go on later. Elements may be taken one by one, runs may
be cancelled, and questions may be asked in between. All of this takes a first part of the queue, and
what is stored and counted afterwards depends on that part alone: not on how it was taken, nor on the
status and the note of a cancellation that were left behind on the way. So once all elements have
been taken, nothing tells whether the analysis was ever interrupted.

## Main definitions

* `Worklist.Arises`: the worklists that there are.
* `Analysis.Move`, `Analysis.moves`: what may be done with an analysis.
* `Analysis.Reaches`: that an analysis comes to a point by taking some elements.
* `Analysis.resumed_eq_uninterrupted`: interruptions are of no consequence.
-/
namespace CodeAtlas

/-! ## Worklists -/

/-- A worklist that has come about by putting known elements on it and taking them from it again, in
any stores. -/
inductive Worklist.Arises : Worklist → Prop
  | empty : Arises {}
  | enqueue {w : Worklist} (s : Store) : Arises w → Arises (w.enqueue s)
  | step (scope : Scope) {a : Analysis} :
      Arises a.worklist → Arises (a.step scope).2.worklist
  | run {σ : Type} (scope : Scope) (sink : Sink σ) (l : Listener σ) {a : Analysis} :
      Arises a.worklist → Arises (a.run scope sink l).2.worklist

/-- What waits on a worklist has been seen, and nothing waits twice. -/
structure Worklist.Orderly (w : Worklist) : Prop where
  nodup : w.queue.Nodup
  seen : ∀ e ∈ w.queue, e ∈ w.seen

theorem Worklist.Orderly.enqueue {w : Worklist} (h : w.Orderly) (s : Store) :
    (w.enqueue s).Orderly where
  nodup := nodup_append_unseen h.nodup h.seen
  seen e he :=
    mem_seen_enqueue.mpr ((List.mem_append.mp he).imp (h.seen e) fun hnew => (mem_unseen.mp hnew).1)

namespace Analysis

variable {scope : Scope} {a b c : Analysis} {m x : Element} {es done more rest : List Element}

/-- Worklists stay orderly when elements are taken from the front of the queue. -/
theorem orderly_processAll (h : a.worklist.Orderly) (hq : a.worklist.queue = done ++ rest) :
    ((a.processAll scope done).withQueue rest).worklist.Orderly := by
  obtain ⟨hnodup, hseen⟩ := h
  rw [hq] at hnodup hseen
  constructor
  · exact (List.nodup_append.mp hnodup).2.1
  · intro e he
    exact seen_subset_processAll (hseen e (List.mem_append_right _ he))

/-! ## Instances -/

/-- The same analysis with other instances of elements. -/
def withRegistry (a : Analysis) (registry : Registry) : Analysis := { a with registry }

theorem override_withRegistry (ρ : Registry) :
    (a.withRegistry ρ).override scope m x = (a.override scope m x).withRegistry ρ := by
  by_cases hx : scope.project.owns x
  · simp only [override, hx, if_true]
    rfl
  · simp only [override, hx, Bool.false_eq_true, if_false]
    rfl

theorem foldl_override_withRegistry (ρ : Registry) :
    es.foldl (override scope m) (a.withRegistry ρ)
      = (es.foldl (override scope m) a).withRegistry ρ :=
  List.foldl_hom (withRegistry · ρ) fun _ _ => override_withRegistry ρ

/-- Taking an element adds instances, which are of no consequence otherwise. -/
theorem process_withRegistry (scope : Scope) (a : Analysis) (m : Element) (ρ : Registry) : ∃ ρ',
    (a.withRegistry ρ).process scope m = (a.process scope m).withRegistry ρ' := by
  refine ⟨(a.withRegistry ρ).consulted scope m, ?_⟩
  simp only [process_eq]
  rw [← foldl_override_withRegistry]
  rfl

theorem processAll_withRegistry (scope : Scope) (a : Analysis) (es : List Element)
    (ρ : Registry) : ∃ ρ',
    (a.withRegistry ρ).processAll scope es = (a.processAll scope es).withRegistry ρ' := by
  induction es generalizing a ρ with
  | nil => exact ⟨ρ, rfl⟩
  | cons m es ih =>
    obtain ⟨ρ', h⟩ := process_withRegistry scope a m ρ
    rw [processAll_cons, h]
    exact ih _ ρ'

/-! ## Points on the way -/

/-- The analysis that has taken some elements while others wait, with any status, note of a
cancellation and instances. -/
def paused (scope : Scope) (done rest : List Element) (status : Status) (cancelled : Bool)
    (registry : Registry) (a : Analysis) : Analysis :=
  ((((a.processAll scope done).withQueue rest).withStatus status).withCancelled
    cancelled).withRegistry registry

variable {st st' : Status} {k k' : Bool} {ρ ρ' : Registry} {waiting waiting' : List Element}

/-- Going on from such a point leads to such a point. -/
theorem paused_paused :
    (a.paused scope done waiting st k ρ).paused scope more waiting' st' k' ρ'
      = a.paused scope (done ++ more) waiting' st' k' ρ' := by
  unfold paused
  obtain ⟨ρ'', h⟩ := processAll_withRegistry scope
    ((((a.processAll scope done).withQueue waiting).withStatus st).withCancelled k) more ρ
  rw [h, processAll_withCancelled]
  have hstatus : ((((a.processAll scope done).withQueue waiting).withStatus st).processAll scope
        more).withStatus st'
      = ((a.processAll scope (done ++ more)).withQueue waiting).withStatus st' := by
    rw [withStatus_processAll, processAll_withQueue, ← processAll_append]
  exact congrArg (fun b => ((b.withQueue waiting').withCancelled k').withRegistry ρ') hstatus

/-- An analysis comes to a point by taking elements from the front of its queue. -/
structure Reaches (scope : Scope) (a : Analysis) (done : List Element) (b : Analysis) : Prop where
  queue : a.worklist.queue = done ++ b.worklist.queue
  point : ∃ st k ρ, b = a.paused scope done b.worklist.queue st k ρ

theorem Reaches.trans (h : a.Reaches scope done b) (h' : b.Reaches scope more c) :
    a.Reaches scope (done ++ more) c := by
  obtain ⟨st, k, ρ, hb⟩ := h.point
  obtain ⟨st', k', ρ', hc⟩ := h'.point
  constructor
  · rw [h.queue, h'.queue, List.append_assoc]
  · refine ⟨st', k', ρ', ?_⟩
    rw [← paused_paused, ← hb]
    exact hc

theorem Reaches.orderly (h : a.Reaches scope done b) (ha : a.worklist.Orderly) :
    b.worklist.Orderly := by
  obtain ⟨st, k, ρ, hb⟩ := h.point
  have hpoint : ((a.processAll scope done).withQueue b.worklist.queue).worklist.Orderly :=
    orderly_processAll ha h.queue
  rw [hb]
  exact ⟨hpoint.nodup, hpoint.seen⟩

theorem reaches_processAll (hq : a.worklist.queue = done ++ rest) :
    a.Reaches scope done ((a.processAll scope done).withQueue rest) :=
  ⟨hq, _, _, _, rfl⟩

theorem reaches_step (scope : Scope) (a : Analysis) :
    ∃ done, a.Reaches scope done (a.step scope).2 := by
  unfold step
  split
  next hq => exact ⟨[], rfl, .complete, a.worklist.report.cancelled, a.registry, rfl⟩
  next m rest hq =>
    rw [process_withQueue]
    exact ⟨[m], reaches_processAll hq⟩

theorem reaches_run {σ : Type} (scope : Scope) (a : Analysis) (sink : Sink σ) (l : Listener σ) :
    ∃ done, a.Reaches scope done (a.run scope sink l).2 := by
  rcases run_cases scope sink l a with ⟨done, rest, hq, hend⟩ | hend
  · rw [hend]
    exact ⟨done, hq, .cancelled, true, _, rfl⟩
  · rw [hend]
    exact ⟨a.worklist.queue, (List.append_nil _).symm, .complete, false, _, rfl⟩

end Analysis

/-- Whatever worklist there is, it is orderly. -/
theorem Worklist.Arises.orderly {w : Worklist} (h : w.Arises) : w.Orderly := by
  induction h with
  | empty => exact ⟨List.nodup_nil, by simp⟩
  | enqueue s _ ih => exact ih.enqueue s
  | step scope _ ih =>
    obtain ⟨done, hdone⟩ := Analysis.reaches_step scope _
    exact hdone.orderly ih
  | run scope sink l _ ih =>
    obtain ⟨done, hdone⟩ := Analysis.reaches_run scope _ sink l
    exact hdone.orderly ih

namespace Analysis

variable {scope : Scope} {a b : Analysis} {done : List Element}

/-! ## Interrupted analyses -/

/-- What may be done with an analysis, other than recording facts. -/
inductive Move : Type 1 where
  /-- Take one element. -/
  | step
  /-- Take all elements that wait unless the listener has the work cancelled. -/
  | run {σ : Type} (sink : Sink σ) (l : Listener σ)
  /-- Ask a question, which makes instances of the elements named on the way. -/
  | ask (es : List Element)

/-- Do one thing. -/
def move (scope : Scope) (a : Analysis) : Move → Analysis
  | .step => (a.step scope).2
  | .run sink l => (a.run scope sink l).2
  | .ask es => a.withRegistry (a.registry.addAll es)

/-- Do one thing after the other. -/
def moves (scope : Scope) (a : Analysis) (ms : List Move) : Analysis := ms.foldl (move scope) a

theorem reaches_move (scope : Scope) (a : Analysis) (mv : Move) :
    ∃ done, a.Reaches scope done (a.move scope mv) := by
  cases mv with
  | step => exact reaches_step scope a
  | run sink l => exact reaches_run scope a sink l
  | ask es => exact ⟨[], rfl, a.store.status, a.worklist.report.cancelled, _, rfl⟩

/-- **Whatever is done takes a first part of what waits, and does nothing else that matters.** -/
theorem reaches_moves (scope : Scope) (a : Analysis) (ms : List Move) :
    ∃ done, a.Reaches scope done (a.moves scope ms) := by
  induction ms generalizing a with
  | nil => exact ⟨[], rfl, a.store.status, a.worklist.report.cancelled, a.registry, rfl⟩
  | cons mv ms ih =>
    obtain ⟨done, hdone⟩ := reaches_move scope a mv
    obtain ⟨more, hmore⟩ := ih (a.move scope mv)
    exact ⟨done ++ more, hdone.trans hmore⟩

/-! ## The end -/

/-- A run that is not cancelled takes all that waits. -/
theorem run_eq_finished {σ : Type} {sink : Sink σ} {l : Listener σ}
    (h : (a.run scope sink l).2.worklist.report.cancelled = false) :
    (a.run scope sink l).2 = a.finished scope a.worklist.queue := by
  refine (run_cases scope sink l a).resolve_left ?_
  rintro ⟨done, rest, -, hend⟩
  rw [hend] at h
  simp [stopped, withCancelled] at h

/-- From a point on the way the same end is reached as from the start, instances aside. -/
theorem Reaches.finished (h : a.Reaches scope done b) : ∃ ρ,
    b.finished scope b.worklist.queue = (a.finished scope a.worklist.queue).withRegistry ρ := by
  obtain ⟨st, k, ρ, hb⟩ := h.point
  refine ⟨(b.processAll scope b.worklist.queue).registry, ?_⟩
  calc b.finished scope b.worklist.queue
      = b.paused scope b.worklist.queue [] .complete false _ := rfl
    _ = (a.paused scope done b.worklist.queue st k ρ).paused scope b.worklist.queue [] .complete
          false (b.processAll scope b.worklist.queue).registry := congrArg _ hb
    _ = a.paused scope (done ++ b.worklist.queue) [] .complete false _ := paused_paused
    _ = _ := by
      rw [← h.queue]
      rfl

variable {σ τ : Type}

/-- **Stopping and going on loses nothing and changes nothing.** Elements are taken one by one and by
runs that may be cancelled anywhere, questions are asked in between, and a run that is not cancelled
comes last. Then all that is stored and counted is what one run that is not cancelled makes of the
same start. At each point before the end, what is stored is stored in the end as well. The elements
that have been taken by then are a first part of the queue and do not wait any more, and whatever
does not wait overrides in the end what it is recorded to override already. -/
theorem resumed_eq_uninterrupted (scope : Scope) (harises : a.worklist.Arises) (ms : List Move)
    (sink : Sink σ) (l : Listener σ) (sink' : Sink τ) (l' : Listener τ)
    (hlast : ((a.moves scope ms).run scope sink l).2.worklist.report.cancelled = false)
    (hone : (a.run scope sink' l').2.worklist.report.cancelled = false) :
    (((a.moves scope ms).run scope sink l).2.store = (a.run scope sink' l').2.store ∧
      ((a.moves scope ms).run scope sink l).2.worklist.report
        = (a.run scope sink' l').2.worklist.report) ∧
    ∀ before after, ms = before ++ after →
      (∀ e, (a.moves scope before).store.contains e = true →
        ((a.moves scope ms).run scope sink l).2.store.contains e = true) ∧
      (∀ d r, ∀ x ∈ (a.moves scope before).store.range d r,
        x ∈ ((a.moves scope ms).run scope sink l).2.store.range d r) ∧
      ∃ taken, a.worklist.queue = taken ++ (a.moves scope before).worklist.queue ∧
        (∀ m ∈ taken, m ∉ (a.moves scope before).worklist.queue) ∧
        ∀ m, m ∉ (a.moves scope before).worklist.queue →
          (a.moves scope before).store.range m .overrides
            = ((a.moves scope ms).run scope sink l).2.store.range m .overrides := by
  -- both ends are the end of the analysis that starts at `b`, for each point `b` on the way
  have hends : ∀ before after, ms = before ++ after → ∃ taken ρ,
      a.Reaches scope taken (a.moves scope before) ∧
      ((a.moves scope ms).run scope sink l).2.withRegistry ρ
        = (a.moves scope before).finished scope (a.moves scope before).worklist.queue := by
    rintro before after rfl
    obtain ⟨taken, htaken⟩ := reaches_moves scope a before
    obtain ⟨more, hmore⟩ := reaches_moves scope (a.moves scope before) after
    obtain ⟨ρ, hρ⟩ := hmore.finished
    have hsplit : (a.moves scope before).moves scope after = a.moves scope (before ++ after) :=
      List.foldl_append.symm
    rw [hsplit, ← run_eq_finished hlast] at hρ
    exact ⟨taken, _, htaken, by rw [hρ]; rfl⟩
  constructor
  · obtain ⟨taken, ρ, htaken, hend⟩ := hends [] ms rfl
    have hstart : a.moves scope [] = a := rfl
    rw [hstart, ← run_eq_finished hone] at hend
    rw [← hend]
    exact ⟨rfl, rfl⟩
  · intro before after hms
    obtain ⟨taken, ρ, htaken, hend⟩ := hends before after hms
    have hstore : ((a.moves scope ms).run scope sink l).2.store
        = ((a.moves scope before).processAll scope
            (a.moves scope before).worklist.queue).store.withStatus .complete :=
      congrArg Analysis.store hend
    rw [hstore]
    refine ⟨fun e he => growsTo_processAll.contains he,
      fun d r x hx => range_subset_processAll hx, taken, htaken.queue, ?_,
      fun m hgone => (range_processAll_of_notMem hgone).symm⟩
    intro m hm hw
    have hnodup := harises.orderly.nodup
    rw [htaken.queue] at hnodup
    exact (List.nodup_append.mp hnodup).2.2 m hm m hw rfl

/-! ## An analysis that is interrupted twice -/

/-- A listener that has the work cancelled after each element. -/
def impatient : Sink Unit := ⟨fun _ event => ((), { cancels := event = .worked 1 })⟩

/-- Three classes, each of which extends the next, the last one outside the project. -/
def interruptedSession : Session :=
  (Session.create {} (.catalogue (.ofList
      [{ id := "lib.A", methods := [⟨"lib.A.run()", ⟨0x401⟩⟩] }]))).intakeAll
    [.ingest (.ofClass "p" "p.B" (some "lib.A") ["run"]),
      .ingest (.ofClass "p" "p.C" (some "p.B") ["run"])]

/-- Their analysis before its first element. -/
def interrupted : Analysis :=
  ⟨interruptedSession.store, .seed interruptedSession.store, interruptedSession.registry⟩

/-- Two elements are taken one by one and two more by runs that are cancelled, with a question in
between. -/
def interruptions : List Move :=
  [.step, .step, .run impatient ⟨(), false⟩, .ask interruptedSession.store.elements,
    .run impatient ⟨(), false⟩]

/-- The analysis that is interrupted ends as the one that is not, and what it has recorded after
the first run that is cancelled stays recorded. -/
theorem resumed_eq_uninterrupted_twice :
    ((interrupted.moves interruptedSession.scope interruptions).run interruptedSession.scope .silent
        ⟨(), false⟩).2.store
      = (interrupted.run interruptedSession.scope .silent ⟨(), false⟩).2.store ∧
    ∃ taken, interrupted.worklist.queue = taken ++
        (interrupted.moves interruptedSession.scope (interruptions.take 3)).worklist.queue ∧
      ∀ m ∈ taken, (interrupted.moves interruptedSession.scope
          (interruptions.take 3)).store.range m .overrides
        = ((interrupted.moves interruptedSession.scope interruptions).run
            interruptedSession.scope .silent ⟨(), false⟩).2.store.range m .overrides := by
  obtain ⟨⟨hstore, -⟩, hpoints⟩ := resumed_eq_uninterrupted (a := interrupted)
    interruptedSession.scope (.enqueue _ .empty) interruptions .silent ⟨(), false⟩ .silent
    ⟨(), false⟩ (by decide +kernel) (by decide +kernel)
  obtain ⟨-, -, taken, hqueue, hgone, hfinal⟩ :=
    hpoints (interruptions.take 3) (interruptions.drop 3) rfl
  exact ⟨hstore, taken, hqueue, fun m hm => hfinal m (hgone m hm)⟩

end Analysis
end CodeAtlas
