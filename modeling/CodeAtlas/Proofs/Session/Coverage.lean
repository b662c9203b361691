import CodeAtlas.Proofs.Session.Contents
import CodeAtlas.Proofs.Session.Incremental

/-!
# Which elements the analysis gets to

An element that facts have named waits, from the next run on, until a run takes it. There is one way
in which it is never taken: a run finds it to be overridden before any fact has named it, and while
it lies outside the project. It has been seen from then on, and facts that name it afterwards do not
put it on the queue, not even if its package has been registered. So when a run is not cancelled, of
the elements named so far those have been taken that were named in time, and no others.

## Main definitions

* `Session.Sometime`: that something is true of some run of a history.
* `Session.Named`, `Session.Taken`, `Session.Preempted`: what becomes of an element.
* `Session.taken_iff_not_preempted`: the named elements that are taken.
-/
namespace CodeAtlas.Session

variable {s : Session} {m x : Element} {r : Run} {i : Intake} {c : Call}
  {calls : List Call} {P : Session → Run → Prop}

/-! ## Runs of a history -/

/-- Something is true of some run of a history and the session in which it takes place. -/
def Sometime (s : Session) (calls : List Call) (P : Session → Run → Prop) : Prop :=
  ∃ before r rest, calls = before ++ .analysis r :: rest ∧ P (s.after before) r

theorem not_sometime_nil : ¬ s.Sometime [] P := by
  rintro ⟨before, r, rest, hcalls, -⟩
  simp at hcalls

theorem sometime_append_singleton : s.Sometime (calls ++ [c]) P ↔
    s.Sometime calls P ∨ ∃ r, c = .analysis r ∧ P (s.after calls) r := by
  constructor
  · rintro ⟨before, r, rest, hcalls, hP⟩
    rcases rest.eq_nil_or_concat' with rfl | ⟨rest, c', rfl⟩
    · obtain ⟨rfl, hc⟩ := List.append_inj' hcalls rfl
      exact .inr ⟨r, List.singleton_inj.mp hc, hP⟩
    · rw [← List.cons_append, ← List.append_assoc] at hcalls
      obtain ⟨rfl, -⟩ := List.append_inj' hcalls rfl
      exact .inl ⟨before, r, rest, rfl, hP⟩
  · rintro (⟨before, r, rest, rfl, hP⟩ | ⟨r, rfl, hP⟩)
    · exact ⟨before, r, rest ++ [c], by simp, hP⟩
    · exact ⟨calls, r, [], rfl, hP⟩

theorem sometime_intake : s.Sometime (calls ++ [.intake i]) P ↔ s.Sometime calls P := by
  simp [sometime_append_singleton]

theorem sometime_analysis :
    s.Sometime (calls ++ [.analysis r]) P ↔ s.Sometime calls P ∨ P (s.after calls) r := by
  simp [sometime_append_singleton]

/-! ## What becomes of an element -/

/-- An accepted unit names the element, or it has been declared. -/
def Named (s : Session) (calls : List Call) (m : Element) : Prop :=
  ∃ i ∈ calls.flatMap Call.intakes, ∃ u ∈ i.units s.settings.failFast, ∃ f ∈ u.entries, f.Names m

/-- A run takes the element. -/
def Taken (s : Session) (calls : List Call) (m : Element) : Prop :=
  s.Sometime calls fun t r => m ∈ t.taken r

/-- A run finds an element to be overridden that was not known when it began, and that lies outside
the project. -/
def Preempts (s : Session) (r : Run) (m : Element) : Prop :=
  s.owns m = false ∧ s.store.contains m = false ∧ ∃ d, m ∈ (s.run r).store.range d .overrides

/-- Some run does that. -/
def Preempted (s : Session) (calls : List Call) (m : Element) : Prop :=
  s.Sometime calls fun t r => t.Preempts r m

theorem taken_intake : s.Taken (calls ++ [.intake i]) m ↔ s.Taken calls m := sometime_intake

theorem taken_analysis : s.Taken (calls ++ [.analysis r]) m ↔
    s.Taken calls m ∨ m ∈ (s.after calls).taken r := sometime_analysis

theorem preempted_intake : s.Preempted (calls ++ [.intake i]) m ↔ s.Preempted calls m :=
  sometime_intake

theorem preempted_analysis : s.Preempted (calls ++ [.analysis r]) m ↔
    s.Preempted calls m ∨ (s.after calls).Preempts r m := sometime_analysis

/-! ## Named elements are known -/

theorem contains_intake : (s.intake i).store.contains x = true ↔
    (∃ u ∈ i.units s.settings.failFast, ∃ f ∈ u.entries, f.Names x) ∨
      s.store.contains x = true := by
  rw [store_intake, Store.contains_foldl_enter fun f hf => Intake.valid_of_mem_entries hf]
  simp only [List.mem_flatMap]
  grind

theorem known_of_named (h : s.Named calls m) : (s.after calls).store.contains m = true := by
  induction calls using List.reverseRecOn with
  | nil => simp [Named] at h
  | append_singleton calls c ih =>
    obtain ⟨i, hi, hnames⟩ := h
    rw [List.flatMap_append, List.mem_append] at hi
    cases c with
    | intake j =>
      rw [after_intake, contains_intake, settings_after]
      rcases hi with hi | hi
      · exact .inr (ih ⟨i, hi, hnames⟩)
      · obtain rfl : i = j := by simpa [Call.intakes] using hi
        exact .inl hnames
    | analysis r =>
      rw [after_analysis]
      refine growsTo_run.contains (ih ⟨i, ?_, hnames⟩)
      simpa [Call.intakes] using hi

/-! ## One run -/

/-- What has been seen is known. -/
def SeenKnown (s : Session) : Prop := ∀ x ∈ s.seen, s.store.contains x = true

theorem SeenKnown.create {settings : Settings} {library : Library} :
    (create settings library).SeenKnown := by
  intro x hx
  simp [Session.seen, Session.create] at hx

theorem SeenKnown.intake (h : s.SeenKnown) : (s.intake i).SeenKnown := by
  intro x hx
  rw [seen_intake] at hx
  exact contains_intake.mpr (.inr (h x hx))

/-- What has been seen when a run begins is known. -/
theorem SeenKnown.known_of_pending (h : s.SeenKnown) (hx : x ∈ s.pending.seen) :
    s.store.contains x = true :=
  (mem_seen_pending.mp hx).elim (h x) id

/-- Apart from what was known at its start, a run has seen what it has found to be overridden outside
the project. -/
theorem mem_seen_run_iff (h : s.SeenKnown) (hanalysis : s.settings.analysis = true) :
    x ∈ (s.run r).seen ↔ s.store.contains x = true ∨ s.Preempts r x := by
  constructor
  · intro hx
    rw [seen_run hanalysis] at hx
    by_cases hknown : s.store.contains x = true
    · exact .inl hknown
    · obtain ⟨hown, d, hd⟩ := (Analysis.mem_seen_processAll hx).resolve_left
        (mt h.known_of_pending hknown)
      exact .inr ⟨hown, Bool.eq_false_iff.mpr hknown, d, by rwa [range_run]⟩
  · rintro (hknown | ⟨hown, hunknown, d, hd⟩)
    · exact mem_seen_run hanalysis (mem_seen_pending.mpr (.inr hknown))
    · have hnew : x ∉ s.store.range d .overrides := fun hold => by
        have hknown : s.store.contains x = true := Store.known_of_mem_range hold
        simp [hunknown] at hknown
      obtain ⟨pre, post, htaken, hx⟩ := (mem_range_run.mp hd).resolve_left hnew
      rw [seen_run hanalysis, htaken, reached, Analysis.processAll_append, Analysis.processAll_cons]
      exact Analysis.seen_subset_processAll (Analysis.mem_seen_process.mpr (.inl ⟨hx, hown⟩))

theorem SeenKnown.run (h : s.SeenKnown) (hanalysis : s.settings.analysis = true) :
    (s.run r).SeenKnown := by
  intro x hx
  rcases (mem_seen_run_iff h hanalysis).mp hx with hold | ⟨-, -, d, hd⟩
  · exact growsTo_run.contains hold
  · exact Store.known_of_mem_range hd

/-- An element that is known is not preempted any more. -/
theorem not_preempts_of_known (h : s.store.contains m = true) : ¬ s.Preempts r m := by
  rintro ⟨-, hunknown, -⟩
  simp [h] at hunknown

/-- What waits when a run begins is known. -/
theorem SeenKnown.known_of_queue (h : s.SeenKnown) (hqueued : s.Queued)
    (hx : x ∈ s.pending.queue) : s.store.contains x = true :=
  h.known_of_pending (hqueued.seen_pending hx)

/-- A run that preempts an element need not take it, and neither need a later one. -/
theorem past_run_of_preempts (h : s.SeenKnown) (hqueued : s.Queued)
    (hanalysis : s.settings.analysis = true) (hm : s.Preempts r m) : (s.run r).Past m where
  seen := (mem_seen_run_iff h hanalysis).mpr (.inr hm)
  gone hw := not_preempts_of_known
    (h.known_of_queue hqueued (mem_queue_of_mem_waiting hanalysis hw)) hm

/-- An element that need not be taken after a run, though it had to before, has been taken by the run
or preempted by it, and not both. -/
theorem mem_taken_iff_not_preempts (h : s.SeenKnown) (hqueued : s.Queued)
    (hanalysis : s.settings.analysis = true) (hbefore : ¬ s.Past m) (hafter : (s.run r).Past m) :
    m ∈ s.taken r ↔ ¬ s.Preempts r m := by
  constructor
  · intro hm
    exact not_preempts_of_known (h.known_of_queue hqueued (mem_queue_of_mem_taken hanalysis hm))
  · intro hnot
    have hknown := ((mem_seen_run_iff h hanalysis).mp hafter.seen).resolve_right hnot
    have hqueue : m ∈ s.pending.queue := by
      rw [mem_queue_pending]
      by_cases hs : m ∈ s.seen
      · exact .inl (not_not.mp fun hgone => hbefore ⟨hs, hgone⟩)
      · exact .inr ⟨hknown, hs⟩
    rw [s.queue_pending hanalysis] at hqueue
    exact (List.mem_append.mp hqueue).resolve_right hafter.gone

/-! ## All runs -/

/-- What a history keeps of an element: as long as it may still have to be taken it has neither been
taken nor preempted, and afterwards exactly one of the two has happened. -/
structure Tracked (s : Session) (calls : List Call) (m : Element) : Prop where
  queued : (s.after calls).Queued
  seenKnown : (s.after calls).SeenKnown
  due : ¬ (s.after calls).Past m → ¬ s.Taken calls m ∧ ¬ s.Preempted calls m
  past : (s.after calls).Past m → (s.Taken calls m ↔ ¬ s.Preempted calls m)

theorem Tracked.intake (h : s.Tracked calls m) : s.Tracked (calls ++ [.intake i]) m where
  queued := by
    rw [after_intake]
    exact h.queued.intake
  seenKnown := by
    rw [after_intake]
    exact h.seenKnown.intake
  due hnot := by
    rw [after_intake] at hnot
    rw [taken_intake, preempted_intake]
    exact h.due fun hpast => hnot hpast.intake
  past hpast := by
    rw [after_intake] at hpast
    rw [taken_intake, preempted_intake]
    exact h.past ⟨by simpa using hpast.seen, by simpa using hpast.gone⟩

theorem Tracked.run (h : s.Tracked calls m) (hanalysis : (s.after calls).settings.analysis = true) :
    s.Tracked (calls ++ [.analysis r]) m where
  queued := by
    rw [after_analysis]
    exact h.queued.run hanalysis
  seenKnown := by
    rw [after_analysis]
    exact h.seenKnown.run hanalysis
  due hnot := by
    rw [after_analysis] at hnot
    obtain ⟨htaken, hpreempted⟩ := h.due fun hpast => hnot (hpast.run hanalysis)
    rw [taken_analysis, preempted_analysis, not_or, not_or]
    exact ⟨⟨htaken, fun hm => hnot (past_run_of_mem_taken h.queued hanalysis hm)⟩,
      hpreempted, fun hm => hnot (past_run_of_preempts h.seenKnown h.queued hanalysis hm)⟩
  past hpast := by
    rw [after_analysis] at hpast
    rw [taken_analysis, preempted_analysis]
    by_cases hbefore : (s.after calls).Past m
    · rw [or_iff_left (hbefore.notMem_taken hanalysis),
        or_iff_left (not_preempts_of_known (h.seenKnown m hbefore.seen))]
      exact h.past hbefore
    · obtain ⟨htaken, hpreempted⟩ := h.due hbefore
      rw [or_iff_right htaken, or_iff_right hpreempted]
      exact mem_taken_iff_not_preempts h.seenKnown h.queued hanalysis hbefore hpast

variable {settings : Settings} {library : Library}

theorem tracked_after (hs : s = create settings library) (hanalysis : settings.analysis = true) :
    s.Tracked calls m := by
  induction calls using List.reverseRecOn with
  | nil =>
    subst hs
    refine ⟨.create, .create, fun _ => ⟨not_sometime_nil, not_sometime_nil⟩, fun hpast => ?_⟩
    have hseen := hpast.seen
    simp [Session.seen, create] at hseen
  | append_singleton calls c ih =>
    cases c with
    | intake i => exact ih.intake
    | analysis r =>
      refine ih.run ?_
      rw [settings_after, hs]
      exact hanalysis

/-- **Of the elements that have been named, a run that is not cancelled leaves out those that were
preempted.** Facts are taken in and runs take place in any order, and the last run is not cancelled.
Then an element that an accepted unit names, or that has been declared, has been taken by some run if
and only if no run has found it to be overridden that began when the element was not known and its
package was not registered. -/
theorem taken_iff_not_preempted (hs : s = create settings library)
    (hanalysis : settings.analysis = true) {last : Run} (hlast : (s.after calls).Completes last)
    (hnamed : s.Named calls m) :
    s.Taken (calls ++ [.analysis last]) m ↔ ¬ s.Preempted (calls ++ [.analysis last]) m := by
  have hset : (s.after calls).settings.analysis = true := by
    rw [settings_after, hs]
    exact hanalysis
  have htracked : s.Tracked (calls ++ [.analysis last]) m := tracked_after hs hanalysis
  refine htracked.past ⟨?_, ?_⟩
  · rw [after_analysis]
    exact mem_seen_run hset (mem_seen_pending.mpr (.inr (known_of_named hnamed)))
  · rw [after_analysis, hlast.waiting_eq_nil hset]
    exact List.not_mem_nil

/-! ## An element that is named too late -/

/-- A method of a class that has been taken in has been named. -/
theorem named_of_ofClass (package name method : String) (superclass : Option String)
    (hcall : .intake (.ingest (.ofClass package name superclass [method])) ∈ calls)
    (hflaw : (SourceUnit.ofClass package name superclass [method]).flaw? = none)
    (hm : m.key = ⟨.method, name ++ "." ++ method ++ "()"⟩) : s.Named calls m := by
  refine ⟨_, List.mem_flatMap.mpr ⟨_, hcall, List.mem_singleton_self _⟩,
    .ofClass package name superclass [method], ?_,
    .element ⟨.method, name ++ "." ++ method ++ "()", ⟨1⟩⟩, ?_, hm.symm⟩
  · rw [Intake.units, accepted_cons_ok hflaw]
    exact List.mem_cons_self
  · simp [SourceUnit.entries, SourceUnit.ofClass]

/-- The class of a library method is analyzed as part of the project once its package has been
registered and its unit has been taken in. But the method was found to be overridden before, and so
no run takes it. -/
theorem named_element_left_out :
    (openSession.after openCalls).Completes .silent ∧ openSession.Named openCalls openMethod ∧
      (openSession.after openCalls).owns openMethod = true ∧
      ¬ openSession.Taken (openCalls ++ [.analysis .silent]) openMethod := by
  refine ⟨?_, ?_, by decide +kernel, ?_⟩
  · unfold Completes
    decide +kernel
  · exact named_of_ofClass "q" "q.B" "run" (some "q.A") (by simp [openCalls]) (by decide +kernel)
      (by decide +kernel)
  · rw [taken_analysis, not_or]
    refine ⟨?_, by decide +kernel⟩
    show ¬ openSession.Taken ([] ++ [.intake _] ++ [.analysis .silent] ++ [.intake _]
      ++ [.intake _]) openMethod
    rw [taken_intake, taken_intake, taken_analysis, taken_intake, not_or]
    exact ⟨not_sometime_nil, by decide +kernel⟩

/-- The method of a package that is registered from the start is taken. -/
theorem taken_iff_not_preempted_late :
    lateSession.Taken (lateCalls ++ [.analysis .silent]) lateMethod := by
  have hlast : (lateSession.after lateCalls).Completes .silent := by
    unfold Completes
    decide +kernel
  have hnamed : lateSession.Named lateCalls lateMethod :=
    named_of_ofClass "p" "p.Sub" "run" none (by simp [lateCalls]) (by decide +kernel)
      (by decide +kernel)
  refine (taken_iff_not_preempted rfl rfl hlast hnamed).mpr ?_
  rintro ⟨before, r, rest, -, hown, -⟩
  have howned : (lateSession.after before).owns lateMethod = true := owns_after (by decide +kernel)
  exact Bool.false_ne_true (hown.symm.trans howned)

end CodeAtlas.Session
