import CodeAtlas.Proofs.Session.History

/-!
# What waits for the analysis

At the start of a run those elements wait that the last run left over and, behind them, those that
have become known since; at the first run these are all known elements. An element that is taken
does not wait again. An element that a run does not get to still waits afterwards, unless it has been
found to be overridden outside the project, in which case it is never taken.

## Main definitions

* `Session.mem_queue_pending`, `Session.mem_seen_pending`: what waits, and what has been seen.
* `Session.Queued`: nothing waits twice.
* `Session.Due`, `Session.Past`: whether an element has yet to be taken.
-/
namespace CodeAtlas.Session

variable {s : Session} {m x : Element} {r : Run} {i : Intake} {calls : List Call}

/-! ## At the start of a run -/

theorem mem_seen_pending : x ∈ s.pending.seen ↔ x ∈ s.seen ∨ s.store.contains x = true := by
  unfold pending seen
  cases s.worklist <;> exact Worklist.mem_seen_enqueue

theorem queue_pending_eq :
    s.pending.queue = s.waiting ++ s.store.elements.filter fun e => e ∉ s.seen := by
  unfold pending seen waiting
  cases s.worklist <;> rfl

theorem mem_queue_pending : x ∈ s.pending.queue ↔
    x ∈ s.waiting ∨ s.store.contains x = true ∧ x ∉ s.seen := by
  simp [queue_pending_eq, Store.mem_elements]

/-- At the first run all known elements wait. -/
theorem queue_pending_of_first (h : s.worklist = none) : s.pending.queue = s.store.elements := by
  simp [pending, h, Worklist.seed, Worklist.enqueue]

/-- So each of them is taken if the run is not cancelled. -/
theorem mem_taken_of_first (hanalysis : s.settings.analysis = true) (h : s.worklist = none)
    (hwaiting : (s.run r).waiting = []) (hm : s.store.contains m = true) : m ∈ s.taken r := by
  have hq := s.queue_pending (r := r) hanalysis
  rw [hwaiting, List.append_nil, queue_pending_of_first h] at hq
  exact hq ▸ Store.mem_elements.mpr hm

/-! ## Between runs -/

/-- What waits has been seen, and nothing waits twice. -/
structure Queued (s : Session) : Prop where
  nodup : s.waiting.Nodup
  seen : ∀ x ∈ s.waiting, x ∈ s.seen

theorem Queued.nodup_pending (h : s.Queued) : s.pending.queue.Nodup := by
  rw [queue_pending_eq]
  refine List.nodup_append.mpr ⟨h.nodup, s.store.records.nodup_keys.filter _, ?_⟩
  rintro x hx y hy rfl
  simp [h.seen x hx] at hy

theorem Queued.create {settings : Settings} {library : Library} :
    (create settings library).Queued := ⟨List.nodup_nil, by simp [waiting, Session.create]⟩

theorem Queued.intake (h : s.Queued) : (s.intake i).Queued :=
  ⟨by simpa using h.nodup, by simpa using h.seen⟩

/-- What waits when a run begins has been seen. -/
theorem Queued.seen_pending (h : s.Queued) (hx : x ∈ s.pending.queue) : x ∈ s.pending.seen :=
  mem_seen_pending.mpr ((mem_queue_pending.mp hx).imp (h.seen x) And.left)

/-- What has been seen before a run, or was known then, has been seen after it. -/
theorem mem_seen_run (hanalysis : s.settings.analysis = true) (hx : x ∈ s.pending.seen) :
    x ∈ (s.run r).seen := by
  rw [seen_run hanalysis]
  exact Analysis.seen_subset_processAll hx

theorem Queued.run (h : s.Queued) (hanalysis : s.settings.analysis = true) :
    (s.run r).Queued := by
  have hq := s.queue_pending (r := r) hanalysis
  have hnodup := h.nodup_pending
  rw [hq] at hnodup
  constructor
  · exact (List.nodup_append.mp hnodup).2.1
  · intro x hx
    exact mem_seen_run hanalysis (h.seen_pending (mem_queue_of_mem_waiting hanalysis hx))

theorem Queued.after (h : s.Queued) (hanalysis : s.settings.analysis = true) :
    (s.after calls).Queued := by
  induction calls generalizing s with
  | nil => exact h
  | cons c calls ih =>
    cases c with
    | intake i => exact ih h.intake (by rwa [call, settings_intake])
    | analysis r => exact ih (h.run hanalysis) (by rwa [call, settings_run])

/-! ## Elements that have yet to be taken -/

/-- An element belongs to the project, or nothing is stored to override it. -/
def Keeps (s : Session) (m : Element) : Prop :=
  s.owns m = true ∨ ∀ d, m ∉ s.store.range d .overrides

/-- The element has not been taken: it waits, or has not been seen at all. -/
structure Due (s : Session) (m : Element) : Prop where
  waits : m ∈ s.seen → m ∈ s.waiting
  range_eq : s.store.range m .overrides = ∅

/-- The element has been taken, or need not be taken. -/
structure Past (s : Session) (m : Element) : Prop where
  seen : m ∈ s.seen
  gone : m ∉ s.waiting

theorem Due.intake (h : s.Due m) : (s.intake i).Due m :=
  ⟨by simpa using h.waits, range_intake.trans h.range_eq⟩

theorem Past.intake (h : s.Past m) : (s.intake i).Past m :=
  ⟨by simpa using h.seen, by simpa using h.gone⟩

/-- A run that does not get to an element leaves it due. -/
theorem Due.run (h : s.Due m) (hanalysis : s.settings.analysis = true)
    (hkeeps : (s.run r).Keeps m) (hm : m ∉ s.taken r) : (s.run r).Due m := by
  constructor
  · intro hseen
    rw [seen_run hanalysis] at hseen
    -- it is not one of those that have been seen because they were found to be overridden
    have hbefore : m ∈ s.pending.seen := by
      refine (Analysis.mem_seen_processAll hseen).resolve_right ?_
      rintro ⟨hown, d, hd⟩
      rcases hkeeps with hk | hk
      · rw [owns, project_run] at hk
        simp [scope, hk] at hown
      · refine hk d ?_
        rw [range_run]
        exact hd
    have hqueue : m ∈ s.pending.queue := by
      rw [mem_queue_pending]
      by_cases hs : m ∈ s.seen
      · exact .inl (h.waits hs)
      · exact .inr ⟨(mem_seen_pending.mp hbefore).resolve_left hs, hs⟩
    rw [s.queue_pending hanalysis] at hqueue
    exact (List.mem_append.mp hqueue).resolve_left hm
  · rw [range_run_of_notMem hm, h.range_eq]

/-- An element is not taken twice. -/
theorem Past.notMem_taken (h : s.Past m) (hanalysis : s.settings.analysis = true) :
    m ∉ s.taken r := by
  intro hm
  rcases mem_queue_pending.mp (mem_queue_of_mem_taken hanalysis hm) with hw | ⟨-, hs⟩
  · exact h.gone hw
  · exact hs h.seen

theorem Past.run (h : s.Past m) (hanalysis : s.settings.analysis = true) :
    (s.run r).Past m := by
  constructor
  · exact mem_seen_run hanalysis (mem_seen_pending.mpr (.inl h.seen))
  · intro hw
    rcases mem_queue_pending.mp (mem_queue_of_mem_waiting hanalysis hw) with hw | ⟨-, hs⟩
    · exact h.gone hw
    · exact hs h.seen

/-- An element that a run takes does not wait any more. -/
theorem past_run_of_mem_taken (h : s.Queued) (hanalysis : s.settings.analysis = true)
    (hm : m ∈ s.taken r) : (s.run r).Past m := by
  have hq := s.queue_pending (r := r) hanalysis
  have hnodup := h.nodup_pending
  rw [hq] at hnodup
  constructor
  · exact mem_seen_run hanalysis (h.seen_pending (mem_queue_of_mem_taken hanalysis hm))
  · intro hw
    exact (List.nodup_append.mp hnodup).2.2 m hm m hw rfl

end CodeAtlas.Session
