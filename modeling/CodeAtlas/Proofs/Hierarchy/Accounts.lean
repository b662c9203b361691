import CodeAtlas.Proofs.Hierarchy.Resumption
import CodeAtlas.Proofs.Tuples

/-!
# The counts of an analysis

An analysis keeps three counts while elements come onto its worklist and are taken from it, in
steps and in runs that may be cancelled, and while facts come in from outside. The worklist is first
in, first out: what has been put on it is what has been taken, in that order, and then what waits.
Nothing is put on it twice, so nothing is taken twice. Each method that is taken has had no override
before, so each that it is found to override is a new tuple, and as long as nobody else records
overrides their count is the number of all that are stored. The count of methods that have become
known is that of the elements outside the project that are new, as long as nobody else records
anything.

## Main definitions

* `Analysis.Action`, `Analysis.acts`: what may happen to an analysis and its store.
* `Analysis.enqueuedBy`, `Analysis.takenBy`: what is put on the queue on the way, and taken from it.
* `Analysis.Counted`, `Analysis.Gains`: the invariants, with what each action does to them.
* `Analysis.counts_acts`: the counts agree with the queue and with the store.
-/
namespace CodeAtlas

namespace Store

variable {s t : Store} {d e x : Element} {r : Relation}

/-! ## Counting tuples and elements -/

/-- Two stores with the same ranges of a relation have as many tuples of it. -/
theorem tuplesOf_congr (h : ∀ d, t.range d r = s.range d r) : t.tuplesOf r = s.tuplesOf r := by
  have hperm : (t.pairs r).Perm (s.pairs r) := by
    refine (List.perm_ext_iff_of_nodup (t.nodup_pairs r) (s.nodup_pairs r)).mpr ?_
    rintro ⟨d, e⟩
    rw [mem_pairs, mem_pairs, h]
  rw [← length_pairs, ← length_pairs, hperm.length_eq]

theorem tuplesOf_eq_zero (h : ∀ d, s.range d r = ∅) : s.tuplesOf r = 0 := by
  have hnone : ∀ p, p ∉ s.pairs r := by
    rintro ⟨d, e⟩ hp
    simp [mem_pairs, h] at hp
  rw [← length_pairs, List.eq_nil_iff_forall_not_mem.mpr hnone, List.length_nil]

/-- One more pair is one more tuple. -/
theorem tuplesOf_eq_add_one (hnew : e ∉ s.range d r)
    (h : ∀ a x, x ∈ t.range a r ↔ (a = d ∧ x = e) ∨ x ∈ s.range a r) :
    t.tuplesOf r = s.tuplesOf r + 1 := by
  have hperm : (t.pairs r).Perm ((d, e) :: s.pairs r) := by
    refine perm_cons_of_nodup (s.nodup_pairs r) (t.nodup_pairs r) (mt mem_pairs.mp hnew) ?_
    rintro ⟨a, x⟩
    rw [mem_pairs, h, mem_pairs, Prod.mk.injEq]
  rw [← length_pairs, ← length_pairs, hperm.length_eq, List.length_cons]

theorem relateBoth_of_notMem (h : e ∉ s.range d r) : (s.relateBoth d r e).1 = true := by
  simp [relateBoth, relate_eq_true.mpr h]

/-- The elements outside the project that the second store knows and the first does not. -/
def gained (scope : Scope) (s t : Store) : List Element :=
  t.elements.filter fun e => !scope.project.owns e && !s.contains e

variable {scope : Scope}

theorem mem_gained : e ∈ s.gained scope t ↔
    t.contains e = true ∧ scope.project.owns e = false ∧ s.contains e = false := by
  simp [gained, mem_elements]

theorem nodup_gained (scope : Scope) (s t : Store) : (s.gained scope t).Nodup :=
  t.records.nodup_keys.filter _

theorem length_gained_congr {u : Store} (h : ∀ e, e ∈ s.gained scope t ↔ e ∈ s.gained scope u) :
    (s.gained scope t).length = (s.gained scope u).length :=
  ((List.perm_ext_iff_of_nodup (nodup_gained ..) (nodup_gained ..)).mpr h).length_eq

theorem length_gained_eq_add_one {u : Store} (hx : x ∉ s.gained scope t)
    (h : ∀ e, e ∈ s.gained scope u ↔ e = x ∨ e ∈ s.gained scope t) :
    (s.gained scope u).length = (s.gained scope t).length + 1 := by
  have hperm : (s.gained scope u).Perm (x :: s.gained scope t) :=
    perm_cons_of_nodup (nodup_gained ..) (nodup_gained ..) hx h
  rw [hperm.length_eq, List.length_cons]

end Store

namespace Analysis

variable {scope : Scope} {a b : Analysis} {m e : Element} {es : List Element}

/-! ## The counts of one element -/

theorem processed_override :
    (a.override scope m e).worklist.report.processed = a.worklist.report.processed := by
  by_cases he : scope.project.owns e <;> simp [override, he, synthesize]

theorem processed_foldl_override :
    (es.foldl (override scope m) a).worklist.report.processed = a.worklist.report.processed := by
  induction es generalizing a with
  | nil => rfl
  | cons e es ih => rw [List.foldl_cons, ih, processed_override]

theorem processed_process :
    (a.process scope m).worklist.report.processed = a.worklist.report.processed + 1 := by
  rw [process_eq, processed_foldl_override]

/-- An override that is not stored yet is counted, and it is one more tuple. -/
theorem overridesAdded_override (scope : Scope) (h : e ∉ a.store.range m .overrides) :
    (a.override scope m e).worklist.report.overridesAdded
        = a.worklist.report.overridesAdded + 1 ∧
      (a.override scope m e).store.tuplesOf .overrides = a.store.tuplesOf .overrides + 1 := by
  constructor
  · by_cases he : scope.project.owns e
    · simp [override, he, Store.relateBoth_of_notMem h]
    · have h' : e ∉ (a.store.declare e (scope.library.inferred e)).range m .overrides := by
        rwa [Store.range_declare]
      simp [override, he, synthesize, Store.relateBoth_of_notMem h']
  · refine Store.tuplesOf_eq_add_one h fun d x => ?_
    rw [mem_range_override]
    simp [Relation.transpose]

/-- So the count and the number of tuples grow together. -/
theorem overridesAdded_foldl_override (hnodup : es.Nodup)
    (h : ∀ e ∈ es, e ∉ a.store.range m .overrides)
    (heq : a.worklist.report.overridesAdded = a.store.tuplesOf .overrides) :
    (es.foldl (override scope m) a).worklist.report.overridesAdded
      = (es.foldl (override scope m) a).store.tuplesOf .overrides := by
  induction es generalizing a with
  | nil => exact heq
  | cons e es ih =>
    obtain ⟨he, hes⟩ := List.nodup_cons.mp hnodup
    obtain ⟨hfirst, hrest⟩ := List.forall_mem_cons.mp h
    obtain ⟨hcount, htuples⟩ := overridesAdded_override scope hfirst
    refine ih hes (fun x hx hmem => ?_) (by rw [hcount, htuples, heq])
    rcases mem_range_override.mp hmem with ⟨-, -, rfl⟩ | ⟨-, hr, -⟩ | hold
    · exact he hx
    · simp [Relation.transpose] at hr
    · exact hrest x hx hold

theorem overridesAdded_process (hempty : a.store.range m .overrides = ∅)
    (heq : a.worklist.report.overridesAdded = a.store.tuplesOf .overrides) :
    (a.process scope m).worklist.report.overridesAdded
      = (a.process scope m).store.tuplesOf .overrides := by
  rw [process_eq]
  refine overridesAdded_foldl_override (ElementSet.nodup_toList _) (fun e _ he => ?_) heq
  rw [Store.range_withStatus, hempty] at he
  simp at he

/-! ## Moves, element by element -/

/-- What is kept when the first element that waits is taken, whatever is noted along with it, is kept
on the way to any point. -/
theorem Reaches.induction {P : List Element → Analysis → Prop}
    (hprocess : ∀ taken a m rest, a.worklist.queue = m :: rest → P taken a →
      P (taken ++ [m]) ((a.withQueue rest).process scope m))
    (hnotes : ∀ taken a status cancelled registry, P taken a →
      P taken (((a.withStatus status).withCancelled cancelled).withRegistry registry))
    {taken done : List Element} (h : P taken a) (hreach : a.Reaches scope done b) :
    P (taken ++ done) b := by
  have hall : ∀ (done rest taken : List Element) (a : Analysis), a.worklist.queue = done ++ rest →
      P taken a → P (taken ++ done) ((a.processAll scope done).withQueue rest) := by
    intro done rest
    induction done with
    | nil =>
      intro taken a hq ha
      obtain rfl : a.worklist.queue = rest := hq
      rw [List.append_nil]
      exact ha
    | cons m done ih =>
      intro taken a hq ha
      have hnext := hprocess taken a m (done ++ rest) hq ha
      have hrest := ih (taken ++ [m]) _ queue_process hnext
      rw [process_withQueue, processAll_withQueue, List.append_assoc] at hrest
      exact hrest
  obtain ⟨status, cancelled, registry, hb⟩ := hreach.point
  rw [hb]
  exact hnotes _ _ _ _ _ (hall done _ taken a hreach.queue h)

/-! ## Actions -/

/-- What may happen to an analysis and to the store that it works on. Nobody but the analysis
records overrides. -/
inductive Action : Type 1 where
  /-- Take elements, or ask a question. -/
  | move (mv : Move)
  /-- Put the elements that have become known on the worklist. -/
  | enqueue
  /-- Record an element. -/
  | declare (e : Element) (m : Modifiers)
  /-- Record a tuple. To record its transpose as well is another action. -/
  | relate (d : Element) (r : Relation) (e : Element) (h : r ≠ .overrides)

namespace Action

/-- Whether something is recorded from outside. -/
def records : Action → Bool
  | declare .. | relate .. => true
  | move _ | enqueue => false

/-- The elements that are put on the queue. -/
def enqueued (a : Analysis) : Action → List Element
  | enqueue => a.worklist.unseen a.store
  | move _ | declare .. | relate .. => []

/-- The elements that are taken from the queue. -/
def taken (scope : Scope) (a : Analysis) : Action → List Element
  | move mv => a.worklist.queue.take
      (a.worklist.queue.length - (a.move scope mv).worklist.queue.length)
  | enqueue | declare .. | relate .. => []

end Action

/-- Do one thing. -/
def act (scope : Scope) (a : Analysis) : Action → Analysis
  | .move mv => a.move scope mv
  | .enqueue => { a with worklist := a.worklist.enqueue a.store }
  | .declare e m => { a with store := a.store.declare e m }
  | .relate d r e _ => { a with store := (a.store.relate d r e).2 }

/-- Do one thing after the other. -/
def acts (scope : Scope) (a : Analysis) (cs : List Action) : Analysis := cs.foldl (act scope) a

/-- The elements that are put on the queue on the way, in their order. -/
def enqueuedBy (scope : Scope) : Analysis → List Action → List Element
  | _, [] => []
  | a, c :: cs => c.enqueued a ++ enqueuedBy scope (a.act scope c) cs

/-- The elements that are taken from the queue on the way, in their order. -/
def takenBy (scope : Scope) : Analysis → List Action → List Element
  | _, [] => []
  | a, c :: cs => c.taken scope a ++ takenBy scope (a.act scope c) cs

/-- A new analysis of a store. -/
def seeded (s : Store) (registry : Registry) : Analysis := ⟨s, .seed s, registry⟩

variable {c : Action} {cs : List Action} {mv : Move} {enqueued taken done : List Element}

@[simp] theorem acts_nil : a.acts scope [] = a := rfl

@[simp] theorem acts_cons : a.acts scope (c :: cs) = (a.act scope c).acts scope cs := rfl

theorem taken_move (h : a.Reaches scope done (a.move scope mv)) :
    (Action.move mv).taken scope a = done := by
  have hqueue := h.queue
  simp only [Action.taken]
  generalize (a.move scope mv).worklist.queue = rest at hqueue ⊢
  rw [hqueue, List.length_append, Nat.add_sub_cancel, List.take_left]

/-- A step takes the element that it tells. -/
theorem taken_step : (Action.move .step).taken scope a = (a.step scope).1.toList := by
  cases hq : a.worklist.queue with
  | nil => simp [Action.taken, hq, step]
  | cons m rest =>
    have hleft : (a.move scope .step).worklist.queue = rest := by
      simp [move, step, hq, queue_process, withQueue]
    simp [Action.taken, hq, hleft, step]

/-! ## The queue and the overrides -/

/-- The counts agree with what has been put on the queue, with what has been taken from it, and with
the overrides that are stored. -/
structure Counted (enqueued taken : List Element) (a : Analysis) : Prop where
  /-- First in, first out. -/
  order : enqueued = taken ++ a.worklist.queue
  nodup : enqueued.Nodup
  seen : ∀ e ∈ enqueued, e ∈ a.worklist.seen
  known : ∀ e ∈ enqueued, a.store.contains e = true
  processed : a.worklist.report.processed = taken.length
  /-- Nothing overrides anything before it has been taken. -/
  untaken : ∀ e ∉ taken, a.store.range e .overrides = ∅
  overridesAdded : a.worklist.report.overridesAdded = a.store.tuplesOf .overrides

namespace Counted

theorem process {rest : List Element} (h : a.Counted enqueued taken)
    (hq : a.worklist.queue = m :: rest) :
    ((a.withQueue rest).process scope m).Counted enqueued (taken ++ [m]) where
  order := by
    rw [queue_process, List.append_assoc, h.order, hq]
    rfl
  nodup := h.nodup
  seen e he := mem_seen_process.mpr (.inr (h.seen e he))
  known e he := growsTo_process.contains (h.known e he)
  processed := by
    rw [processed_process, List.length_append]
    exact congrArg (· + 1) h.processed
  untaken e he := by
    have hother : e ≠ m := by
      rintro rfl
      exact he (List.mem_append_right _ (List.mem_singleton_self e))
    ext x
    rw [mem_range_process, ← h.untaken e fun hmem => he (List.mem_append_left _ hmem)]
    simp [hother, Relation.transpose, withQueue]
  overridesAdded := by
    have hnew : m ∉ taken := by
      intro hmem
      have hnodup := h.nodup
      rw [h.order, hq] at hnodup
      exact (List.nodup_append.mp hnodup).2.2 m hmem m List.mem_cons_self rfl
    exact overridesAdded_process (a := a.withQueue rest) (h.untaken m hnew) h.overridesAdded

/-- The status, the note of a cancellation and the instances are not counted. -/
theorem notes {status : Status} {cancelled : Bool} {registry : Registry}
    (h : a.Counted enqueued taken) :
    (((a.withStatus status).withCancelled cancelled).withRegistry registry).Counted enqueued taken :=
  ⟨h.order, h.nodup, h.seen, h.known, h.processed, h.untaken, h.overridesAdded⟩

theorem enqueue (h : a.Counted enqueued taken) :
    Counted (enqueued ++ a.worklist.unseen a.store) taken
      { a with worklist := a.worklist.enqueue a.store } where
  order := by
    rw [h.order, List.append_assoc]
    rfl
  nodup := Worklist.nodup_append_unseen h.nodup h.seen
  seen e he := Worklist.mem_seen_enqueue.mpr
    ((List.mem_append.mp he).imp (h.seen e) fun hnew => (Worklist.mem_unseen.mp hnew).1)
  known e he := (List.mem_append.mp he).elim (h.known e) fun hnew => (Worklist.mem_unseen.mp hnew).1
  processed := h.processed
  untaken := h.untaken
  overridesAdded := h.overridesAdded

/-- Facts from outside are no overrides. -/
theorem record {s : Store} (h : a.Counted enqueued taken)
    (hknown : ∀ e, a.store.contains e = true → s.contains e = true)
    (hrange : ∀ d, s.range d .overrides = a.store.range d .overrides) :
    Counted enqueued taken { a with store := s } where
  order := h.order
  nodup := h.nodup
  seen := h.seen
  known e he := hknown e (h.known e he)
  processed := h.processed
  untaken e he := (hrange e).trans (h.untaken e he)
  overridesAdded := h.overridesAdded.trans (Store.tuplesOf_congr hrange).symm

/-- **Whatever is done, the counts are right.** -/
theorem act (h : a.Counted enqueued taken) (c : Action) :
    (a.act scope c).Counted (enqueued ++ c.enqueued a) (taken ++ c.taken scope a) := by
  cases c with
  | move mv =>
    obtain ⟨done, hdone⟩ := reaches_move scope a mv
    rw [taken_move hdone, Action.enqueued, List.append_nil]
    exact Reaches.induction (P := fun taken a => Counted enqueued taken a)
      (fun _ _ _ _ hq ha => ha.process hq) (fun _ _ _ _ _ ha => ha.notes) h hdone
  | enqueue =>
    rw [Action.taken, List.append_nil]
    exact h.enqueue
  | declare e m =>
    rw [Action.taken, Action.enqueued, List.append_nil, List.append_nil]
    exact h.record (fun x hx => Store.contains_declare.mpr (.inr hx))
      fun d => a.store.range_declare e d m .overrides
  | relate d r e hr =>
    rw [Action.taken, Action.enqueued, List.append_nil, List.append_nil]
    exact h.record (fun x hx => Store.contains_relate.mpr (.inr (.inr hx)))
      fun d => Store.range_relate_of_ne hr.symm

theorem acts (h : a.Counted enqueued taken) (scope : Scope) (cs : List Action) :
    (a.acts scope cs).Counted (enqueued ++ a.enqueuedBy scope cs) (taken ++ a.takenBy scope cs) := by
  induction cs generalizing a enqueued taken with
  | nil =>
    rw [enqueuedBy, takenBy, List.append_nil, List.append_nil]
    exact h
  | cons c cs ih =>
    rw [enqueuedBy, takenBy, ← List.append_assoc, ← List.append_assoc]
    exact ih (h.act c)

/-- What is known at the start waits. -/
theorem seeded {s : Store} (hs : ∀ d, s.range d .overrides = ∅) (registry : Registry) :
    (seeded s registry).Counted s.elements [] := by
  have hempty : Counted [] [] ⟨s, {}, registry⟩ := by
    refine ⟨rfl, List.nodup_nil, by simp, by simp, rfl, fun d _ => hs d, ?_⟩
    exact (Store.tuplesOf_eq_zero hs).symm
  have henqueued := hempty.enqueue
  rwa [Worklist.unseen_empty, List.nil_append] at henqueued

end Counted

/-! ## What has become known -/

/-- Nothing that was known at the start is forgotten, and the elements outside the project that are
new are counted. -/
structure Gains (scope : Scope) (s : Store) (a : Analysis) : Prop where
  grown : ∀ e, s.contains e = true → a.store.contains e = true
  synthesized : a.worklist.report.synthesized = (s.gained scope a.store).length

namespace Gains

variable {s : Store}

/-- Elements of the project become known without being counted. -/
theorem override_owned (h : a.Gains scope s) (hm : a.store.contains m = true)
    (he : scope.project.owns e = true) : (a.override scope m e).Gains scope s where
  grown x hx := contains_override.mpr (.inr (.inr (h.grown x hx)))
  synthesized := by
    have hgained : ∀ x, x ∈ s.gained scope a.store ↔
        x ∈ s.gained scope (a.override scope m e).store := by
      intro x
      rw [Store.mem_gained, Store.mem_gained, contains_override]
      grind
    rw [← Store.length_gained_congr hgained, ← h.synthesized]
    simp [override, he]

/-- Elements outside the project are counted unless they are known already. -/
theorem override_foreign (h : a.Gains scope s) (hm : a.store.contains m = true)
    (he : scope.project.owns e = false) : (a.override scope m e).Gains scope s where
  grown x hx := contains_override.mpr (.inr (.inr (h.grown x hx)))
  synthesized := by
    have hcount : (a.override scope m e).worklist.report.synthesized
        = a.worklist.report.synthesized + if a.store.contains e then 0 else 1 := by
      simp [override, he, synthesize]
    rw [hcount, h.synthesized]
    cases hold : a.store.contains e with
    | true =>
      refine Store.length_gained_congr fun x => ?_
      rw [Store.mem_gained, Store.mem_gained, contains_override]
      grind
    | false =>
      have hstart : s.contains e = false := Bool.eq_false_iff.mpr fun hs => by
        simp [h.grown e hs] at hold
      refine (Store.length_gained_eq_add_one (x := e) ?_ fun x => ?_).symm
      · simp [Store.mem_gained, hold]
      · rw [Store.mem_gained, Store.mem_gained, contains_override]
        grind

theorem override (h : a.Gains scope s) (hm : a.store.contains m = true) :
    (a.override scope m e).Gains scope s := by
  cases he : scope.project.owns e with
  | true => exact h.override_owned hm he
  | false => exact h.override_foreign hm he

theorem foldl_override (h : a.Gains scope s) (hm : a.store.contains m = true) :
    (es.foldl (Analysis.override scope m) a).Gains scope s := by
  induction es generalizing a with
  | nil => exact h
  | cons e es ih => exact ih (h.override hm) (contains_override.mpr (.inl rfl))

theorem process {rest : List Element} (h : a.Gains scope s) (hm : a.store.contains m = true) :
    ((a.withQueue rest).process scope m).Gains scope s := by
  rw [Analysis.process_eq]
  refine foldl_override ⟨h.grown, h.synthesized⟩ ?_
  rw [Store.contains_withStatus]
  exact hm

/-- As long as nothing is recorded from outside, what has become known is counted. -/
theorem act (hcounted : a.Counted enqueued taken) (h : a.Gains scope s) (hc : c.records = false) :
    (a.act scope c).Gains scope s := by
  cases c with
  | move mv =>
    obtain ⟨done, hdone⟩ := reaches_move scope a mv
    refine (Reaches.induction (P := fun taken a => a.Counted enqueued taken ∧ a.Gains scope s) ?_ ?_
      ⟨hcounted, h⟩ hdone).2
    · rintro taken a m rest hq ⟨hcounted, h⟩
      refine ⟨hcounted.process hq, h.process (hcounted.known m ?_)⟩
      rw [hcounted.order, hq]
      exact List.mem_append_right _ List.mem_cons_self
    · rintro taken a status cancelled registry ⟨hcounted, h⟩
      exact ⟨hcounted.notes, h.grown, h.synthesized⟩
  | enqueue => exact ⟨h.grown, h.synthesized⟩
  | declare e m => cases hc
  | relate d r e hr => cases hc

theorem acts (hcounted : a.Counted enqueued taken) (h : a.Gains scope s)
    (hcs : ∀ c ∈ cs, c.records = false) : (a.acts scope cs).Gains scope s := by
  induction cs generalizing a enqueued taken with
  | nil => exact h
  | cons c cs ih =>
    obtain ⟨hc, hcs⟩ := List.forall_mem_cons.mp hcs
    exact ih (hcounted.act c) (h.act hcounted hc) hcs

theorem seeded (scope : Scope) (s : Store) (registry : Registry) :
    (seeded s registry).Gains scope s where
  grown _ := id
  synthesized := by
    have hnone : ∀ e, e ∉ s.gained scope s := by
      intro e he
      obtain ⟨hnow, -, hstart⟩ := Store.mem_gained.mp he
      simp [hnow] at hstart
    exact (congrArg List.length (List.eq_nil_iff_forall_not_mem.mpr hnone)).symm

end Gains

/-! ## The counts of an analysis -/

/-- **The counts agree with the queue and with the store.** An analysis starts from a store without
overrides. It takes elements in steps and in runs that may be cancelled, known elements are put on
its queue again, and elements and tuples other than overrides come in from outside, all in any
order. Then what has been put on the queue is what has been taken, in that order, and then what
waits; nothing among it is there twice. Its number is that of the elements taken and the elements
that wait. The count of overrides is the number of those that are stored. And if nothing has come in
from outside, the count of methods that have become known is the number of elements outside the
project that are known now and were not at the start. -/
theorem counts_acts (scope : Scope) (registry : Registry) {s : Store}
    (hs : ∀ d, s.range d .overrides = ∅) (cs : List Action) :
    (s.elements ++ (seeded s registry).enqueuedBy scope cs
        = (seeded s registry).takenBy scope cs
          ++ ((seeded s registry).acts scope cs).worklist.queue ∧
      ((seeded s registry).acts scope cs).worklist.queue.Nodup ∧
      ((seeded s registry).takenBy scope cs).Nodup ∧
      ∀ m ∈ (seeded s registry).takenBy scope cs,
        m ∉ ((seeded s registry).acts scope cs).worklist.queue) ∧
    ((seeded s registry).acts scope cs).worklist.report.processed
        + ((seeded s registry).acts scope cs).worklist.remaining
      = (s.elements ++ (seeded s registry).enqueuedBy scope cs).length ∧
    ((seeded s registry).acts scope cs).worklist.report.overridesAdded
      = ((seeded s registry).acts scope cs).store.tuplesOf .overrides ∧
    ((∀ c ∈ cs, c.records = false) →
      ((seeded s registry).acts scope cs).worklist.report.synthesized
        = (s.gained scope ((seeded s registry).acts scope cs).store).length) := by
  have hstart := Counted.seeded hs registry
  have hend := hstart.acts scope cs
  rw [List.nil_append] at hend
  have hnodup := hend.nodup
  rw [hend.order] at hnodup
  obtain ⟨htaken, hqueue, hapart⟩ := List.nodup_append.mp hnodup
  refine ⟨⟨hend.order, hqueue, htaken, fun m hm hw => hapart m hm m hw rfl⟩, ?_,
    hend.overridesAdded, fun hcs => ((Gains.seeded scope s registry).acts hstart hcs).synthesized⟩
  rw [hend.processed, hend.order, List.length_append]
  rfl

/-! ## An analysis with facts that come in on the way -/

/-- A class that comes in while the analysis is on its way. -/
def lateClass : Element := ⟨"p.D", .type, by decide +kernel⟩

/-- Its superclass. -/
def earlyClass : Element := ⟨"p.C", .type, by decide +kernel⟩

/-- An element is taken, a class comes in as a subclass of another, its elements are put on the
queue, and a run is cancelled before one that is not. -/
def accounted : List Action :=
  [.move .step, .declare lateClass ⟨0x1⟩,
    .relate lateClass .extendsClass earlyClass (by decide), .enqueue,
    .move (.run impatient ⟨(), false⟩), .enqueue, .move (.run .silent ⟨(), false⟩)]

/-- The class that comes in is one element more than waited from the start, and the three overrides
that are stored are counted. When nothing comes in, one method has become known. -/
theorem counts_acts_late :
    ((seeded interruptedSession.store .empty).acts interruptedSession.scope
          accounted).worklist.report.processed
        + ((seeded interruptedSession.store .empty).acts interruptedSession.scope
          accounted).worklist.remaining
      = interruptedSession.store.elements.length + 1 ∧
    ((seeded interruptedSession.store .empty).acts interruptedSession.scope
        accounted).worklist.report.overridesAdded = 3 ∧
    ((seeded interruptedSession.store .empty).acts interruptedSession.scope
        (interruptions.map .move)).worklist.report.synthesized = 1 := by
  have hempty : ∀ d, interruptedSession.store.range d .overrides = ∅ :=
    fun _ => Session.range_populated
  obtain ⟨-, htotal, hoverrides, -⟩ :=
    counts_acts interruptedSession.scope .empty hempty accounted
  obtain ⟨-, -, -, hsynthesized⟩ :=
    counts_acts interruptedSession.scope .empty hempty (interruptions.map .move)
  refine ⟨?_, ?_, ?_⟩
  · rw [htotal]
    decide +kernel
  · rw [hoverrides]
    decide +kernel
  · rw [hsynthesized (by simp [interruptions, Action.records])]
    decide +kernel

end Analysis
end CodeAtlas
