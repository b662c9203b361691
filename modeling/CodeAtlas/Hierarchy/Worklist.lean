import CodeAtlas.Hierarchy.Overridden
import CodeAtlas.Progress

/-!
# Hierarchy analysis

The analysis takes the known elements one by one in their order and records what each of them
overrides. An overridden method outside the project becomes known on the way, with the modifiers
that the library declares; it is not taken up in its turn. The analysis may stop between any two
elements and go on later, also with elements that have become known in the meantime.

## Main definitions

* `Worklist`: the elements that wait, those that have been seen, and the counts.
* `Analysis.step`: take one element.
* `Analysis.run`: take all, unless the listener has the work cancelled.
-/
namespace CodeAtlas

/-- The counts of an analysis over all its runs. -/
structure Report where
  /-- Elements taken. -/
  processed : Nat := 0
  /-- Overrides that were new. -/
  overridesAdded : Nat := 0
  /-- Methods outside the project that became known. -/
  synthesized : Nat := 0
  /-- Whether the last run was cancelled. -/
  cancelled : Bool := false
deriving DecidableEq

/-- The elements that an analysis still has to take, and those that it need not take up again. -/
structure Worklist where
  queue : List Element := []
  seen : ElementSet := ∅
  report : Report := {}

namespace Worklist

/-- The known elements that have not been seen, in their order. -/
def unseen (w : Worklist) (s : Store) : List Element :=
  s.elements.filter fun e => e ∉ w.seen

/-- Put the known elements that have not been seen at the end of the queue. -/
def enqueue (w : Worklist) (s : Store) : Worklist :=
  { w with queue := w.queue ++ w.unseen s, seen := w.seen.insertMany (w.unseen s) }

/-- All known elements, waiting. -/
def seed (s : Store) : Worklist := ({} : Worklist).enqueue s

/-- The number of elements that wait. -/
def remaining (w : Worklist) : Nat := w.queue.length

variable {w : Worklist} {s : Store} {e : Element}

theorem mem_unseen : e ∈ w.unseen s ↔ s.contains e = true ∧ e ∉ w.seen := by
  simp [unseen, Store.mem_elements]

/-- Nothing has been seen by a new worklist. -/
@[simp] theorem unseen_empty : ({} : Worklist).unseen s = s.elements := by simp [unseen]

theorem mem_seen_enqueue : e ∈ (w.enqueue s).seen ↔ e ∈ w.seen ∨ s.contains e = true := by
  simp only [enqueue, Std.ExtTreeSet.mem_insertMany_list, List.contains_iff_mem, mem_unseen]
  grind

/-- What has been seen is not put on the queue again. -/
theorem nodup_append_unseen {es : List Element} (hes : es.Nodup) (hseen : ∀ x ∈ es, x ∈ w.seen) :
    (es ++ w.unseen s).Nodup := by
  refine List.nodup_append.mpr ⟨hes, s.records.nodup_keys.filter _, ?_⟩
  rintro x hx _ hx' rfl
  exact (mem_unseen.mp hx').2 (hseen x hx)

end Worklist

/-- The modifiers to record of a method outside the project: the declared ones, or none. -/
def Library.inferred (l : Library) (m : Element) : Modifiers :=
  match l.modifiers m with
  | .ok declared => declared.inferred
  | .error _ => {}

/-- An analysis at some point of its way. -/
structure Analysis where
  store : Store
  worklist : Worklist := {}
  registry : Registry := .empty

namespace Analysis

variable {σ : Type} (scope : Scope)

/-- What is known at this point. -/
def view (a : Analysis) : View := ⟨scope, a.store⟩

/-- Make a method outside the project known. -/
def synthesize (m : Element) (a : Analysis) : Analysis :=
  { a with
    store := a.store.declare m (scope.library.inferred m)
    worklist :=
      { a.worklist with
        seen := a.worklist.seen.insert m
        report.synthesized :=
          a.worklist.report.synthesized + if a.store.contains m then 0 else 1 } }

/-- Record that a method overrides another. -/
def override (m : Element) (a : Analysis) (overridden : Element) : Analysis :=
  let a := if scope.project.owns overridden then a else a.synthesize scope overridden
  let (new, store) := a.store.relateBoth m .overrides overridden
  { a with
    store
    worklist.report.overridesAdded :=
      a.worklist.report.overridesAdded + if new then 1 else 0 }

/-- Take an element: record what it overrides. -/
def process (m : Element) (a : Analysis) : Analysis :=
  let (found, registry) := ((a.view scope).overriddenIn m).run a.registry
  let a :=
    { a with
      store := a.store.withStatus .running
      worklist.report.processed := a.worklist.report.processed + 1
      registry }
  (found.map Finding.element).foldl (override scope m) a

/-- The same analysis with other elements waiting. -/
def withQueue (a : Analysis) (queue : List Element) : Analysis :=
  { a with worklist.queue := queue }

/-- The same analysis with another status. -/
def withStatus (a : Analysis) (status : Status) : Analysis :=
  { a with store := a.store.withStatus status }

/-- The same analysis with a note whether its last run was cancelled. -/
def withCancelled (a : Analysis) (cancelled : Bool) : Analysis :=
  { a with worklist.report.cancelled := cancelled }

/-- Take the first element that waits, and tell which it was; if none waits, the analysis is
complete. -/
def step (a : Analysis) : Option Element × Analysis :=
  match a.worklist.queue with
  | [] => (none, a.withStatus .complete)
  | m :: rest => (some m, (a.withQueue rest).process scope m)

/-- Take the elements of a queue until cancellation is asked for. -/
def drain (sink : Sink σ) : List Element → Listener σ → Analysis → Listener σ × Analysis
  | queue, l, a =>
    if l.cancelled then (l, ((a.withQueue queue).withStatus .cancelled).withCancelled true)
    else
      match queue with
      | [] => (l, (a.withQueue []).withStatus .complete)
      | m :: rest =>
        drain sink rest (l.tell sink (.worked 1)) ((a.withQueue rest).process scope m)

/-- Take all elements that wait until cancellation is asked for. -/
def run (sink : Sink σ) (l : Listener σ) (a : Analysis) : Listener σ × Analysis :=
  let queue := a.worklist.queue
  let l := l.tell sink (.begun .analysis queue.length)
  let (l, a) := drain scope sink queue l ((a.withCancelled false).withStatus .running)
  (l.tell sink .done, a)

end Analysis
end CodeAtlas
