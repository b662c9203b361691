import CodeAtlas.Proofs.Session.Contents
import CodeAtlas.Proofs.Session.Operations
import CodeAtlas.Query
import Mathlib.Algebra.GroupWithZero.Nat

/-!
# The books of a store

A store is changed by declaring elements, by relating them, and by steps of hierarchy analysis. All
of it comes down to two kinds of writes, one element with its modifiers or one tuple, and nothing
else is written apart from the status. So what a store holds can be told from the list of writes:
the known elements are those that a write names, an element has the modifiers of its last
declaration, and the tuples are those that have been written, once each. The count that the store
keeps is the number of these, and the counts of the single relations add up to it.

## Main definitions

* `Store.Write`, `Store.write`, `Store.writeAll`: what is written into a store.
* `Store.Change`, `Store.change`, `Store.changeAll`: what is done to a store, with
  `Store.Change.writes` and `Store.written`, the writes that it comes down to.
* `Store.changeAll_eq`: changes are their writes, apart from the status.
* `Store.Balanced`: a store holds what has been written, and its counts are right.
* `Store.balanced_changeAll`: so it is, whatever has been done.
* `Session.sum_relations_performAll`: the counts that a session reports add up.
-/
namespace CodeAtlas

namespace Store

/-! ## Writes -/

/-- What is written into a store at one time. -/
inductive Write where
  | declare (e : Element) (m : Modifiers)
  | relate (d : Element) (r : Relation) (e : Element)
deriving DecidableEq

/-- A write names an element. -/
def Write.Names (x : Element) : Write → Prop
  | declare e _ => x = e
  | relate d _ e => x = d ∨ x = e

/-- The modifiers that a write declares an element with. -/
def Write.declared? (x : Element) : Write → Option Modifiers
  | declare e m => if e = x then some m else none
  | relate .. => none

/-- Write into a store. -/
def write (s : Store) : Write → Store
  | .declare e m => s.declare e m
  | .relate d r e => (s.relate d r e).2

/-- Write into a store several times. -/
def writeAll (s : Store) (ws : List Write) : Store := ws.foldl write s

section Writes
variable {s : Store} {w : Write} {ws vs : List Write} {d e x : Element} {r : Relation}
  {status : Status}

theorem writeAll_append : s.writeAll (ws ++ vs) = (s.writeAll ws).writeAll vs :=
  List.foldl_append

theorem contains_write : (s.write w).contains x = true ↔ w.Names x ∨ s.contains x = true := by
  cases w with
  | declare e m => exact contains_declare
  | relate d r e =>
    rw [write, contains_relate, Write.Names, or_assoc]

theorem mem_range_write :
    e ∈ (s.write w).range d r ↔ w = .relate d r e ∨ e ∈ s.range d r := by
  cases w with
  | declare a m => simp [write]
  | relate a q y =>
    rw [write, mem_range_relate, Write.relate.injEq]
    simp only [eq_comm]

theorem modifiers_write :
    (s.write w).modifiers x = (w.declared? x).getD (s.modifiers x) := by
  cases w with
  | declare e m =>
    rw [write, modifiers_declare, Write.declared?]
    split <;> rfl
  | relate d r e => exact modifiers_relate

theorem Tidy.write (h : s.Tidy) (w : Write) : (s.write w).Tidy := by
  cases w with
  | declare e m => exact h.declare e m
  | relate d r e => exact h.relate d r e

/-- What is written does not depend on the status, and leaves it alone. -/
theorem write_withStatus : (s.withStatus status).write w = (s.write w).withStatus status := by
  cases w with
  | declare e m => rfl
  | relate d r e =>
    by_cases h : e ∈ s.range d r
    · have h' : e ∈ (s.withStatus status).range d r := h
      rw [write, write, relate_of_mem h, relate_of_mem h']
      rfl
    · have h' : e ∉ (s.withStatus status).range d r := h
      rw [write, write, relate_of_notMem h, relate_of_notMem h']
      rfl

theorem contains_writeAll :
    (s.writeAll ws).contains x = true ↔ (∃ w ∈ ws, w.Names x) ∨ s.contains x = true :=
  foldl_iff_exists (Q := fun t : Store => t.contains x = true) fun _ _ _ => contains_write

theorem mem_range_writeAll :
    e ∈ (s.writeAll ws).range d r ↔ .relate d r e ∈ ws ∨ e ∈ s.range d r := by
  have h : e ∈ (s.writeAll ws).range d r ↔
      (∃ w ∈ ws, w = .relate d r e) ∨ e ∈ s.range d r :=
    foldl_iff_exists (Q := fun t : Store => e ∈ t.range d r) fun _ _ _ => mem_range_write
  rw [h, exists_eq_right]

/-- An element has the modifiers that it was last declared with. -/
theorem modifiers_writeAll :
    (s.writeAll ws).modifiers x = (ws.filterMap (·.declared? x)).getLastD (s.modifiers x) := by
  induction ws generalizing s with
  | nil => rfl
  | cons w ws ih =>
    rw [writeAll, List.foldl_cons, ← writeAll, ih, modifiers_write]
    cases hw : w.declared? x with
    | none => rw [List.filterMap_cons_none hw, Option.getD_none]
    | some m => rw [List.filterMap_cons_some hw, List.getLastD_cons, Option.getD_some]

theorem Tidy.writeAll (h : s.Tidy) (ws : List Write) : (s.writeAll ws).Tidy :=
  List.foldlRecOn ws Store.write h fun _ ht w _ => ht.write w

theorem Tidy.withStatus (h : s.Tidy) (status : Status) : (s.withStatus status).Tidy :=
  ⟨h.counted, h.nonempty⟩

theorem writeAll_withStatus :
    (s.withStatus status).writeAll ws = (s.writeAll ws).withStatus status :=
  List.foldl_hom (withStatus · status) fun _ _ => write_withStatus

end Writes

/-! ## Changes -/

/-- What is done to a store at one time. Hierarchy analysis takes a step at any point of its way,
with any elements waiting. -/
inductive Change where
  | declare (e : Element) (m : Modifiers)
  | relate (d : Element) (r : Relation) (e : Element)
  | relateBoth (d : Element) (r : Relation) (e : Element)
  | step (scope : Scope) (worklist : Worklist) (registry : Registry)

/-- The store after a change. -/
def change (s : Store) : Change → Store
  | .declare e m => s.declare e m
  | .relate d r e => (s.relate d r e).2
  | .relateBoth d r e => (s.relateBoth d r e).2
  | .step scope worklist registry => (Analysis.step scope ⟨s, worklist, registry⟩).2.store

/-- The store after several changes. -/
def changeAll (s : Store) (cs : List Change) : Store := cs.foldl change s

/-- What is written when a method is found to override another: the modifiers of the other, if it
lies outside the project, and then the override both ways. -/
def overrideWrites (scope : Scope) (m overridden : Element) : List Write :=
  (if scope.project.owns overridden then []
    else [.declare overridden (scope.library.inferred overridden)]) ++
  [.relate m .overrides overridden, .relate overridden Relation.overrides.transpose m]

/-- What a change writes. A step of the analysis looks at the store to find out. -/
def Change.writes (s : Store) : Change → List Write
  | declare e m => [.declare e m]
  | relate d r e => [.relate d r e]
  | relateBoth d r e => [.relate d r e, .relate e r.transpose d]
  | step scope worklist _ =>
    match worklist.queue with
    | [] => []
    | m :: _ => (View.overridden ⟨scope, s⟩ m).toList.flatMap (overrideWrites scope m)

/-- What several changes write. -/
def written (s : Store) : List Change → List Write
  | [] => []
  | c :: cs => c.writes s ++ (s.change c).written cs

section Changes
variable {s : Store} {scope : Scope} {a : Analysis} {m e : Element} {es : List Element}
  {status : Status}

theorem store_override :
    (a.override scope m e).store = a.store.writeAll (overrideWrites scope m e) := by
  by_cases he : scope.project.owns e
  · simp only [Analysis.override, overrideWrites, he, if_true]
    rfl
  · simp only [Analysis.override, overrideWrites, he, Bool.false_eq_true, if_false]
    rfl

theorem store_foldl_override :
    (es.foldl (Analysis.override scope m) a).store
      = a.store.writeAll (es.flatMap (overrideWrites scope m)) := by
  induction es generalizing a with
  | nil => rfl
  | cons e es ih =>
    rw [List.foldl_cons, ih, store_override, List.flatMap_cons, writeAll_append]

theorem store_process :
    (a.process scope m).store = (a.store.writeAll
      ((a.overridden scope m).toList.flatMap (overrideWrites scope m))).withStatus .running := by
  rw [Analysis.process_eq, store_foldl_override, writeAll_withStatus]
  rfl

/-- **A change is what it writes**, apart from the status. -/
theorem change_eq (s : Store) (c : Change) :
    ∃ status, s.change c = (s.writeAll (c.writes s)).withStatus status := by
  cases c with
  | declare | relate | relateBoth => exact ⟨_, rfl⟩
  | step scope worklist registry =>
    rw [change, Analysis.step, Change.writes]
    cases worklist.queue with
    | nil => exact ⟨.complete, rfl⟩
    | cons m rest => exact ⟨.running, store_process⟩

/-- Several changes are what they write, apart from the status. -/
theorem changeAll_eq (s : Store) (cs : List Change) :
    ∃ status, s.changeAll cs = (s.writeAll (s.written cs)).withStatus status := by
  induction cs generalizing s with
  | nil => exact ⟨_, rfl⟩
  | cons c cs ih =>
    obtain ⟨status, hc⟩ := s.change_eq c
    obtain ⟨status', hcs⟩ := ih (s.change c)
    have hwrites : (s.change c).writeAll ((s.change c).written cs)
        = (s.writeAll (s.written (c :: cs))).withStatus status := by
      rw [written, writeAll_append, ← writeAll_withStatus, ← hc]
    refine ⟨status', ?_⟩
    rw [changeAll, List.foldl_cons, ← changeAll, hcs, hwrites]
    rfl

end Changes

/-! ## Counts -/

/-- The tuples are counted relation by relation. -/
theorem length_tuples (s : Store) : s.tuples.length = (Relation.all.map s.tuplesOf).sum := by
  simp only [tuples, List.length_flatMap, List.length_map, length_pairs]

/-- **The books are right.** What a store holds is what has been written into it, and the counts are
those of what it holds. -/
structure Balanced (s : Store) (ws : List Write) : Prop where
  /-- The tuples that are listed are the stored ones, once each. -/
  listed : s.tuples.Nodup ∧ ∀ d r e, (d, r, e) ∈ s.tuples ↔ e ∈ s.range d r
  /-- The count is the number of tuples. -/
  counted : s.tupleCount = s.tuples.length
  /-- The counts of all relations add up to it. -/
  totalled : s.tupleCount = (Relation.all.map s.tuplesOf).sum
  /-- The tuples are those that were written. -/
  stored : ∀ d r e, (d, r, e) ∈ s.tuples ↔ .relate d r e ∈ ws
  /-- What is found in a range is known. -/
  closed : ∀ d r e, e ∈ s.range d r → s.contains e = true
  /-- The known elements are those that were declared and those that stand in a tuple. -/
  known : ∀ x, s.contains x = true ↔
    (∃ m, .declare x m ∈ ws) ∨ ∃ t ∈ s.tuples, x = t.1 ∨ x = t.2.2
  /-- An element has the modifiers that it was last declared with, and none without. -/
  modifiers : ∀ x, s.modifiers x = (ws.filterMap (·.declared? x)).getLastD {}
  /-- A tuple is new if and only if it is not stored. -/
  new : ∀ d r e, (s.relate d r e).1 = true ↔ (d, r, e) ∉ s.tuples

theorem exists_names {ws : List Write} {x : Element} :
    (∃ w ∈ ws, w.Names x) ↔
      (∃ m, .declare x m ∈ ws) ∨ ∃ d r e, .relate d r e ∈ ws ∧ (x = d ∨ x = e) := by
  constructor
  · rintro ⟨w, hw, hx⟩
    cases w with
    | declare e m =>
      obtain rfl := hx
      exact .inl ⟨m, hw⟩
    | relate d r e => exact .inr ⟨d, r, e, hw, hx⟩
  · rintro (⟨m, hm⟩ | ⟨d, r, e, hw, hx⟩)
    · exact ⟨_, hm, rfl⟩
    · exact ⟨_, hw, hx⟩

theorem Balanced.withStatus {s : Store} {ws : List Write} (h : s.Balanced ws) (status : Status) :
    (s.withStatus status).Balanced ws where
  listed := h.listed
  counted := h.counted
  totalled := h.totalled
  stored := h.stored
  closed := h.closed
  known := h.known
  modifiers := h.modifiers
  new _ _ _ := relate_eq_true.trans (not_congr mem_tuples).symm

/-- What is written into a new store is what it holds. -/
theorem balanced_writeAll (ws : List Write) : (empty.writeAll ws).Balanced ws := by
  have htidy : (empty.writeAll ws).Tidy := tidy_empty.writeAll ws
  have hrange : ∀ d r e, e ∈ (empty.writeAll ws).range d r ↔ .relate d r e ∈ ws := by
    intro d r e
    rw [mem_range_writeAll]
    simp [empty, range, record]
  constructor
  · exact ⟨nodup_tuples _, fun d r e => mem_tuples⟩
  · exact htidy.counted
  · exact htidy.counted.trans (length_tuples _)
  · exact fun d r e => mem_tuples.trans (hrange d r e)
  · exact fun d r e he => contains_iff.mpr (known_of_mem_range he)
  · intro x
    have hunknown : empty.contains x = false := by simp [empty, contains]
    rw [contains_writeAll, exists_names, hunknown]
    simp only [Bool.false_eq_true, or_false, Prod.exists, mem_tuples, hrange]
  · intro x
    rw [modifiers_writeAll]
    simp [empty, modifiers, record]
  · exact fun d r e => relate_eq_true.trans (not_congr mem_tuples).symm

end Store

/-! ## Reports -/

namespace Session

variable {s : Session} {o : Operation}

/-- The relations that a report leaves out have no tuples. -/
theorem sum_relations_summary (s : Session) :
    (s.summary.relations.map (·.2)).sum = (Relation.all.map s.store.tuplesOf).sum := by
  have hfilter : ∀ rs : List Relation,
      (((rs.map fun r => (r, s.store.tuplesOf r)).filter (·.2 != 0)).map (·.2)).sum
        = (rs.map s.store.tuplesOf).sum := by
    intro rs
    induction rs with
    | nil => rfl
    | cons r rs ih =>
      rw [List.map_cons, List.map_cons, List.sum_cons, ← ih]
      by_cases hr : s.store.tuplesOf r = 0
      · simp [hr]
      · simp [hr]
  exact hfilter Relation.all

theorem tidy_perform (h : s.store.Tidy) : (s.perform o).store.Tidy := by
  cases o with
  | call c =>
    cases c with
    | intake i =>
      show (s.intake i).store.Tidy
      rw [store_intake]
      exact Store.tidy_foldl_enter h
    | analysis run =>
      refine run_induction ?_ (fun t status ht => ht.withStatus status) h
      intro a m ha
      rw [Store.store_process]
      exact (ha.writeAll _).withStatus _
  | relate d r e => exact h.relate d r e
  | relateBoth d r e => exact (h.relate d r e).relate e r.transpose d
  | ask q =>
    show (s.asked q).store.Tidy
    rw [store_asked]
    exact h

theorem tidy_performAll (h : s.store.Tidy) (ops : List Operation) :
    (s.performAll ops).store.Tidy :=
  List.foldlRecOn (motive := fun t : Session => t.store.Tidy) ops perform h
    fun _ ht _ _ => tidy_perform ht

/-- **The counts that a session reports add up**, whatever it has been asked to do. -/
theorem sum_relations_performAll (settings : Settings) (library : Library) (ops : List Operation) :
    (((create settings library).performAll ops).summary.relations.map (·.2)).sum
      = ((create settings library).performAll ops).summary.tuples := by
  have htidy : ((create settings library).performAll ops).store.Tidy :=
    tidy_performAll Store.tidy_empty ops
  rw [sum_relations_summary, ← Store.length_tuples, ← htidy.counted]
  rfl

end Session

/-! ## Whatever is done -/

namespace Store

/-- **The books are right whatever is done to a store.** What a new store holds after any changes is
what they have written, and its counts are those of what it holds. Each change to come is what it
writes, apart from the status; an element gets other modifiers only where it is declared. A session
with this store reports counts of the single relations that add up to the count of all tuples. -/
theorem balanced_changeAll (cs : List Change) :
    let s := empty.changeAll cs
    s.Balanced (empty.written cs) ∧
    (∀ c, ∃ status, s.change c = (s.writeAll (c.writes s)).withStatus status) ∧
    (∀ c x, (s.change c).modifiers x
      = ((c.writes s).filterMap (·.declared? x)).getLastD (s.modifiers x)) ∧
    ∀ session : Session, ({ session with store := s } : Session).summary.tuples = s.tupleCount ∧
      (({ session with store := s } : Session).summary.relations.map (·.2)).sum = s.tupleCount := by
  intro s
  have hbalanced : s.Balanced (empty.written cs) := by
    obtain ⟨status, h⟩ := empty.changeAll_eq cs
    rw [show s = _ from h]
    exact (balanced_writeAll _).withStatus status
  refine ⟨hbalanced, s.change_eq, fun c x => ?_, fun session => ⟨rfl, ?_⟩⟩
  · obtain ⟨status, h⟩ := s.change_eq c
    rw [h, modifiers_withStatus, modifiers_writeAll]
  · rw [Session.sum_relations_summary]
    exact hbalanced.totalled.symm

/-- A method of the project overrides one of a class outside the project, which becomes known when
the analysis takes the first. The override, like the call of a method by itself, makes two tuples.
To relate elements again changes nothing. -/
example :
    let base : Element := ⟨"lib.A", .type, by decide +kernel⟩
    let run : Element := ⟨"lib.A.run()", .method "lib.A" "run" [], by decide +kernel⟩
    let derived : Element := ⟨"p.B", .type, by decide +kernel⟩
    let method : Element := ⟨"p.B.run()", .method "p.B" "run" [], by decide +kernel⟩
    let library : Library :=
      .catalogue (.ofList [{ id := "lib.A", methods := [{ id := "lib.A.run()" }] }])
    let s := empty.changeAll
      [.relateBoth derived .extendsClass base, .relateBoth derived .declaresMethod method,
        .relateBoth method ⟨.calls, false⟩ method, .relate method ⟨.calls, false⟩ method,
        .step ⟨.ofList ["p"], library⟩ { queue := [method] } .empty]
    s.tupleCount = 8 ∧ s.elements = [base, derived, run, method] := by
  decide +kernel

end Store
end CodeAtlas
