import CodeAtlas.Element.Basic
import CodeAtlas.Modifiers
import Std.Data.ExtTreeMap

/-!
# The store of facts

The store knows elements, their modifiers and the tuples of the relations between them. Every
element that stands in a tuple is known. Tuples are counted as they come. Overrides are recorded by
hierarchy analysis alone, and until it has started they are not there to be asked for. Which
elements belong to the project is not known here.

## Main definitions

* `Store`, with `Store.declare`, `Store.relate` and `Store.relateBoth`.
* `Store.range`, `Store.modifiers`, `Store.elements`: what is recorded.
* `Store.range?`: the recorded range, once it may be asked for.
-/
namespace CodeAtlas

/-- How far hierarchy analysis has come. -/
inductive Status where
  | notRun
  | running
  | complete
  | cancelled
deriving DecidableEq

/-- Whether overrides may be asked for. -/
def Status.hasStarted : Status → Bool
  | notRun => false
  | running | complete | cancelled => true

/-- The written name of a status. -/
def Status.name : Status → String
  | notRun => "not_run"
  | running => "running"
  | complete => "complete"
  | cancelled => "cancelled"

/-- What is recorded of one element. -/
structure Record where
  modifiers : Modifiers := {}
  ranges : Std.ExtTreeMap Relation ElementSet := ∅

/-- The elements that an element is related to. -/
def Record.range (c : Record) (r : Relation) : ElementSet := c.ranges[r]?.getD ∅

/-- Relate an element to one more. -/
def Record.insert (c : Record) (r : Relation) (e : Element) : Record :=
  { c with ranges := c.ranges.insert r ((c.range r).insert e) }

@[simp] theorem Record.range_default (r : Relation) : ({} : Record).range r = ∅ := by
  simp [Record.range]

theorem Record.mem_range_insert {c : Record} {r q : Relation} {e x : Element} :
    x ∈ (c.insert r e).range q ↔ (q = r ∧ x = e) ∨ x ∈ c.range q := by
  by_cases h : r = q
  · subst h
    simp [Record.insert, Record.range, Std.LawfulEqCmp.compare_eq_iff_eq, eq_comm (a := x)]
  · simp [Record.insert, Record.range, Std.ExtTreeMap.getElem?_insert, h, Ne.symm h]

/-- The facts of a program. -/
structure Store where
  records : Std.ExtTreeMap Element Record := ∅
  tupleCount : Nat := 0
  status : Status := .notRun
  /-- What an element is related to is known. -/
  closed : ∀ (d : Element) (c : Record) (r : Relation) (e : Element),
    records[d]? = some c → e ∈ c.range r → e ∈ records := by simp

namespace Store

/-- A store without facts. -/
def empty : Store := {}

/-! ## What is recorded -/

/-- Whether an element is known. -/
def contains (s : Store) (e : Element) : Bool := s.records.contains e

/-- The record of an element; of an unknown one nothing is recorded. -/
def record (s : Store) (e : Element) : Record := s.records[e]?.getD {}

/-- The recorded modifiers of an element; none for an unknown one. -/
def modifiers (s : Store) (e : Element) : Modifiers := (s.record e).modifiers

/-- The elements that an element is recorded to be related to. -/
def range (s : Store) (d : Element) (r : Relation) : ElementSet := (s.record d).range r

/-- All known elements in their order. -/
def elements (s : Store) : List Element := s.records.keys

/-- The number of known elements. -/
def size (s : Store) : Nat := s.records.size

/-- The number of tuples of a relation. -/
def tuplesOf (s : Store) (r : Relation) : Nat :=
  s.records.foldr (fun _ c n => (c.range r).size + n) 0

/-- Whether a relation may be asked for: the computed ones only after hierarchy analysis has
started. -/
def answers (s : Store) (r : Relation) : Bool := !r.isComputed || s.status.hasStarted

/-- The recorded range of an element, or the fault that it may not be asked for. -/
def range? (s : Store) (d : Element) (r : Relation) : Except Fault ElementSet :=
  if s.answers r then .ok (s.range d r) else .error (.analysisNotRun r)

/-- Whether an element is a method that counts as abstract. -/
def isAbstractMethod (s : Store) (e : Element) : Bool :=
  e.isMethod && (s.modifiers e).isMarkedAbstract

theorem known_of_mem_range {s : Store} {d e : Element} {r : Relation} (h : e ∈ s.range d r) :
    e ∈ s.records := by
  cases hc : s.records[d]? with
  | none => simp [range, record, hc] at h
  | some c => exact s.closed d c r e hc (by simpa [range, record, hc] using h)

/-! ## Recording -/

/-- Make an element known. -/
def register (s : Store) (e : Element) : Store :=
  { s with
    records := s.records.insertIfNew e {}
    closed := by
      intro d c r x hd hx
      rw [Std.ExtTreeMap.getElem?_insertIfNew] at hd
      rw [Std.ExtTreeMap.mem_insertIfNew]
      split at hd
      · cases hd; simp at hx
      · exact .inr (s.closed d c r x hd hx) }

/-- Make an element known with the given modifiers, in place of those it had. -/
def declare (s : Store) (e : Element) (m : Modifiers) : Store :=
  { s with
    records := s.records.insert e { s.record e with modifiers := m }
    closed := by
      intro d c r x hd hx
      rw [Std.ExtTreeMap.getElem?_insert] at hd
      rw [Std.ExtTreeMap.mem_insert]
      split at hd
      · cases hd; exact .inr (known_of_mem_range (d := e) (r := r) hx)
      · exact .inr (s.closed d c r x hd hx) }

/-- Record that a known element is related to a known one that it was not related to before. -/
def insert (s : Store) (d : Element) (r : Relation) (e : Element) (h : e ∈ s.records) : Store :=
  { s with
    records := s.records.insert d ((s.record d).insert r e)
    tupleCount := s.tupleCount + 1
    closed := by
      intro a c q x ha hx
      rw [Std.ExtTreeMap.getElem?_insert] at ha
      rw [Std.ExtTreeMap.mem_insert]
      split at ha
      · cases ha
        rcases Record.mem_range_insert.1 hx with ⟨-, rfl⟩ | hx
        · exact .inr h
        · exact .inr (known_of_mem_range (d := d) (r := q) hx)
      · exact .inr (s.closed a c q x ha hx) }

theorem known_register {s : Store} {e x : Element} :
    x ∈ (s.register e).records ↔ x = e ∨ x ∈ s.records := by
  simp [register, Std.ExtTreeMap.mem_insertIfNew, Std.LawfulEqCmp.compare_eq_iff_eq,
    eq_comm (a := x)]

/-- Record that two elements are related, and tell whether that is new. Both become known. -/
def relate (s : Store) (d : Element) (r : Relation) (e : Element) : Bool × Store :=
  let t := (s.register e).register d
  if e ∈ t.range d r then (false, t)
  else (true, t.insert d r e (by simp [t, known_register]))

/-- Record a relation and its transpose, and tell whether one of them is new. -/
def relateBoth (s : Store) (d : Element) (r : Relation) (e : Element) : Bool × Store :=
  let (forward, s) := s.relate d r e
  let (backward, s) := s.relate e r.transpose d
  (forward || backward, s)

/-- Note how far hierarchy analysis has come. -/
def withStatus (s : Store) (status : Status) : Store := { s with status }

/-! ## What recording changes -/

theorem contains_iff {s : Store} {e : Element} : s.contains e ↔ e ∈ s.records := Iff.rfl

theorem mem_elements {s : Store} {e : Element} : e ∈ s.elements ↔ s.contains e := by
  simp [elements, contains]

@[simp] theorem record_register (s : Store) (e x : Element) :
    (s.register e).record x = s.record x := by
  simp only [record, register, Std.ExtTreeMap.getElem?_insertIfNew]
  split
  next h =>
    obtain rfl := Std.LawfulEqCmp.eq_of_compare h.1
    simp [Std.ExtTreeMap.getElem?_eq_none h.2]
  next => rfl

@[simp] theorem range_register (s : Store) (e x : Element) (r : Relation) :
    (s.register e).range x r = s.range x r := by simp [range]

@[simp] theorem modifiers_register (s : Store) (e x : Element) :
    (s.register e).modifiers x = s.modifiers x := by simp [modifiers]

@[simp] theorem contains_register (s : Store) (e x : Element) :
    (s.register e).contains x = (decide (e = x) || s.contains x) := by
  simp only [register, contains, Std.ExtTreeMap.contains_insertIfNew]
  congr 1
  by_cases h : e = x <;> simp [h, Std.LawfulEqCmp.compare_eq_iff_eq]

theorem record_declare (s : Store) (e x : Element) (m : Modifiers) :
    (s.declare e m).record x = if e = x then { s.record e with modifiers := m } else s.record x := by
  simp only [record, declare, Std.ExtTreeMap.getElem?_insert,
    Std.LawfulEqCmp.compare_eq_iff_eq]
  split <;> simp_all

@[simp] theorem range_declare (s : Store) (e x : Element) (m : Modifiers) (r : Relation) :
    (s.declare e m).range x r = s.range x r := by
  simp only [range, record_declare]
  split <;> simp_all [Record.range]

theorem modifiers_declare (s : Store) (e x : Element) (m : Modifiers) :
    (s.declare e m).modifiers x = if e = x then m else s.modifiers x := by
  simp only [modifiers, record_declare]
  split <;> rfl

end Store
end CodeAtlas
