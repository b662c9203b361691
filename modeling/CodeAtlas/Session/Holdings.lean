import CodeAtlas.Session.Intake

/-!
# The instances that a session keeps

The store says which elements are recorded and where. In each of these places an instance of the
element is kept, namely the first one that came there: whatever comes later to a place that is taken
is dropped. The queue of hierarchy analysis holds the instances of records. What an analysis finds
is either the instance of a recorded tuple or one that the registry gave, and it is this instance
that the analysis records. Here it is followed which instance is where; what is recorded does not
depend on it.

## Main definitions

* `Place` and `Holdings`: where instances are kept, and which.
* `Holdings.relate`, `Holdings.record`: the instances of facts.
* `Holdings.resolve`, `Holdings.process`, `Holdings.run`: the instances that an analysis records.
* `Holdings.ingest`, `Holdings.populate`, `Holdings.declare`, `Holdings.analyze`: what is kept when
  a session does these.
-/
namespace CodeAtlas

/-- Where an instance is kept: as the key of a record, or in the range of a relation. -/
inductive Place where
  | record (e : Element)
  | member (d : Element) (r : Relation) (e : Element)
deriving DecidableEq

/-- The element of which an instance is kept there. -/
def Place.element : Place → Element
  | record e => e
  | member _ _ e => e

/-- The instances that are kept. -/
structure Holdings where
  kept? : Place → Option Interned := fun _ => none
  /-- The instances that wait for hierarchy analysis. -/
  queue : List Interned := []

namespace Holdings

variable {σ : Type}

/-! ## Facts -/

/-- Keep an instance in a place, unless one is kept there. -/
def keep (h : Holdings) (p : Place) (i : Interned) : Holdings :=
  match h.kept? p with
  | some _ => h
  | none => { h with kept? := fun q => if q = p then some i else h.kept? q }

/-- Keep an instance as the key of its record. -/
def register (h : Holdings) (i : Interned) : Holdings := h.keep (.record i.element) i

/-- Keep the instances of a tuple. -/
def relate (h : Holdings) (d : Interned) (r : Relation) (e : Interned) : Holdings :=
  ((h.register e).register d).keep (.member d.element r e.element) e

/-- Keep the instances of a tuple and of its transpose. -/
def relateBoth (h : Holdings) (d : Interned) (r : Relation) (e : Interned) : Holdings :=
  (h.relate d r e).relate e r.transpose d

/-- Keep the instances of a prepared relation. -/
def recordRelation (h : Holdings) (f : PreparedRelation) : Holdings :=
  if f.transpose then h.relateBoth f.domain f.relation f.range
  else h.relate f.domain f.relation f.range

/-- Keep the instances of a prepared unit, elements first. -/
def record (h : Holdings) (p : PreparedUnit) : Holdings :=
  p.relations.foldl recordRelation (p.elements.foldl (fun h f => h.register f.element) h)

/-! ## Analysis -/

/-- The instance that is come upon. -/
def resolve (h : Holdings) : Finding → Option Interned
  | .recorded d r e => h.kept? (.member d r e)
  | .interned i => some i

/-- Keep the instances of an override, that of a method outside the project first as a record. -/
def override (project : Packages) (d : Interned) (h : Holdings) (e : Interned) : Holdings :=
  let h := if project.owns e.element then h else h.register e
  h.relateBoth d .overrides e

/-- Keep the instances of what an element is found to override. All of them are found before any is
kept. -/
def process (scope : Scope) (d : Interned) (a : Analysis) (h : Holdings) : Holdings :=
  let found := (((a.view scope).overriddenIn d.element).run a.registry).1
  (found.filterMap h.resolve).foldl (override scope.project d) h

/-- Take the instances of a queue until cancellation is asked for. -/
def drain (scope : Scope) (sink : Sink σ) :
    List Interned → Listener σ → Analysis → Holdings → Holdings
  | queue, l, a, h =>
    if l.cancelled then { h with queue }
    else
      match queue with
      | [] => { h with queue := [] }
      | d :: rest =>
        let a := a.withQueue (rest.map Interned.element)
        drain scope sink rest (l.tell sink (.worked 1)) (a.process scope d.element)
          (h.process scope d a)

/-- Take all instances that wait until cancellation is asked for. -/
def run (scope : Scope) (sink : Sink σ) (l : Listener σ) (a : Analysis) (h : Holdings) :
    Holdings :=
  h.drain scope sink h.queue (l.tell sink (.begun .analysis h.queue.length))
    ((a.withCancelled false).withStatus .running)

/-- Put the instances of the records that have not been seen at the end of the queue. -/
def enqueue (w : Worklist) (s : Store) (h : Holdings) : Holdings :=
  { h with queue := h.queue ++ (w.unseen s).filterMap fun e => h.kept? (.record e) }

/-! ## Sessions -/

/-- What is kept when a session takes in a unit. -/
def ingest (s : Session) (u : SourceUnit) (h : Holdings) : Holdings :=
  match (s.consult u.prepare.run).1 with
  | .ok p => h.record p
  | .error _ => h

/-- What is kept when a session takes in an item of a list. -/
def accept (s : Session) (item : Except Fault SourceUnit) (h : Holdings) : Holdings :=
  match item with
  | .ok u => h.ingest s u
  | .error _ => h

/-- What is kept when a session takes in items from a position on. -/
def acceptAll (sink : Sink σ) :
    Nat → List (Except Fault SourceUnit) → Listener σ → Session → Holdings → Holdings
  | _, [], _, _, h => h
  | position, item :: rest, l, s, h =>
    let h := h.accept s item
    match s.accept position item with
    | (.ok (), s) => acceptAll sink (position + 1) rest (l.tell sink (.worked 1)) s h
    | (.error _, s) =>
      if s.settings.failFast then h
      else acceptAll sink (position + 1) rest (l.tell sink (.worked 1)) s.skip h

/-- What is kept when a session is populated. -/
def populate (sink : Sink σ) (items : List (Except Fault SourceUnit)) (l : Listener σ)
    (s : Session) (h : Holdings) : Holdings :=
  acceptAll sink 0 items (l.tell sink (.begun .population items.length)) s h

/-- What is kept when a session records an element. -/
def declare (s : Session) (k : Key) (h : Holdings) : Holdings :=
  match (s.lookup k).1 with
  | .ok i => h.register i
  | .error _ => h

/-- What is kept when a session runs hierarchy analysis. -/
def analyze (sink : Sink σ) (l : Listener σ) (s : Session) (h : Holdings) : Holdings :=
  if s.settings.analysis then
    (h.enqueue (s.worklist.getD {}) s.store).run s.scope sink l ⟨s.store, s.pending, s.registry⟩
  else h

end Holdings
end CodeAtlas
