import CodeAtlas.Session.Basic

/-!
# Taking units into a session

A unit is prepared as a whole before any of its facts are recorded: the registry is asked for the
instances of its elements first, then for those of its relations, each in their order, and the first
thing that is wrong is reported. A unit that is not accepted leaves nothing behind, except that
elements met before the first flaw have instances.

## Main definitions

* `SourceUnit.prepare`: the facts of a unit with the instances that they are about.
* `PreparedUnit.record`: record them.
* `Session.ingest`: take in one unit.
* `Session.populate`: take in units one after the other, telling a listener.
* `Session.analyze`: run hierarchy analysis, or go on with it.
* `Session.build`: all of these.
-/
namespace CodeAtlas

/-! ## Preparing -/

/-- An instance with its modifiers. -/
structure PreparedElement where
  element : Interned
  modifiers : Modifiers

/-- An instance that is related to another. -/
structure PreparedRelation where
  domain : Interned
  relation : Relation
  range : Interned
  /-- Whether the transpose is a fact as well. -/
  transpose : Bool

/-- The facts of a unit that nothing is wrong with. -/
structure PreparedUnit where
  elements : List PreparedElement
  relations : List PreparedRelation

/-- The key of an element fact. -/
def ElementFact.key (f : ElementFact) : Key := ⟨f.category, f.id⟩

/-- Ask for the instance of an element fact. -/
def ElementFact.prepare (f : ElementFact) : ExceptT Fault Asking PreparedElement := do
  let element ← ExceptT.mk (Asking.get f.key)
  return { element, modifiers := f.modifiers }

/-- Ask for the two instances of a relation fact, unless the relation is a computed one or does not
relate the two categories. -/
def RelationFact.prepare (path : String) (f : RelationFact) :
    ExceptT Fault Asking PreparedRelation :=
  if f.relation.isComputed then throw (.extraction path (.computedRelation f.relation))
  else if f.relation.accepts f.domain.category f.range.category then do
    let domain ← ExceptT.mk (Asking.get f.domain)
    let range ← ExceptT.mk (Asking.get f.range)
    return { domain, relation := f.relation, range, transpose := f.transpose }
  else
    throw (.extraction path
      (.unrelatedCategories f.relation f.domain.category f.range.category))

/-- Ask for the instances of all facts of a unit. -/
def SourceUnit.prepare (u : SourceUnit) : ExceptT Fault Asking PreparedUnit := do
  let elements ← u.elements.mapM ElementFact.prepare
  let relations ← u.relations.mapM (RelationFact.prepare u.path)
  return { elements, relations }

/-! ## Recording -/

/-- Record a prepared element. -/
def PreparedElement.record (s : Store) (f : PreparedElement) : Store :=
  s.declare f.element.element f.modifiers

/-- Record a prepared relation. -/
def PreparedRelation.record (s : Store) (f : PreparedRelation) : Store :=
  if f.transpose then (s.relateBoth f.domain.element f.relation f.range.element).2
  else (s.relate f.domain.element f.relation f.range.element).2

/-- Record all facts of a prepared unit, elements first. -/
def PreparedUnit.record (s : Store) (p : PreparedUnit) : Store :=
  p.relations.foldl PreparedRelation.record (p.elements.foldl PreparedElement.record s)

/-- Register the package of a unit, if it has one. -/
def Packages.take (p : Packages) (u : SourceUnit) : Packages :=
  match u.package with
  | some name => (p.register name).2
  | none => p

namespace Session

variable {σ : Type}

/-- Take in a unit. Its identity is not noted, and it is not counted. -/
def ingest (s : Session) (u : SourceUnit) : Except Fault Unit × Session :=
  match s.consult u.prepare.run with
  | (.error fault, s) => (.error (fault.ofUnit u.path), s)
  | (.ok p, s) => (.ok (), { s with project := s.project.take u, store := p.record s.store })

/-- Take in the unit at a position of a list, note its identity and count it. -/
def accept (s : Session) (position : Nat) (item : Except Fault SourceUnit) :
    Except Fault Unit × Session :=
  match item with
  | .error fault => (.error (fault.ofUnit ("unit #" ++ toString position)), s)
  | .ok u =>
    match s.ingest u with
    | (.error fault, s) => (.error fault, s)
    | (.ok (), s) =>
      (.ok (),
        { s with
          fingerprint := s.fingerprint.update u
          tally.ingested := s.tally.ingested + 1 })

/-- Count a unit that is passed over. -/
def skip (s : Session) : Session := { s with tally.skipped := s.tally.skipped + 1 }

/-- Take in units from a position on, telling the listener of each. A unit that is not accepted is
passed over, or ends the work if the settings say so. -/
def acceptAll (sink : Sink σ) : Nat → List (Except Fault SourceUnit) → Listener σ → Session →
    Except Fault Unit × Listener σ × Session
  | _, [], l, s => (.ok (), l, s)
  | position, item :: rest, l, s =>
    match s.accept position item with
    | (.ok (), s) => acceptAll sink (position + 1) rest (l.tell sink (.worked 1)) s
    | (.error fault, s) =>
      if s.settings.failFast then (.error fault, l, s)
      else acceptAll sink (position + 1) rest (l.tell sink (.worked 1)) s.skip

/-- Take in units one after the other. -/
def populate (sink : Sink σ) (items : List (Except Fault SourceUnit)) (l : Listener σ)
    (s : Session) : Except Fault Tally × Listener σ × Session :=
  match acceptAll sink 0 items (l.tell sink (.begun .population items.length)) s with
  | (.ok (), l, s) => (.ok s.tally, l.tell sink .done, s)
  | (.error fault, l, s) => (.error fault, l, s)

/-! ## Analysis -/

/-- The elements that wait for hierarchy analysis when it is run: all that are known at the first
run, and what has become known since at later ones. -/
def pending (s : Session) : Worklist :=
  match s.worklist with
  | some w => w.enqueue s.store
  | none => .seed s.store

/-- Run hierarchy analysis until no element waits or cancellation is asked for. -/
def analyze (sink : Sink σ) (l : Listener σ) (s : Session) :
    Except Fault Report × Listener σ × Session :=
  if s.settings.analysis then
    let (l, a) := Analysis.run s.scope sink l ⟨s.store, s.pending, s.registry⟩
    (.ok a.worklist.report, l,
      { s with store := a.store, worklist := some a.worklist, registry := a.registry })
  else (.error (.unsupportedRelation .overrides analysisDisabled), l, s)

/-- Build a session from units, with hierarchy analysis if the settings ask for it. The listener
cannot have the work cancelled. -/
def build (settings : Settings) (library : Library) (sink : Sink σ)
    (items : List (Except Fault SourceUnit)) (state : σ) : Except Fault Session × σ :=
  let sink := sink.steadfast
  match (create settings library).populate sink items ⟨state, false⟩ with
  | (.error fault, l, _) => (.error fault, l.state)
  | (.ok _, l, s) =>
    if settings.analysis then
      let (_, l, s) := s.analyze sink l
      (.ok s, l.state)
    else (.ok s, l.state)

end Session
end CodeAtlas
