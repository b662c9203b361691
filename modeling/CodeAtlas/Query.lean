import CodeAtlas.Response

/-!
# Queries

The questions that can be asked of a fact base in text form, and their responses. Keys, categories
and relations are given by their written forms; what is wrong with them is found in the order in
which they are given, and before the question itself is looked at. A response shows elements and not
their instances, so it is computed from what is known, and what asking would leave in the registry is
not followed.

## Main definitions

* `Query`: the questions.
* `Session.answer`: their responses.
-/
namespace CodeAtlas

/-- A question in text form. -/
inductive Query where
  | stats
  /-- The known elements, of one category or of all. -/
  | elements (category : Option String) (inProject : Bool)
  /-- The elements that an element is related to. -/
  | range (element relation : String) (inProject : Bool)
  /-- The methods that a method overrides, by the id of the method. -/
  | overrides (method : String)
  | modifiers (element : String)
deriving DecidableEq

namespace Session

/-- An element in a response. -/
def entry (s : Session) (e : Element) : Entry := ⟨e, s.owns e⟩

/-- The relations that have tuples, with the number of these. -/
def tupleCounts (s : Session) : List (Relation × Nat) :=
  (Relation.all.map fun r => (r, s.store.tuplesOf r)).filter fun (_, n) => n != 0

/-- The state of the fact base in numbers. -/
def summary (s : Session) : Summary where
  snapshot := s.snapshot
  elements := s.store.size
  tuples := s.store.tupleCount
  relations := s.tupleCounts
  packages := s.project.toList
  tally := s.tally
  status := s.store.status
  report := s.report

/-- The known elements in their order, of one category or of all. -/
def listing (s : Session) (category : Option Category) (inProject : Bool) : List Entry :=
  (s.store.elements.filter fun e =>
    category.all (e.category = ·) && (!inProject || s.owns e)).map s.entry

/-- The element of a key in text form. -/
def parseElement (text : String) : Except Fault Element := Key.read text >>= Element.read

/-- The methods that a method overrides: as recorded, or found out now where hierarchy analysis does
not take place. -/
def overrides? (s : Session) (m : Element) : Except Fault ElementSet :=
  if s.settings.analysis then s.range? m .overrides else .ok (s.view.overridden m)

/-- The response to a question. -/
def answer (s : Session) : Query → Except Fault Response
  | .stats => .ok (.summary s.summary)
  | .elements category inProject => do
    let category ← category.mapM Category.read
    return .elements s.snapshot (s.listing category inProject)
  | .range element relation inProject => do
    let d ← parseElement element
    let r ← Relation.read relation
    let range ← if inProject then s.projectRange? d r else s.range? d r
    return .range s.snapshot (s.entry d) r (range.toList.map s.entry)
  | .overrides method => do
    let m ← Element.read ⟨.method, method⟩
    let range ← s.overrides? m
    return .range s.snapshot (s.entry m) .overrides (range.toList.map s.entry)
  | .modifiers element => do
    let e ← parseElement element
    return .modifiers (s.entry e) (s.store.modifiers e) (s.store.isAbstractMethod e)

end Session
end CodeAtlas
