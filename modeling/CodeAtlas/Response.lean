import CodeAtlas.Session.Basic

/-!
# Responses

What commands print: one JSON object that begins with its status and the version of its form. Lists
of elements are in element order and come with their length. Every element is marked by whether it
belongs to the project.

## Main definitions

* `Entry`: an element in a response.
* `Response`: the successful responses, with `Response.json`.
* `Fault.json`: the response to a request that fails.
* `Json.page`: the printed form of either.
-/
namespace CodeAtlas

/-- An element in a response. -/
structure Entry where
  element : Element
  inProject : Bool
deriving DecidableEq

/-- The state of a fact base in numbers. -/
structure Summary where
  snapshot : String
  elements : Nat
  tuples : Nat
  /-- The relations that have tuples, with the number of these. -/
  relations : List (Relation × Nat)
  packages : List String
  tally : Tally
  status : Status
  report : Option Report

/-- A successful response. -/
inductive Response where
  | summary (s : Summary)
  | elements (snapshot : String) (entries : List Entry)
  | range (snapshot : String) (domain : Entry) (relation : Relation) (range : List Entry)
  | modifiers (entry : Entry) (modifiers : Modifiers) (isAbstractMethod : Bool)

/-- An entry as an object. -/
def Entry.json (e : Entry) : Json :=
  .object [("category", .text e.element.category.name), ("id", .text e.element.id),
    ("in_project", .bool e.inProject)]

/-- The number of units as an object. -/
def Tally.json (t : Tally) : Json :=
  .object [("units_ingested", .nat t.ingested), ("units_skipped", .nat t.skipped)]

/-- The counts of an analysis as an object. -/
def Report.json (r : Report) : Json :=
  .object [("processed", .nat r.processed), ("overrides_added", .nat r.overridesAdded),
    ("synthesized", .nat r.synthesized), ("cancelled", .bool r.cancelled)]

/-- The members of a summary. The report is left out as long as there is none. -/
def Summary.members (s : Summary) : List (String × Json) :=
  [("snapshot_id", .text s.snapshot), ("elements", .nat s.elements), ("tuples", .nat s.tuples),
    ("relations", .array (s.relations.map fun (r, n) =>
      .object [("relation", .text r.name), ("tuples", .nat n)])),
    ("packages", .array (s.packages.map .text)), ("ingest", s.tally.json),
    ("cha_status", .text s.status.name)] ++
    s.report.toList.map fun r => ("cha", r.json)

/-- The length of a list of entries, and the list under a name. -/
def Entry.members (name : String) (entries : List Entry) : List (String × Json) :=
  [("count", .nat entries.length), (name, .array (entries.map Entry.json))]

namespace Response

/-- The version of the form of all responses. -/
def version : String := "1"

/-- The members of a response after its status and version. -/
def members : Response → List (String × Json)
  | summary s => s.members
  | elements snapshot entries => ("snapshot_id", .text snapshot) :: Entry.members "elements" entries
  | range snapshot domain relation entries =>
    ("snapshot_id", .text snapshot) :: ("domain", domain.json) ::
      ("relation", .text relation.name) :: Entry.members "range" entries
  | modifiers entry flags isAbstractMethod =>
    [("element", entry.json), ("modifiers", flags.json),
      ("is_abstract_method", .bool isAbstractMethod)]

/-- A response as an object. -/
def json (r : Response) : Json :=
  .object (("status", .text "ok") :: ("schema_version", .text version) :: r.members)

end Response

/-- What a fault is about, if that has a name: a key, a relation or a unit. -/
def Fault.details? : Fault → Option (String × String)
  | invalidKey key _ => some ("key", key)
  | analysisNotRun r | unsupportedRelation r _ => some ("relation", r.name)
  | extraction unit _ => some ("unit", unit)
  | _ => none

/-- The response to a request that fails. -/
def Fault.json (f : Fault) : Json :=
  let details := f.details?.toList.map fun (name, subject) =>
    ("details", Json.object [(name, .text subject)])
  .object [("status", .text "error"), ("schema_version", .text Response.version),
    ("error", .object ([("code", .nat f.code), ("message", .text f.message)] ++ details))]

/-- The printed form of a response. -/
def Json.page (j : Json) : String := j.indented ++ "\n"

end CodeAtlas
