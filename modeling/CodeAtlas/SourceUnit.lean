import CodeAtlas.Key
import CodeAtlas.Modifiers

/-!
# Source units

A unit holds the facts that were extracted from one source file: elements with their modifiers, and
relations between elements. It is written as a JSON object. Keys in a unit are as they were written;
whether the unit is acceptable is decided when it is taken into a session.

## Main definitions

* `SourceUnit`, with `ElementFact` and `RelationFact`.
* `SourceUnit.json`: its canonical form.
* `SourceUnit.read`: a unit from its text.
-/
namespace CodeAtlas

open Json (Decode Fields Problem)

/-- An element with its modifiers. -/
structure ElementFact where
  category : Category
  id : String
  modifiers : Modifiers := {}
deriving DecidableEq

/-- An element that is related to another. -/
structure RelationFact where
  domain : Key
  relation : Relation
  range : Key
  /-- Whether the transpose is a fact as well. -/
  transpose : Bool := true
deriving DecidableEq

/-- The facts of one source file. -/
structure SourceUnit where
  path : String
  package : Option String := none
  elements : List ElementFact := []
  relations : List RelationFact := []
deriving DecidableEq

/-! ## Writing -/

/-- A key as an object. -/
def Key.json (k : Key) : Json :=
  .object [("category", .text k.category.name), ("id", .text k.id)]

/-- An element fact as an object. -/
def ElementFact.json (f : ElementFact) : Json :=
  .object [("category", .text f.category.name), ("id", .text f.id),
    ("modifiers", f.modifiers.json)]

/-- A relation fact as an object. -/
def RelationFact.json (f : RelationFact) : Json :=
  .object [("domain", f.domain.json), ("relation", .text f.relation.name),
    ("range", f.range.json), ("transpose", .bool f.transpose)]

/-- A unit as an object, in which only the package may be missing. -/
def SourceUnit.json (u : SourceUnit) : Json :=
  .object <| [("path", .text u.path)] ++ u.package.toList.map (fun p => ("package", .text p)) ++
    [("elements", .array (u.elements.map ElementFact.json)),
      ("relations", .array (u.relations.map RelationFact.json))]

/-- The canonical text of a unit. -/
def SourceUnit.canonical (u : SourceUnit) : String := u.json.compact

/-! ## Reading -/

/-- A category by its name. -/
def Category.decode : Decode Category := Decode.variant (all.map fun c => (c.name, c))

/-- A relation by its name. -/
def Relation.decode : Decode Relation := Decode.variant (all.map fun r => (r.name, r))

/-- A key. -/
def Key.decode : Decode Key := fun r => do
  let (category, id, ()) ← Decode.record "struct ElementKey"
    (.required "category" Category.decode <| .required "id" Decode.text .nil) r
  return { category, id }

/-- An element fact. -/
def ElementFact.decode : Decode ElementFact := fun r => do
  let (category, id, modifiers, ()) ← Decode.record "struct ElementFact"
    (.required "category" Category.decode <| .required "id" Decode.text <|
      .optional "modifiers" {} Modifiers.decode .nil) r
  return { category, id, modifiers }

/-- A relation fact. -/
def RelationFact.decode : Decode RelationFact := fun r => do
  let (domain, relation, range, transpose, ()) ← Decode.record "struct RelationFact"
    (.required "domain" Key.decode <| .required "relation" Relation.decode <|
      .required "range" Key.decode <| .optional "transpose" true Decode.flag .nil) r
  return { domain, relation, range, transpose }

/-- A unit. -/
def SourceUnit.decode : Decode SourceUnit := fun r => do
  let (path, package, elements, relations, ()) ← Decode.record "struct UnitFacts"
    (.required "path" Decode.text <| .optional "package" none Decode.textOrNull <|
      .optional "elements" [] (Decode.list ElementFact.decode) <|
      .optional "relations" [] (Decode.list RelationFact.decode) .nil) r
  return { path, package, elements, relations }

/-- A unit from its text, or the fault that the text of this origin is none. -/
def SourceUnit.read (origin text : String) : Except Fault SourceUnit :=
  match decode.run text with
  | .ok u => .ok u
  | .error problem => .error (.extraction origin (.document problem))

end CodeAtlas
