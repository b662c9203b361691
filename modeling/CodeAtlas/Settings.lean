import CodeAtlas.Fault
import CodeAtlas.Json.Value
import CodeAtlas.Toml

/-!
# Settings

What a fact base is built with: whether hierarchy analysis takes place, which packages belong to the
project from the start, where the catalogue of outside declarations is, and whether the first unit
that is not accepted ends the work. Settings are written as a flat TOML document in which everything
may be left out. The catalogue is only named here.

## Main definitions

* `Settings`, with `Settings.read` and `Settings.json`.
-/
namespace CodeAtlas

/-- What a fact base is built with. -/
structure Settings where
  /-- Hierarchy analysis takes place. -/
  analysis : Bool := true
  /-- Packages that are registered before any unit is taken in. -/
  packages : List String := []
  /-- The path of the catalogue. -/
  library : Option String := none
  /-- The first unit that is not accepted ends the work. -/
  failFast : Bool := true
deriving DecidableEq

namespace Settings

/-- The settings with one assignment made, if there is such a setting and the value fits it. -/
def assign (s : Settings) : String × Toml.Value → Option Settings
  | ("cha", .flag b) => some { s with analysis := b }
  | ("packages", .texts names) => some { s with packages := names }
  | ("library", .text path) => some { s with library := some path }
  | ("fail_fast", .flag b) => some { s with failFast := b }
  | _ => none

/-- The settings that a document assigns, if it is well formed. -/
def read? (text : String) : Option Settings := (Toml.read text).bind (·.foldlM assign {})

/-- The settings that a document assigns, or the fault that it is malformed. -/
def read (text : String) : Except Fault Settings :=
  match read? text with
  | some s => .ok s
  | none => .error (.settings .malformed)

/-- Settings as an object. No packages and no catalogue are left out. -/
def json (s : Settings) : Json :=
  let packages := if s.packages.isEmpty then [] else [("packages", .array (s.packages.map .text))]
  .object <| [("cha", .bool s.analysis)] ++ packages ++
    s.library.toList.map (fun path => ("library", .text path)) ++
    [("fail_fast", .bool s.failFast)]

end Settings
end CodeAtlas
