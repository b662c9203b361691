import CodeAtlas.Json.Problem
import CodeAtlas.Relation

/-!
# Faults

Everything that can go wrong in this library, by its cause. A fault has a wording for people and a
code for programs; the code is the exit status of a command that ends with the fault. Whoever
supplies units or declarations from outside may report causes of their own in their own words.

## Main definitions

* `Fault`: the causes, with `KeyFlaw`, `ConversionFlaw`, `UnitFlaw`, `SettingsFlaw` and
  `FileFlaw` for their details.
* `Fault.message`: the wording.
* `Fault.code`: the code.
-/
namespace CodeAtlas

/-- Why a text is not the key, id, category or relation that it should be. -/
inductive KeyFlaw where
  /-- A key without a colon. -/
  | noCategory
  | unknownCategory
  | unknownRelation
  | emptyId
  /-- An id that is not formed as its category asks. -/
  | malformedId (category : Category)
  | reported (reason : String)
deriving DecidableEq

/-- Why an element has no declaration, or a declaration no element. -/
inductive ConversionFlaw where
  /-- There are no declarations at all. -/
  | noDeclarations
  /-- The element is not declared in the catalogue. -/
  | undeclared
  /-- The declared key does not name an element. -/
  | invalidKey (key : String) (flaw : KeyFlaw)
  | reported (reason : String)
deriving DecidableEq

/-- Why a file cannot be read. -/
inductive FileFlaw where
  | notFound
  | isDirectory
  /-- A part of the path that is not its last is a file. -/
  | notDirectory
  /-- The path holds a NUL character. -/
  | nulInPath
  /-- A name of the path, or the path as a whole, is too long. -/
  | nameTooLong
  /-- The bytes are not UTF-8. -/
  | notText
  /-- A flaw of a folder that is met while files are looked for. -/
  | inFolder (path : String) (flaw : FileFlaw)
  | reported (reason : String)
deriving DecidableEq

/-- Why a unit is not accepted. -/
inductive UnitFlaw where
  /-- A relation that only hierarchy analysis may record. -/
  | computedRelation (relation : Relation)
  /-- A relation between elements of the wrong categories. -/
  | unrelatedCategories (relation : Relation) (domain range : Category)
  | invalidKey (key : String) (flaw : KeyFlaw)
  | document (problem : Json.Problem)
  | file (flaw : FileFlaw)
  | reported (reason : String)
deriving DecidableEq

/-- Why a fact base cannot be opened with the given settings. -/
inductive SettingsFlaw where
  /-- The settings are not written as settings. -/
  | malformed
  | noFactsDirectory (path : String)
  | catalogue (problem : Json.Problem)
  /-- A flaw of the file at a path. -/
  | inFile (path : String) (flaw : SettingsFlaw)
  | reported (reason : String)
deriving DecidableEq

/-- What can go wrong. -/
inductive Fault where
  | invalidKey (key : String) (flaw : KeyFlaw)
  | conversion (subject : String) (flaw : ConversionFlaw)
  /-- Overrides are asked for before hierarchy analysis has started. -/
  | analysisNotRun (relation : Relation)
  | unsupportedRelation (relation : Relation) (reason : String)
  /-- An edge that does not lead to the top of the path that it is put on. -/
  | disconnectedEdge (edge top : String)
  | emptyPath
  | extraction (unit : String) (flaw : UnitFlaw)
  | settings (flaw : SettingsFlaw)
  | file (flaw : FileFlaw)
deriving DecidableEq

/-- The wording of what is wrong with a key. -/
def KeyFlaw.message : KeyFlaw → String
  | noCategory => "expected CATEGORY:id"
  | unknownCategory =>
    "unrecognized category (expected one of " ++
      ", ".intercalate (Category.all.map Category.name) ++ ")"
  | unknownRelation => "unknown relation"
  | emptyId => "empty id"
  | malformedId .type => "not a dotted class name"
  | malformedId .method => "expected Class.name(params)"
  | malformedId .field => "expected Class.field"
  | reported reason => reason

/-- The wording of an invalid key. -/
def invalidKeyMessage (key : String) (flaw : KeyFlaw) : String :=
  "invalid element key '" ++ key ++ "': " ++ flaw.message

/-- The wording of why nothing corresponds to an element or a declaration. -/
def ConversionFlaw.message : ConversionFlaw → String
  | noDeclarations => "no host declarations available"
  | undeclared => "not declared in the library index"
  | invalidKey key flaw => invalidKeyMessage key flaw
  | reported reason => reason

/-- The wording of why a file cannot be read. -/
def FileFlaw.message : FileFlaw → String
  | notFound => "No such file or directory (os error 2)"
  | isDirectory => "Is a directory (os error 21)"
  | notDirectory => "Not a directory (os error 20)"
  | nulInPath => "file name contained an unexpected NUL byte"
  | nameTooLong => "File name too long (os error 36)"
  | notText => "stream did not contain valid UTF-8"
  | inFolder path flaw => "IO error for operation on " ++ path ++ ": " ++ flaw.message
  | reported reason => reason

/-- The wording of why a unit is not accepted. -/
def UnitFlaw.message : UnitFlaw → String
  | computedRelation r => r.name ++ " is computed by class hierarchy analysis"
  | unrelatedCategories r d e =>
    r.name ++ " does not relate " ++ d.name ++ " to " ++ e.name
  | invalidKey key flaw => invalidKeyMessage key flaw
  | document problem => problem.message
  | file flaw => flaw.message
  | reported reason => reason

/-- The wording of why settings cannot be used. -/
def SettingsFlaw.message : SettingsFlaw → String
  | malformed => "TOML parse error"
  | noFactsDirectory path => "facts directory not found: " ++ path
  | catalogue problem => "invalid library index: " ++ problem.message
  | inFile path flaw => path ++ ": " ++ flaw.message
  | reported reason => reason

/-- Why a fact base without hierarchy analysis does not know overrides. -/
def analysisDisabled : String := "class hierarchy analysis is disabled by configuration"

namespace Fault

/-- The wording of a fault. -/
def message : Fault → String
  | invalidKey key flaw => invalidKeyMessage key flaw
  | conversion subject flaw => "cannot convert '" ++ subject ++ "': " ++ flaw.message
  | analysisNotRun r =>
    "class hierarchy analysis has not run; " ++ r.name ++ " is unavailable"
  | unsupportedRelation r reason =>
    "relation " ++ r.name ++ " is not supported: " ++ reason
  | disconnectedEdge edge top =>
    "edge " ++ edge ++ " is not connectable to path top " ++ top
  | emptyPath => "path is empty"
  | extraction unit flaw => "extraction failed for " ++ unit ++ ": " ++ flaw.message
  | settings flaw => "configuration error: " ++ flaw.message
  | file flaw => "IO error: " ++ flaw.message

/-- The code of a fault: wrong arguments, failed conversions, unsupported queries, violated paths,
rejected units and failed file access. -/
def code : Fault → Nat
  | invalidKey _ _ | settings _ => 2
  | conversion _ _ => 3
  | analysisNotRun _ | unsupportedRelation _ _ => 4
  | disconnectedEdge _ _ | emptyPath => 5
  | extraction _ _ => 6
  | file _ => 10

/-- Whether a declaration or an element could not be found for the other. -/
def isConversion : Fault → Bool
  | conversion _ _ => true
  | _ => false

/-- The fault as a flaw of a unit; a fault of a unit keeps the unit that it names. -/
def ofUnit (unit : String) : Fault → Fault
  | extraction u flaw => extraction u flaw
  | invalidKey key flaw => extraction unit (.invalidKey key flaw)
  | fault => extraction unit (.reported fault.message)

/-- The fault as a reason why a declared key has no element. -/
def ofDeclaration (subject : String) : Fault → Fault
  | invalidKey key flaw => conversion subject (.invalidKey key flaw)
  | fault => conversion subject (.reported fault.message)

end Fault

/-- The category of a name, or the fault that there is none. -/
def Category.read (s : String) : Except Fault Category :=
  match read? s with
  | some c => .ok c
  | none => .error (.invalidKey s .unknownCategory)

/-- The relation of a name, or the fault that there is none. -/
def Relation.read (s : String) : Except Fault Relation :=
  match read? s with
  | some r => .ok r
  | none => .error (.invalidKey s .unknownRelation)

end CodeAtlas
