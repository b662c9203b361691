import CodeAtlas.Files.System
import CodeAtlas.Library.Document
import CodeAtlas.Session.Intake

/-!
# Opening a fact base

A fact base is opened from a folder of unit files, with settings that come from a file and from the
command line and with a catalogue of outside declarations. Settings are looked at first, then the
catalogue, the folder and the units; the first fault ends the work.

## Main definitions

* `Options`: what the command line says about a fact base.
* `Options.settings`: the settings to build it with.
* `unitFiles`, `readUnit`: the unit files of a folder, and the unit of a file.
* `Options.openSession`: the fact base.
-/
namespace CodeAtlas

/-- What the command line says about a fact base. -/
structure Options where
  /-- The folder of unit files. -/
  facts : String
  /-- The file of settings. -/
  config : Option String := none
  /-- The catalogue, in place of the one that the settings name. -/
  library : Option String := none
  /-- Packages besides those that the settings name. -/
  packages : List String := []
  /-- No hierarchy analysis takes place, whatever the settings say. -/
  noAnalysis : Bool := false
deriving DecidableEq

/-! ## Texts of files -/

/-- The path of a catalogue that is named in a file: a relative path starts from the directory of
that file. -/
def Location.besides (file path : String) : String :=
  (directory? file).elim path (join · path)

/-- The settings that a file assigns. -/
def Settings.ofFile (path text : String) : Except Fault Settings :=
  match read? text with
  | some s => .ok { s with library := s.library.map (Location.besides path) }
  | none => .error (.settings (.inFile path .malformed))

/-- The catalogue that a file lists. -/
def Catalogue.ofFile (path text : String) : Except Fault Catalogue :=
  (read text).mapError fun problem => .settings (.inFile path (.catalogue problem))

/-- The settings with those of the command line in place of some of them. -/
def Options.adjust (o : Options) (s : Settings) : Settings :=
  { s with
    analysis := s.analysis && !o.noAnalysis
    library := o.library.or s.library
    packages := s.packages ++ o.packages }

/-- Whether a file, given by the names on the way to it, is a unit file. -/
def isUnitFile (names : List String) : Bool :=
  names.getLast?.any (Location.hasExtension "json")

/-- The unit files among the files below a folder, name by name in the order of the names. -/
def unitPaths (folder : String) (files : List (List String)) : List String :=
  ((files.filter isUnitFile).mergeSort Location.precedes).map (·.foldl Location.join folder)

/-! ## Reading files -/

section

variable {m : Type → Type} [Monad m] (fs : FileSystem m)

/-- The text of a file, or the fault that it cannot be read. -/
def FileSystem.text (path : String) : ExceptT Fault m String :=
  ExceptT.mk ((·.mapError Fault.file) <$> fs.read path)

/-- The settings to build a fact base with. -/
def Options.settings (o : Options) : ExceptT Fault m Settings := do
  let s ← match o.config with
    | some path => do
      let text ← fs.text path
      ExceptT.mk (pure (Settings.ofFile path text))
    | none => pure {}
  return o.adjust s

/-- The catalogue at a path, or an empty one. -/
def readCatalogue : Option String → ExceptT Fault m Catalogue
  | some path => do
    let text ← fs.text path
    ExceptT.mk (pure (Catalogue.ofFile path text))
  | none => pure {}

/-- The unit files of a folder in the order in which they are read. -/
def unitFiles (folder : String) : ExceptT Fault m (List String) := do
  match ← fs.below folder with
  | some (.ok files) => return unitPaths folder files
  | some (.error flaw) => throw (.file flaw)
  | none => throw (.settings (.noFactsDirectory folder))

/-- The unit of a file. -/
def readUnit (path : String) : m (Except Fault SourceUnit) := do
  match ← fs.read path with
  | .ok text => return SourceUnit.read path text
  | .error flaw => return .error (.extraction path (.file flaw))

/-- The fact base that the command line describes. -/
def Options.openSession (o : Options) : ExceptT Fault m Session := do
  let settings ← o.settings fs
  let catalogue ← readCatalogue fs settings.library
  let files ← unitFiles fs o.facts
  let units ← ExceptT.lift (files.mapM (readUnit fs))
  ExceptT.mk (pure (Session.build settings (.catalogue catalogue) .silent units ()).1)

end

end CodeAtlas
