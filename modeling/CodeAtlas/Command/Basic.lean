import CodeAtlas.Command.Line
import CodeAtlas.Command.Opening
import CodeAtlas.Query

/-!
# The command

One run of the command opens a fact base, asks it one question and prints the response. What a run
prints and the status with which it ends are computed here for any file system; reading arguments
from the world and printing to it are not done here.

## Main definitions

* `Request`, with `Request.read`: what the arguments ask for.
* `Outcome`: what a run prints, and its exit status.
* `Request.perform`, `run`: the outcome of a request, and of a list of arguments.
-/
namespace CodeAtlas.Command

/-- What the arguments ask for. -/
inductive Request where
  | help
  | version
  | query (options : Options) (query : Query)
deriving DecidableEq

/-! ## Arguments -/

/-- Any value. -/
def anyValue : String → Bool := fun _ => true

/-- A value that can be a path. -/
def pathValue (value : String) : Bool := value ≠ ""

/-- The levels of detail of messages about the run. -/
def levels : List String := ["trace", "debug", "info", "warn", "error"]

/-- The level of detail of messages about the run, of which there are none: the option is understood
everywhere and changes nothing. -/
def levelFlag : Flag := { name := "log-level", value := some (· ∈ levels) }

/-- Only elements of the project. -/
def projectFlag : Flag := { name := "in-project" }

/-- The subcommands. -/
def subcommands : List String := ["stats", "elements", "range", "overrides", "modifiers"]

/-- What is understood before a subcommand. -/
def mainGrammar : Grammar where
  flags :=
    [{ name := "facts", value := some pathValue }, { name := "config", value := some pathValue },
      { name := "library", value := some pathValue },
      { name := "package", value := some anyValue, repeats := true }, { name := "no-cha" },
      levelFlag]
  subcommands := "help" :: subcommands
  hasVersion := true

/-- What is understood after the name of a subcommand. -/
def grammarOf (subcommand : String) : Grammar :=
  match subcommand with
  | "elements" =>
    { flags := [{ name := "category", value := some anyValue }, projectFlag, levelFlag] }
  | "range" => { flags := [projectFlag, levelFlag], operands := 2 }
  | "overrides" | "modifiers" => { flags := [levelFlag], operands := 1 }
  | _ => { flags := [levelFlag] }

/-- The question that a subcommand asks. -/
def readQuery (subcommand : String) (l : Line) : Option Query :=
  match subcommand, l.operands with
  | "stats", [] => some .stats
  | "elements", [] => some (.elements (l.value? "category") (l.has "in-project"))
  | "range", [element, relation] => some (.range element relation (l.has "in-project"))
  | "overrides", [method] => some (.overrides method)
  | "modifiers", [element] => some (.modifiers element)
  | _, _ => none

/-- What the options before a subcommand say about the fact base. -/
def readOptions (l : Line) : Option Options := do
  let facts ← l.value? "facts"
  return {
    facts
    config := l.value? "config"
    library := l.value? "library"
    packages := l.values "package"
    noAnalysis := l.has "no-cha" }

/-- What a list of arguments asks for, if it is understood. -/
def Request.read (arguments : List String) : Option Request := do
  match ← mainGrammar.scan arguments {} with
  | (_, .finished) => none
  | (_, .help) => some .help
  | (_, .version) => some .version
  | (_, .subcommand "help" topics) =>
    if topics.length ≤ 1 && topics.all (· ∈ mainGrammar.subcommands) then some .help else none
  | (outer, .subcommand name rest) =>
    match ← (grammarOf name).scan rest {} with
    | (_, .help) => some .help
    | (inner, .finished) => return .query (← readOptions outer) (← readQuery name inner)
    | _ => none

/-! ## Outcomes -/

/-- What a run prints, and its exit status. -/
structure Outcome where
  status : Nat
  output : String
deriving DecidableEq

/-- The name and the version of the command. -/
def versionText : String := "progdb 0.1.0\n"

/-- How the command is used. -/
def helpText : String :=
  "Usage: progdb --facts DIRECTORY [--config FILE] [--library FILE] [--package NAME]... " ++
    "[--no-cha] [--log-level LEVEL] COMMAND\n\n" ++
    "Commands:\n" ++
    "  stats\n" ++
    "  elements [--category CATEGORY] [--in-project]\n" ++
    "  range CATEGORY:ID RELATION [--in-project]\n" ++
    "  overrides METHOD-ID\n" ++
    "  modifiers CATEGORY:ID\n"

/-- The outcome of a run that ends with a response or a fault. -/
def Outcome.ofResult : Except Fault Response → Outcome
  | .ok response => ⟨0, response.json.page⟩
  | .error fault => ⟨fault.code, fault.json.page⟩

variable {m : Type → Type} [Monad m] (fs : FileSystem m)

/-- Open a fact base and ask it a question. -/
def respond (options : Options) (query : Query) : m (Except Fault Response) := do
  match ← options.openSession fs with
  | .ok session => return session.answer query
  | .error fault => return .error fault

/-- The outcome of a request. -/
def Request.perform : Request → m Outcome
  | help => return ⟨0, helpText⟩
  | version => return ⟨0, versionText⟩
  | query options question => Outcome.ofResult <$> respond fs options question

/-- The outcome of a list of arguments. Arguments that are not understood print nothing. -/
def run (arguments : List String) : m Outcome :=
  match Request.read arguments with
  | some request => request.perform fs
  | none => return ⟨2, ""⟩

end CodeAtlas.Command
