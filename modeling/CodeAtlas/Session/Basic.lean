import CodeAtlas.Fingerprint
import CodeAtlas.Hierarchy.Worklist
import CodeAtlas.Settings

/-!
# Sessions

A session holds a fact base together with what it was built with. Questions are answered from the
facts, the packages and the library; on the way the registry is asked for the instances of the
elements that the library names, so such a question gives back its answer and the session in which
those elements have instances. How units get into a session is in `CodeAtlas.Session.Intake`.

## Main definitions

* `Session`, with `Session.create`.
* `Session.range`, `Session.projectRange?`, `Session.overridden`: questions about elements.
* `Session.lookup`, `Session.elementOf`, `Session.handleOf`: elements, keys and declarations.
* `Session.registerPackage`, `Session.declare`, `Session.relate`: recording facts one by one.
-/
namespace CodeAtlas

/-- How many units have been taken in and passed over. -/
structure Tally where
  ingested : Nat := 0
  skipped : Nat := 0
deriving DecidableEq

/-- A fact base with what it was built with. -/
structure Session where
  settings : Settings := {}
  library : Library := .absent
  project : Packages := {}
  store : Store := .empty
  registry : Registry := .empty
  fingerprint : Fingerprint := {}
  tally : Tally := {}
  /-- The state of hierarchy analysis, once it has been run. -/
  worklist : Option Worklist := none

namespace Session

/-- A session without facts, in which the packages of the settings are registered. -/
def create (settings : Settings) (library : Library) : Session :=
  { settings, library, project := .ofList settings.packages }

/-- What hierarchies are seen in the light of. -/
def scope (s : Session) : Scope := ⟨s.project, s.library⟩

/-- All that is known. -/
def view (s : Session) : View := ⟨s.scope, s.store⟩

/-- The counts of hierarchy analysis, once it has been run. -/
def report (s : Session) : Option Report := s.worklist.map (·.report)

/-- The identity of the units that the session was populated with. -/
def snapshot (s : Session) : String := s.fingerprint.hex

/-- Let a computation ask the registry of a session. -/
def consult {α : Type} (s : Session) (c : Asking α) : α × Session :=
  let (a, registry) := c.run s.registry
  (a, { s with registry })

/-! ## Questions -/

/-- Refuse to answer about a computed relation where hierarchy analysis does not take place. -/
def guard (s : Session) (r : Relation) (answer : Except Fault α) : Except Fault α :=
  if r.isComputed && !s.settings.analysis then
    .error (.unsupportedRelation r analysisDisabled)
  else answer

/-- The elements that an element is related to, where types outside the project are related as the
library says. -/
def range? (s : Session) (d : Element) (r : Relation) : Except Fault ElementSet :=
  s.guard r (s.view.range? d r)

/-- The recorded elements of the project that an element is related to. -/
def projectRange? (s : Session) (d : Element) (r : Relation) : Except Fault ElementSet :=
  s.guard r (s.view.projectRange? d r)

/-- Ask for the elements that an element is related to. -/
def range (s : Session) (d : Element) (r : Relation) : Except Fault ElementSet × Session :=
  match s.guard r (.ok ()) with
  | .error fault => (.error fault, s)
  | .ok () =>
    let (found, s) := s.consult (s.view.findings? d r)
    (found.map fun fs => .ofList (fs.map Finding.element), s)

/-- Ask for the methods that a method overrides, whether or not hierarchy analysis has run. -/
def overridden (s : Session) (m : Element) : ElementSet × Session :=
  let (found, s) := s.consult (s.view.overriddenIn m)
  (.ofList (found.map Finding.element), s)

/-- Ask for the instance of a key. -/
def lookup (s : Session) (k : Key) : Except Fault Interned × Session := s.consult (Asking.get k)

theorem lookup_eq (s : Session) (k : Key) :
    s.lookup k = ((s.registry.get k).1, { s with registry := (s.registry.get k).2 }) := rfl

/-- Ask for the element of a declared key. -/
def elementOf (s : Session) (k : Key) : Except Fault Element × Session :=
  let (found, s) := s.consult (s.library.resolve k)
  (found.map Interned.element, s)

/-- The key under which an element is declared. -/
def handleOf (s : Session) (e : Element) : Except Fault Key := s.library.handle e

/-- Whether an element belongs to the project. -/
def owns (s : Session) (e : Element) : Bool := s.project.owns e

/-! ## Recording -/

/-- Register a package, and tell whether it is new. -/
def registerPackage (s : Session) (name : String) : Bool × Session :=
  let (new, project) := s.project.register name
  (new, { s with project })

/-- Record an element with its modifiers. -/
def declare (s : Session) (k : Key) (m : Modifiers) : Except Fault Element × Session :=
  match s.lookup k with
  | (.ok i, s) => (.ok i.element, { s with store := s.store.declare i.element m })
  | (.error fault, s) => (.error fault, s)

/-- Record that two elements are related, and tell whether that is new. -/
def relate (s : Session) (d : Element) (r : Relation) (e : Element) : Bool × Session :=
  let (new, store) := s.store.relate d r e
  (new, { s with store })

/-- Record a relation and its transpose, and tell whether one of them is new. -/
def relateBoth (s : Session) (d : Element) (r : Relation) (e : Element) : Bool × Session :=
  let (new, store) := s.store.relateBoth d r e
  (new, { s with store })

end Session
end CodeAtlas
