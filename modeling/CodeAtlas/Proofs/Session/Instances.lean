import CodeAtlas.Proofs.Interning
import CodeAtlas.Proofs.Session.Holdings

/-!
# The instances of known elements

A session is followed together with the instances that it keeps. These are handed in where tuples are
recorded one by one, and apart from that they come from the registry. So whatever a session has been
asked to do, the instance that it keeps of an element, wherever it keeps one, is that of the
registry, and stays it. This leaves out elements of which somebody hands in an instance.

## Main definitions

* `Archive`: a session with the instances that it keeps.
* `Handling`, with `Archive.perform` and `Archive.performAll`: what it can be asked to do.
* `Archive.belongTo_performAll`: what is kept goes on to fit the session.
* `Session.instances_shared`: one instance for each key, and this one is kept.
-/
namespace CodeAtlas

/-- A session with the instances that it keeps. -/
structure Archive where
  session : Session
  holdings : Holdings := {}

/-- What a session can be asked to do, with the instances that it is handed. -/
inductive Handling : Type 1 where
  | call (c : Call)
  | relate (d : Interned) (r : Relation) (e : Interned)
  | relateBoth (d : Interned) (r : Relation) (e : Interned)
  | ask (q : Question)

namespace Handling

/-- The same with the elements alone. -/
def operation : Handling → Operation
  | call c => .call c
  | relate d r e => .relate d.element r e.element
  | relateBoth d r e => .relateBoth d.element r e.element
  | ask q => .ask q

/-- The elements of which an instance is handed in. -/
def handed : Handling → List Element
  | relate d _ e | relateBoth d _ e => [d.element, e.element]
  | call _ | ask _ => []

end Handling

namespace Archive

variable {a : Archive} {o : Handling} {os : List Handling} {handed : List Element}
  {origin : Registry}

/-- A session without facts, which keeps nothing. -/
def create (settings : Settings) (library : Library) : Archive := ⟨.create settings library, {}⟩

/-- What is kept after an operation. -/
def keeping (a : Archive) : Handling → Holdings
  | .call c => a.holdings.call a.session c
  | .relate d r e => a.holdings.relate d r e
  | .relateBoth d r e => a.holdings.relateBoth d r e
  | .ask _ => a.holdings

/-- Perform an operation. -/
def perform (a : Archive) (o : Handling) : Archive := ⟨a.session.perform o.operation, a.keeping o⟩

/-- Perform operations one after the other. -/
def performAll (a : Archive) (os : List Handling) : Archive := os.foldl perform a

/-- What is kept is of no consequence for the session. -/
theorem session_performAll :
    (a.performAll os).session = a.session.performAll (os.map Handling.operation) := by
  induction os generalizing a with
  | nil => rfl
  | cons o os ih => exact ih

/-- **After an operation, what is kept fits the session that is left.** -/
theorem belongTo_perform (ha : a.holdings.BelongTo handed origin a.session) (o : Handling) :
    (a.perform o).holdings.BelongTo (handed ++ o.handed) origin (a.perform o).session := by
  have hmore := ha.append o.handed
  have hhanded : ∀ i : Interned, i.element ∈ o.handed →
      i.Proper (handed ++ o.handed) a.session.registry :=
    fun i hi => .inl (List.mem_append_right _ hi)
  cases o with
  | call c => exact hmore.call c
  | relate d r e =>
    have hfits := hmore.fits.relate (hhanded d (.head _)) (hhanded e (.tail _ (.head _))) r
    exact ⟨hfits, hmore.asked⟩
  | relateBoth d r e =>
    have hfits := hmore.fits.relateBoth (hhanded d (.head _)) (hhanded e (.tail _ (.head _))) r
    exact ⟨hfits, hmore.asked⟩
  | ask q => exact hmore.question q

theorem belongTo_performAll (ha : a.holdings.BelongTo handed origin a.session)
    (os : List Handling) :
    (a.performAll os).holdings.BelongTo (handed ++ os.flatMap Handling.handed) origin
      (a.performAll os).session := by
  induction os generalizing a handed with
  | nil =>
    rw [List.flatMap_nil, List.append_nil]
    exact ha
  | cons o os ih =>
    rw [List.flatMap_cons, ← List.append_assoc]
    exact ih (belongTo_perform ha o)

end Archive

namespace Session

theorem lookup_of_instance {s : Session} {k : Key} {i : Interned}
    (h : s.registry.instances[k]? = some i) : s.lookup k = (.ok i, s) := by
  simp only [lookup_eq, Registry.get_of_instance h]

/-- **There is one instance for each key, and this instance is kept.** Whatever a registry has been
asked for, an inquiry succeeds if and only if it names a key whose id is formed as its category asks,
and its answer has that key; one that does not succeed leaves the registry as it was. Two answers are
the same instance if and only if the same key was named, whatever was asked in between. The size of
the registry is the number of different keys of that kind that have been named. The registry of a
session comes about by inquiries alone. Wherever the store of a session has an element, as a record
or in a range, an instance of that element is kept, and nowhere else. This instance was the answer
to one of the inquiries, and it is the answer for the key of the element from then on, whatever the
session is asked to do. This leaves out elements of which somebody hands in an instance to relate
them. -/
theorem instances_shared :
    (∀ (before between : List Inquiry) (q q' : Inquiry),
      let r := Registry.empty.askAll before
      ((∃ i, (r.ask q).1 = some i) ↔ ∃ k, q.Names k ∧ k.Grammatical) ∧
      (∀ i, (r.ask q).1 = some i → q.Names i.element.key) ∧
      ((r.ask q).1 = none → (r.ask q).2 = r) ∧
      (∀ x y, (r.ask q).1 = some x → (((r.ask q).2.askAll between).ask q').1 = some y →
        (x = y ↔ ∃ k, q.Names k ∧ q'.Names k) ∧ (x.serial = y.serial ↔ x = y)) ∧
      ∃ keys : List Key, keys.Nodup ∧
        (∀ k, k ∈ keys ↔ k.Grammatical ∧ ∃ q ∈ before, q.Names k) ∧ r.size = keys.length) ∧
    ∀ (settings : Settings) (library : Library) (os more : List Handling),
      let a := (Archive.create settings library).performAll os
      let b := a.performAll more
      a.session = (create settings library).performAll (os.map Handling.operation) ∧
      ∃ asked askedMore : List Inquiry, a.session.registry = Registry.empty.askAll asked ∧
        b.session.registry = a.session.registry.askAll askedMore ∧
        (∀ p : Place, (∃ i, a.holdings.kept? p = some i) ↔ p.Stored a.session.store) ∧
        ∀ (p : Place) (i : Interned), a.holdings.kept? p = some i → i.element = p.element ∧
          (p.element ∉ os.flatMap Handling.handed →
            (∃ before q after, asked = before ++ q :: after ∧
              ((Registry.empty.askAll before).ask q).1 = some i) ∧
            a.session.lookup p.element.key = (.ok i, a.session) ∧
            b.session.lookup p.element.key = (.ok i, b.session)) := by
  constructor
  · intro before between q q' r
    have hnumbered : r.Numbered := Registry.numbered_empty.askAll before
    exact ⟨Registry.exists_ask_iff, fun i hi => (Registry.instance_of_ask hi).1,
      Registry.ask_of_none, fun x y hx hy => hnumbered.same_iff hx hy, Registry.size_askAll before⟩
  · intro settings library os more a b
    have ha : a.holdings.BelongTo (os.flatMap Handling.handed) .empty a.session :=
      Archive.belongTo_performAll (a := Archive.create settings library) .create os
    have hb : b.holdings.BelongTo _ a.session.registry b.session :=
      Archive.belongTo_performAll ⟨ha.fits, [], rfl⟩ more
    obtain ⟨asked, hasked⟩ := ha.asked
    obtain ⟨askedMore, hmore⟩ := hb.asked
    refine ⟨Archive.session_performAll, asked, askedMore, hasked, hmore, ha.fits.stored, ?_⟩
    intro p i hi
    have helement : i.element = p.element := ha.fits.element_eq hi
    refine ⟨helement, fun hhanded => ?_⟩
    have hheld : a.session.registry.instances[p.element.key]? = some i := by
      rw [← helement] at hhanded ⊢
      exact (ha.fits.proper hi).resolve_left hhanded
    have hlater : b.session.registry.instances[p.element.key]? = some i := by
      rw [hmore]
      exact Registry.extends_askAll _ _ _ _ hheld
    refine ⟨?_, lookup_of_instance hheld, lookup_of_instance hlater⟩
    rw [hasked] at hheld
    exact Registry.exists_answer hheld

/-! ## A class that is asked for in three ways -/

/-- A registry that has been asked for a class, and for a method whose parenthesis is not closed. -/
def classRegistry : Registry :=
  .askAll .empty [.key ⟨.type, "p.C"⟩, .key ⟨.method, "p.C.run("⟩]

/-- A library with a type that declares one method. -/
def runLibrary : Library :=
  .catalogue (.ofList [{ id := "lib.L", methods := [⟨"lib.L.run()", {}⟩] }])

/-- The method of the library. -/
def libraryRunMethod : Element := ⟨"lib.L.run()", .method "lib.L" "run" [], by decide +kernel⟩

/-- A class that extends the type of the library is taken in, and hierarchy analysis is run. -/
def classHistory : List Handling := [
  .call (.intake (.ingest (.ofClass "p" "p.C" (some "lib.L") ["run"]))),
  .call (.analysis .silent)]

/-- A session that has gone through this. -/
def classArchive : Archive := (Archive.create {} runLibrary).performAll classHistory

/-- As the type of its method the class has the same instance as by its name, although the method has
been asked for in between. Analysis has found the method of the library to be overridden, and the
instance that is kept of it in this range is that of the registry, also after a question. -/
theorem instances_shared_class :
    (∃ x y : Interned,
      (classRegistry.ask (.owner runMethod)).1 = some x ∧
      (((classRegistry.ask (.owner runMethod)).2.askAll
        [.named "method" "p.C.run()"]).ask (.named "Class" "p.C")).1 = some y ∧
      x = y) ∧
    ∃ i : Interned,
      classArchive.holdings.kept? (.member runMethod .overrides libraryRunMethod) = some i ∧
      i.element = libraryRunMethod ∧
      classArchive.session.lookup libraryRunMethod.key = (.ok i, classArchive.session) ∧
      (classArchive.performAll [.ask (.overridden runMethod)]).session.lookup libraryRunMethod.key
        = (.ok i, (classArchive.performAll [.ask (.overridden runMethod)]).session) := by
  obtain ⟨hregistry, hsession⟩ := instances_shared
  have hfirst : (classRegistry.ask (.owner runMethod)).1.isSome = true := by decide +kernel
  have hsecond : (((classRegistry.ask (.owner runMethod)).2.askAll
      [.named "method" "p.C.run()"]).ask (.named "Class" "p.C")).1.isSome = true := by
    decide +kernel
  obtain ⟨x, hx⟩ := Option.isSome_iff_exists.mp hfirst
  obtain ⟨y, hy⟩ := Option.isSome_iff_exists.mp hsecond
  obtain ⟨-, -, -, hsame, -⟩ := hregistry [.key ⟨.type, "p.C"⟩, .key ⟨.method, "p.C.run("⟩]
    [.named "method" "p.C.run()"] (.owner runMethod) (.named "Class" "p.C")
  have hnamed : ∃ k, (Inquiry.owner runMethod).Names k ∧ (Inquiry.named "Class" "p.C").Names k :=
    ⟨⟨.type, "p.C"⟩, ⟨rfl, rfl⟩, by decide +kernel, rfl⟩
  have hclass := hsession {} runLibrary classHistory [.ask (.overridden runMethod)]
  dsimp only at hclass
  rw [← classArchive] at hclass
  obtain ⟨-, asked, askedMore, -, -, hstored, hkept⟩ := hclass
  have hfound : libraryRunMethod ∈
      classArchive.session.store.range runMethod .overrides := by decide +kernel
  obtain ⟨i, hi⟩ := (hstored (.member runMethod .overrides libraryRunMethod)).mpr hfound
  obtain ⟨helement, hshared⟩ := hkept _ i hi
  obtain ⟨-, hlookup⟩ := hshared (by simp [classHistory, Handling.handed])
  exact ⟨⟨x, y, hx, hy, (hsame x y hx hy).1.mpr hnamed⟩, i, hi, helement, hlookup⟩

end Session
end CodeAtlas
