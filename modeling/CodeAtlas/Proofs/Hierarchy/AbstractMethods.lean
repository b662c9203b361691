import CodeAtlas.Proofs.Session.History

/-!
# Abstract methods that override

A method that counts as abstract when it is taken overrides nothing. Whether it does is a matter of
its recorded modifiers, and those of a method of the library change when it is found to be
overridden. So a method of the library that was known without being marked abstract may be taken
first and found to be abstract later, and then what it was recorded to override stays. This is the
only way in which an abstract method comes to override something.

## Main definitions

* `Session.mem_range_of_isAbstractMethod_iff`: exactly what an abstract method is stored to override.
* `Session.abstract_overrides_before_match`: such a method exists.
-/
namespace CodeAtlas.Session

variable {s : Session} {m x : Element} {v : View} {rs : List Run} {is : List Intake}
  {settings : Settings} {library : Library}

/-- A method that is abstract after some runs and was not when it was taken lies outside the
project, was not abstract at the start, and had not been found to be overridden by then. -/
theorem notAbstract_of_turn (hempty : ∀ d, s.store.range d .overrides = ∅)
    (hturn : s.Turn (rs.map .analysis) m v)
    (hbefore : v.store.isAbstractMethod m = false)
    (hafter : (s.after (rs.map .analysis)).store.isAbstractMethod m = true) :
    s.owns m = false ∧ s.store.isAbstractMethod m = false ∧
      ∀ d, m ∉ v.store.range d .overrides := by
  obtain ⟨-, hstart, hend⟩ := growsTo_of_turn hturn
  have hchanged : (s.after (rs.map .analysis)).store.modifiers m ≠ v.store.modifiers m := by
    intro heq
    simp only [Store.isAbstractMethod, heq] at hafter
    simp [Store.isAbstractMethod, hafter] at hbefore
  have hown : s.owns m = false :=
    Bool.eq_false_iff.mpr fun hown => hchanged (hend.owned hown)
  have hfree : ∀ d, m ∉ v.store.range d .overrides := by
    intro d hd
    have hnone : ∀ d, m ∈ s.store.range d .overrides →
        s.store.modifiers m = s.library.inferred m := fun d hd => by simp [hempty] at hd
    have hlast := (hstart.trans hend).matched hown hnone (hend.overrides hd)
    exact hchanged (hlast.trans (hstart.matched hown hnone hd).symm)
  refine ⟨hown, ?_, hfree⟩
  rwa [Store.isAbstractMethod, ← hstart.unmatched hfree]

/-- **An abstract method is stored to override something exactly if it lies outside the project, was
not marked abstract by the facts at the start, and was taken before it was found to be overridden.**
Then it is stored to override what it did on that turn. -/
theorem mem_range_of_isAbstractMethod_iff (hs : s = (create settings library).intakeAll is)
    (rs : List Run) (hm : (s.after (rs.map .analysis)).store.isAbstractMethod m = true) :
    x ∈ (s.after (rs.map .analysis)).store.range m .overrides ↔
      s.owns m = false ∧ s.store.isAbstractMethod m = false ∧
        ∃ v, s.Turn (rs.map .analysis) m v ∧ (∀ d, m ∉ v.store.range d .overrides) ∧
          x ∈ v.overridden m := by
  have hempty : ∀ d, s.store.range d .overrides = ∅ := by
    intro d
    rw [hs]
    exact range_populated
  rw [mem_range_after, hempty]
  constructor
  · rintro (hx | ⟨v, hturn, hx⟩)
    · simp at hx
    · obtain ⟨hown, hstart, hfree⟩ :=
        notAbstract_of_turn hempty hturn (View.isAbstractMethod_of_mem_overridden hx) hm
      exact ⟨hown, hstart, v, hturn, hfree, hx⟩
  · rintro ⟨-, -, v, hturn, -, hx⟩
    exact .inr ⟨v, hturn, hx⟩

/-! ## An abstract method that overrides -/

/-- A class of the library with an abstract method, and a superclass of it. -/
def callLibrary : Library := .catalogue (.ofList [
  { id := "a.L", superclass := some "a.K", methods := [⟨"a.L.run()", ⟨0x401⟩⟩] },
  { id := "a.K", methods := [⟨"a.K.run()", ⟨0x1⟩⟩] }])

/-- A method of the project overrides the abstract one and calls it as well. -/
def callSession : Session := (create {} callLibrary).intakeAll
  [.ingest (.ofClass "p" "p.C" (some "a.L") ["run"]),
    .ingest { path := "", relations :=
      [⟨⟨.method, "p.C.run()"⟩, ⟨.calls, false⟩, ⟨.method, "a.L.run()"⟩, true⟩] }]

/-- The abstract method. -/
def calledMethod : Element := ⟨"a.L.run()", .method "a.L" "run" [], by decide +kernel⟩

/-- The method of the superclass. -/
def inheritedMethod : Element := ⟨"a.K.run()", .method "a.K" "run" [], by decide +kernel⟩

/-- Abstract methods override something after all. -/
theorem abstract_overrides_before_match :
    (callSession.run .silent).report.map (·.cancelled) = some false ∧
      (callSession.run .silent).store.isAbstractMethod calledMethod = true ∧
      inheritedMethod ∈ (callSession.run .silent).store.range calledMethod .overrides := by
  decide +kernel

/-- The method of the example was known by name only and taken before the method that overrides
it. -/
theorem mem_range_of_isAbstractMethod_iff_called :
    callSession.owns calledMethod = false ∧
      callSession.store.isAbstractMethod calledMethod = false ∧
        ∃ v, callSession.Turn ([Run.silent].map .analysis) calledMethod v ∧
          (∀ d, calledMethod ∉ v.store.range d .overrides) ∧
          inheritedMethod ∈ v.overridden calledMethod :=
  (mem_range_of_isAbstractMethod_iff (s := callSession) rfl [.silent] (by decide +kernel)).mp
    (by decide +kernel)

end CodeAtlas.Session
