import CodeAtlas.Proofs.Session.History

/-!
# Static methods that are overridden

Whether a method may be overridden is decided by its recorded modifiers, and a method of the library
has none recorded before it is found to be overridden for the first time. So of the methods that
count as static, those of the project are never overridden, nor are those that a unit records as
static, but those that the library alone declares static are: by the first method that finds them,
and from then on they are static by what is recorded, too. This module says for each stored override
which of the two it is.

## Main definitions

* `Session.CountsAsStatic`: static by the recorded modifiers, or declared so by the library.
* `Session.countsAsStatic_overridden_iff`: exactly which stored overrides lead to such a method.
* `Session.static_overridden_by_first_match`: such an override exists.
-/
namespace CodeAtlas.Session

variable {s : Session} {m x y : Element} {v : View} {rs : List Run} {is : List Intake}
  {settings : Settings} {library : Library}

/-- A method is static by its recorded modifiers, or it lies outside the project and the library
declares it static. -/
def CountsAsStatic (s : Session) (e : Element) : Prop :=
  (s.store.modifiers e).isStatic = true ∨ s.owns e = false ∧ s.library.DeclaresStatic e

/-- Right after some runs, a method that is overridden counts as static just if the library declares
it so. -/
theorem countsAsStatic_after_runs (hempty : ∀ d, s.store.range d .overrides = ∅)
    (hturn : s.Turn (rs.map .analysis) m v) (hy : y ∈ v.overridden m) :
    (s.after (rs.map .analysis)).CountsAsStatic y ↔
      s.owns y = false ∧ s.library.DeclaresStatic y := by
  obtain ⟨hscope, hstart, hend⟩ := growsTo_of_turn hturn
  have hstored : y ∈ (s.after (rs.map .analysis)).store.range m .overrides :=
    mem_range_after.mpr (.inr ⟨v, hturn, hy⟩)
  have hplain : (v.store.modifiers y).isStatic = false := View.isStatic_of_mem_overridden hy
  rw [CountsAsStatic, owns_after_runs, library_after, or_iff_right_iff_imp]
  intro hstatic
  cases hown : s.owns y with
  | true =>
    rw [hend.owned hown, hplain] at hstatic
    cases hstatic
  | false =>
    have hmods := (hstart.trans hend).matched hown (fun d hd => by simp [hempty] at hd) hstored
    rw [hmods] at hstatic
    exact ⟨rfl, Library.isStatic_inferred.mp hstatic⟩

/-- **A stored override leads to a method that counts as static exactly if the method lies outside
the project, the library declares it static, and it was found on the turn of the other one.** And
each such method that an element of the project overrides by what was known at the start is found
on some turn, if that element is taken at all. -/
theorem countsAsStatic_overridden_iff (hs : s = (create settings library).intakeAll is)
    (rs : List Run) :
    (∀ m y, y ∈ (s.after (rs.map .analysis)).store.range m .overrides ∧
        (s.after (rs.map .analysis)).CountsAsStatic y ↔
      (s.owns y = false ∧ s.library.DeclaresStatic y) ∧
        ∃ v, s.Turn (rs.map .analysis) m v ∧ y ∈ v.overridden m) ∧
    ∀ m v y, s.Turn (rs.map .analysis) m v → s.owns m = true → y ∈ s.view.overridden m →
      s.owns y = false ∧ s.library.DeclaresStatic y →
      ∃ d, y ∈ (s.after (rs.map .analysis)).store.range d .overrides ∧
        (s.after (rs.map .analysis)).CountsAsStatic y := by
  have hempty : ∀ d, s.store.range d .overrides = ∅ := by
    intro d
    rw [hs]
    exact range_populated
  constructor
  · intro m y
    rw [mem_range_after, hempty]
    constructor
    · rintro ⟨hy | ⟨v, hturn, hy⟩, hstatic⟩
      · simp at hy
      · exact ⟨(countsAsStatic_after_runs hempty hturn hy).mp hstatic, v, hturn, hy⟩
    · rintro ⟨hstatic, v, hturn, hy⟩
      exact ⟨.inr ⟨v, hturn, hy⟩, (countsAsStatic_after_runs hempty hturn hy).mpr hstatic⟩
  · intro m v y hturn hown hy hstatic
    obtain ⟨d, hd⟩ := exists_mem_range_after_runs hturn hown hy
    refine ⟨d, hd, .inr ?_⟩
    rwa [owns_after_runs, library_after]

/-! ## A static method that is overridden -/

/-- A class of the project declares a method under the name of a static one of its superclass. -/
def factorySession : Session :=
  (create {} (.catalogue (.ofList [{ id := "lib.L", methods := [⟨"lib.L.of()", ⟨0x9⟩⟩] }]))).intakeAll
    [.ingest (.ofClass "a" "a.A" (some "lib.L") ["of"])]

/-- The method of the project. -/
def factoryMethod : Element := ⟨"a.A.of()", .method "a.A" "of" [], by decide +kernel⟩

/-- The static method of the library. -/
def staticMethod : Element := ⟨"lib.L.of()", .method "lib.L" "of" [], by decide +kernel⟩

theorem declaresStatic_staticMethod : factorySession.library.DeclaresStatic staticMethod :=
  Library.isStatic_inferred.mp (by decide +kernel)

/-- Static methods are overridden after all. -/
theorem static_overridden_by_first_match :
    staticMethod ∈ (factorySession.run .silent).store.range factoryMethod .overrides ∧
      (factorySession.run .silent).CountsAsStatic staticMethod :=
  ⟨by decide +kernel, .inl (by decide +kernel)⟩

/-- The override of the example was found on a turn, and it had to be found on some. -/
theorem countsAsStatic_overridden_iff_factory :
    ((factorySession.owns staticMethod = false ∧
        factorySession.library.DeclaresStatic staticMethod) ∧
      ∃ v, factorySession.Turn ([Run.silent].map .analysis) factoryMethod v ∧
        staticMethod ∈ v.overridden factoryMethod) ∧
    ∃ d, staticMethod ∈ (factorySession.after ([Run.silent].map .analysis)).store.range d
        .overrides ∧
      (factorySession.after ([Run.silent].map .analysis)).CountsAsStatic staticMethod := by
  have hmem : factoryMethod ∈ factorySession.taken .silent := by decide +kernel
  obtain ⟨pre, post, htaken⟩ := List.append_of_mem hmem
  have hturn : factorySession.Turn ([Run.silent].map .analysis) factoryMethod
      (factorySession.turn pre) := turn_of_taken htaken
  have hstatic : factorySession.owns staticMethod = false ∧
      factorySession.library.DeclaresStatic staticMethod :=
    ⟨by decide +kernel, declaresStatic_staticMethod⟩
  obtain ⟨hiff, hfound⟩ := countsAsStatic_overridden_iff (s := factorySession) rfl [.silent]
  exact ⟨(hiff factoryMethod staticMethod).mp ⟨by decide +kernel, .inl (by decide +kernel)⟩,
    hfound factoryMethod _ staticMethod hturn (by decide +kernel) (by decide +kernel) hstatic⟩

end CodeAtlas.Session
