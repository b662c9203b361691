import CodeAtlas.Proofs.Session.Pending

/-!
# Hierarchy analysis saturates

A session that has only taken facts in, with a library in which no method is static, has the
overrides of its known methods of the project settled by one run that is not cancelled: what is
stored of each of them is what it overrides by the facts at the start, and by those at the end as
well. So on the way nothing that the run records makes a difference to what it finds.

## Main definitions

* `Library.HasNoStaticMethods`: no listed method is static.
* `Session.range_run_eq_overridden`: what a first run stores of a known method.
* `Session.analyze_saturates`: the run settles the overrides.
-/
namespace CodeAtlas

/-! ## Libraries without static methods -/

/-- No method that a library lists is static. -/
def Library.HasNoStaticMethods (l : Library) : Prop :=
  ∀ k d, l.declaration? k = some d → k.category = .method → d.modifiers.isStatic = false

theorem Library.HasNoStaticMethods.not_declaresStatic {l : Library} {e : Element}
    (h : l.HasNoStaticMethods) (he : e.isMethod = true) : ¬ l.DeclaresStatic e := by
  rintro ⟨d, hd, hstatic⟩
  have hmethod : e.key.category = .method := of_decide_eq_true he
  simp [h e.key d hd hmethod] at hstatic

/-- Whether a catalogue has static methods can be read off its table. -/
theorem Catalogue.hasNoStaticMethods {c : Catalogue}
    (h : ∀ p ∈ c.table.toList, p.1.category = .method → p.2.modifiers.isStatic = false) :
    (Library.catalogue c).HasNoStaticMethods := fun k d hd hk =>
  h (k, d) (Std.ExtTreeMap.mem_toList_iff_getElem?_eq_some.mpr hd) hk

namespace Session

variable {s : Session} {r : Run} {m : Element}

/-! ## A first run -/

/-- **A first run that is not cancelled stores of each known method what it overrides at the start.**
The method must not become abstract on the way, nor cease to be so, and the library must declare
nothing static that it overrides. -/
theorem range_run_eq_overridden (hanalysis : s.settings.analysis = true)
    (hfirst : s.worklist = none) (hempty : ∀ d, s.store.range d .overrides = ∅)
    (hwaiting : (s.run r).waiting = []) (hm : s.store.contains m = true)
    (habs : s.owns m = false →
      (s.run r).store.isAbstractMethod m = s.store.isAbstractMethod m)
    (hlibrary : ∀ x ∈ s.view.overridden m, s.owns x = false → ¬ s.library.DeclaresStatic x) :
    (s.run r).store.range m .overrides = s.view.overridden m := by
  have hturn : ∀ pre post, s.taken r = pre ++ post →
      (s.turn pre).overridden m = s.view.overridden m := by
    intro pre post htaken
    have hgrow : s.store.GrowsTo s.scope (s.turn pre).store := growsTo_turn
    exact hgrow.overridden_eq
      (hgrow.isAbstractMethod_eq (growsTo_run_of_turn htaken) hempty habs) hlibrary
  have htaken : m ∈ s.taken r := mem_taken_of_first hanalysis hfirst hwaiting hm
  ext x
  rw [mem_range_run, hempty]
  constructor
  · rintro (hx | ⟨pre, post, hpre, hx⟩)
    · simp at hx
    · rwa [hturn pre _ hpre] at hx
  · intro hx
    obtain ⟨pre, post, hpre⟩ := List.append_of_mem htaken
    rw [← hturn pre _ hpre] at hx
    exact .inr ⟨pre, post, hpre, hx⟩

/-- A first run stores nothing of elements that are not known. -/
theorem range_run_of_unknown (hanalysis : s.settings.analysis = true) (hfirst : s.worklist = none)
    (hempty : ∀ d, s.store.range d .overrides = ∅) (hm : s.store.contains m = false) :
    (s.run r).store.range m .overrides = ∅ := by
  rw [range_run_of_notMem, hempty]
  intro htaken
  have hqueue := mem_queue_of_mem_taken hanalysis htaken
  rw [queue_pending_of_first hfirst, Store.mem_elements, hm] at hqueue
  cases hqueue

variable {settings : Settings} {library : Library} {is : List Intake}

/-- **The first run that is not cancelled settles the overrides.** A session has only taken facts in,
and the library has no static methods. Then what is stored of each known element of the project is
what it overrides by what was known at the start of the run, and also what it overrides by all that
is known at the end. -/
theorem analyze_saturates (hanalysis : settings.analysis = true)
    (hlibrary : library.HasNoStaticMethods) (hs : s = (create settings library).intakeAll is)
    (r : Run) :
    ∃ report, (s.analyze r.sink r.listener).1 = .ok report ∧
      (report.cancelled = false → ∀ m, s.store.contains m = true → s.owns m = true →
        (s.run r).store.range m .overrides = s.view.overridden m ∧
          (s.run r).store.range m .overrides = (s.run r).view.overridden m) := by
  have hanalysis' : s.settings.analysis = true := by simpa [hs, create] using hanalysis
  have hlibrary' : s.library.HasNoStaticMethods := by simpa [hs, create] using hlibrary
  have hempty : ∀ d, s.store.range d .overrides = ∅ := by
    intro d
    rw [hs]
    exact range_populated
  obtain ⟨report, hok, -, hwaiting⟩ := s.analyze_eq_ok (r := r) hanalysis'
  refine ⟨report, hok, ?_⟩
  intro hc m hm hown
  have hplain : ∀ x ∈ s.view.overridden m, s.owns x = false → ¬ s.library.DeclaresStatic x :=
    fun x hx _ => hlibrary'.not_declaresStatic (View.isMethod_of_mem_overridden hx)
  have hstart := range_run_eq_overridden (r := r) hanalysis' (by simp [hs, create]) hempty
    (hwaiting hc) hm (fun hnot => by simp [hown] at hnot) hplain
  have hend : (s.run r).view.overridden m = s.view.overridden m := by
    unfold view
    rw [scope_run]
    exact growsTo_run.overridden_eq
      (by simp only [Store.isAbstractMethod, growsTo_run.owned hown]) hplain
  exact ⟨hstart, hstart.trans hend.symm⟩

/-- A class with an abstract method. -/
def chainLibrary : Library :=
  .catalogue (.ofList [{ id := "lib.A", methods := [⟨"lib.A.run()", ⟨0x401⟩⟩] }])

/-- A class that extends it, and one that extends that class. -/
def chainSession : Session := (create {} chainLibrary).intakeAll
  [.ingest (.ofClass "p" "p.B" (some "lib.A") ["run"]),
    .ingest (.ofClass "p" "p.C" (some "p.B") ["run"])]

/-- The method of the last class. -/
def chainMethod : Element := ⟨"p.C.run()", .method "p.C" "run" [], by decide +kernel⟩

/-- A method overrides one of the project and an abstract one of the library. -/
theorem analyze_saturates_chain :
    (chainSession.run .silent).store.range chainMethod .overrides
      = chainSession.view.overridden chainMethod ∧
    (chainSession.run .silent).store.range chainMethod .overrides
      = (chainSession.run .silent).view.overridden chainMethod ∧
    (chainSession.view.overridden chainMethod).toList.map (·.id)
      = ["lib.A.run()", "p.B.run()"] := by
  have hlibrary : chainLibrary.HasNoStaticMethods :=
    Catalogue.hasNoStaticMethods (by decide +kernel)
  obtain ⟨report, hok, h⟩ := analyze_saturates (s := chainSession) rfl hlibrary rfl .silent
  have hreport : report.cancelled = false := by
    have hcancelled : (chainSession.analyze Run.silent.sink Run.silent.listener).1.toOption.map
        (·.cancelled) = some false := by decide +kernel
    rw [hok] at hcancelled
    exact Option.some.inj hcancelled
  obtain ⟨hstart, hend⟩ := h hreport chainMethod (by decide +kernel) (by decide +kernel)
  exact ⟨hstart, hend, by decide +kernel⟩

end Session
end CodeAtlas
