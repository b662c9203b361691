import CodeAtlas.Proofs.Hierarchy.Saturation
import CodeAtlas.Proofs.Session.Population
import CodeAtlas.Query

/-!
# Overrides with and without hierarchy analysis

What a method overrides can be asked for in two ways. Where hierarchy analysis takes place, the
answer is what has been stored; otherwise it is found out when the question is asked. The analysis
takes the elements that the units name, so for these the two answers come from the same search in
two stores, one of which has grown out of the other. Elements that no unit names are not taken, also
if the analysis makes them known on its way, and nothing is stored of what they override.

## Main definitions

* `Session.build_cases`: what a build makes of its units.
* `Session.answer_overrides_built`: the two answers.
-/
namespace CodeAtlas

/-! ## One run -/

namespace Session

variable {s : Session} {r : Run} {m : Element}

/-- A run leaves the identity of a fact base as it is. -/
@[simp] theorem snapshot_run : (s.run r).snapshot = s.snapshot := by
  cases hanalysis : s.settings.analysis with
  | true =>
    obtain ⟨a, -, -, -, hrun⟩ := s.run_cases (r := r) hanalysis
    rw [hrun]
    rfl
  | false => rw [run_of_disabled hanalysis]

/-! ## Listeners that cannot cancel -/

section Steadfast

variable {σ : Type} {sink : Sink σ} {l : Listener σ}

@[simp] theorem cancelled_tell_steadfast (event : Event) :
    (l.tell sink.steadfast event).cancelled = l.cancelled := by
  simp [Listener.tell, Sink.steadfast]

@[simp] theorem cancelled_acceptAll (s : Session) (sink : Sink σ) (l : Listener σ) (n : Nat)
    (items : List (Except Fault SourceUnit)) :
    (acceptAll sink.steadfast n items l s).2.1.cancelled = l.cancelled := by
  induction items generalizing n l s with
  | nil => rfl
  | cons item items ih =>
    rw [acceptAll]
    split
    · rw [ih, cancelled_tell_steadfast]
    · split
      · rfl
      · rw [ih, cancelled_tell_steadfast]

@[simp] theorem cancelled_populate (s : Session) (sink : Sink σ) (l : Listener σ)
    (items : List (Except Fault SourceUnit)) :
    (s.populate sink.steadfast items l).2.1.cancelled = l.cancelled := by
  have h := s.cancelled_acceptAll sink (l.tell sink.steadfast (.begun .population items.length)) 0
    items
  rw [cancelled_tell_steadfast] at h
  unfold populate
  split
  next heq =>
    rw [heq] at h
    rwa [cancelled_tell_steadfast]
  next heq => rwa [heq] at h

/-- With such a listener a run leaves nothing waiting. -/
theorem waiting_run_steadfast (h : l.cancelled = false) (hfirst : s.worklist = none) :
    (s.run ⟨sink.steadfast, l⟩).waiting = [] := by
  cases hanalysis : s.settings.analysis with
  | true =>
    simp only [waiting, run, analyze, hanalysis, if_true, Option.elim]
    rw [Analysis.run_of_patient sink.patient_steadfast h]
    rfl
  | false =>
    rw [run_of_disabled hanalysis, waiting, hfirst]
    rfl

end Steadfast

/-! ## Builds -/

section Builds

variable {σ τ : Type} {settings : Settings} {library : Library} {id : String}
  {range : ElementSet}

/-- A session that hierarchy analysis has not been run in. -/
structure Fresh (settings : Settings) (library : Library) (s : Session) : Prop where
  settings_eq : s.settings = settings
  library_eq : s.library = library
  worklist_eq : s.worklist = none
  range_eq : ∀ d, s.store.range d .overrides = ∅

theorem fresh_populated (p : Population) :
    Fresh settings library ((create settings library).populated p) := by
  have h : (create settings library).populated p
      = (create settings library).intakeAll [.populate p.sink p.listener p.items] := rfl
  rw [h]
  exact ⟨settings_intakeAll, library_intakeAll, worklist_intakeAll, fun _ => range_populated⟩

/-- A build fails just if a rejected item ends the work. Otherwise it populates a session and goes
on to a run that leaves nothing waiting, and that does nothing if the settings say so. -/
theorem build_cases (settings : Settings) (library : Library) (sink : Sink σ)
    (items : List (Except Fault SourceUnit)) (state : σ) :
    ((settings.failFast = true ∧ ∃ item ∈ items, isRejected item = true) ∧
      ∃ fault, (build settings library sink items state).1 = .error fault) ∨
    (¬ (settings.failFast = true ∧ ∃ item ∈ items, isRejected item = true) ∧
      ∃ s r, s = (create settings library).populated ⟨sink.steadfast, ⟨state, false⟩, items⟩ ∧
        (s.run r).waiting = [] ∧ (build settings library sink items state).1 = .ok (s.run r)) := by
  have herror := (create settings library).populate_error_iff sink.steadfast ⟨state, false⟩ items
  have hcancelled := (create settings library).cancelled_populate sink ⟨state, false⟩ items
  have hsession : (create settings library).populated ⟨sink.steadfast, ⟨state, false⟩, items⟩
      = ((create settings library).populate sink.steadfast items ⟨state, false⟩).2.2 := rfl
  have hfresh : Fresh settings library ((create settings library).populated
      ⟨sink.steadfast, ⟨state, false⟩, items⟩) := fresh_populated _
  rcases hpop : (create settings library).populate sink.steadfast items ⟨state, false⟩ with
    ⟨result, l, s⟩
  rw [hpop] at herror hcancelled hsession
  rw [hsession] at hfresh
  cases result with
  | error fault =>
    refine .inl ⟨herror.mp ⟨fault, rfl⟩, fault, ?_⟩
    simp only [build, hpop]
  | ok tally =>
    refine .inr ⟨mt herror.mpr (by simp), s, ⟨sink.steadfast, l⟩, hsession.symm,
      waiting_run_steadfast hcancelled hfresh.worklist_eq, ?_⟩
    cases hanalysis : settings.analysis with
    | true => simp only [build, hpop, hanalysis, if_true, run]
    | false =>
      rw [run_of_disabled (by rw [hfresh.settings_eq, hanalysis])]
      simp only [build, hpop, hanalysis, Bool.false_eq_true, if_false]

/-- What a session is populated with does not depend on whether hierarchy analysis is to take place,
nor on who listens. -/
theorem populated_eq (settings : Settings) (library : Library) (analysis analysis' : Bool)
    {p q : Population} (h : q.items = p.items) :
    ∃ registry, (create { settings with analysis } library).populated q =
      { (create { settings with analysis := analysis' } library).populated p with
        settings := { settings with analysis }, registry } := by
  obtain ⟨registry, hp⟩ := (create { settings with analysis := analysis' } library).same_populate
    p.sink p.listener p.items
  obtain ⟨registry', hq⟩ := (create { settings with analysis } library).same_populate
    q.sink q.listener q.items
  refine ⟨registry', ?_⟩
  rw [populated, populated, hp, hq, h]
  rfl

theorem answer_overrides (hread : Element.read? ⟨.method, id⟩ = some m)
    (hrange : s.overrides? m = .ok range) :
    s.answer (.overrides id)
      = .ok (.range s.snapshot (s.entry m) .overrides (range.toList.map s.entry)) := by
  simp only [answer, Element.read, hread, hrange, bind, Except.bind]
  rfl

/-- Where hierarchy analysis has run, what is stored is the answer. -/
theorem overrides?_run (hanalysis : s.settings.analysis = true) :
    (s.run r).overrides? m = .ok ((s.run r).store.range m .overrides) := by
  have hanalysis' : (s.run r).settings.analysis = true := by rw [settings_run, hanalysis]
  have hanswers : (s.run r).store.answers .overrides = true := by
    rw [Store.answers, hasStarted_run hanalysis, Bool.or_true]
  have hforeign : (s.run r).view.isForeign m .overrides = false := rfl
  have hrange : (s.run r).store.range? m .overrides
      = .ok ((s.run r).store.range m .overrides) := by
    rw [Store.range?, if_pos hanswers]
  simp only [overrides?, hanalysis', if_true, range?, guard, View.range?, hforeign,
    Bool.false_eq_true, if_false, Bool.not_true, Bool.and_false]
  exact hrange

/-- Where hierarchy analysis does not take place, the answer is found out. -/
theorem overrides?_of_disabled (h : s.settings.analysis = false) :
    s.overrides? m = .ok (s.view.overridden m) := by
  rw [overrides?, h]
  rfl

/-- **The two answers to what a method overrides.** Let a fact base be built without hierarchy
analysis. Then it is built with it as well. Without it, the answer about a method is what the
method overrides by the facts. With it, the answer about a method that the facts do not name is that
it overrides nothing; and about a method that they name the answer is the same as without, provided
that the analysis leaves it as it is whether a method outside the project counts as abstract, and
that the library declares nothing static that the method overrides. -/
theorem answer_overrides_built (settings : Settings) (library : Library) (sink : Sink σ)
    (sink' : Sink τ) (items : List (Except Fault SourceUnit)) (state : σ) (state' : τ) {b : Session}
    (hb : (build { settings with analysis := false } library sink items state).1 = .ok b) :
    ∃ a, (build { settings with analysis := true } library sink' items state').1 = .ok a ∧
      ∀ id m, Element.read? ⟨.method, id⟩ = some m →
        b.answer (.overrides id) = .ok (.range b.snapshot (b.entry m) .overrides
          ((b.view.overridden m).toList.map b.entry)) ∧
        (b.store.contains m = false → a.answer (.overrides id) =
          .ok (.range b.snapshot (b.entry m) .overrides [])) ∧
        (b.store.contains m = true →
          (b.owns m = false → a.store.isAbstractMethod m = b.store.isAbstractMethod m) →
          (∀ x ∈ b.view.overridden m, b.owns x = false → ¬ library.DeclaresStatic x) →
          a.answer (.overrides id) = b.answer (.overrides id)) := by
  rcases build_cases { settings with analysis := false } library sink items state with
    ⟨-, fault, hfault⟩ | ⟨haccepted, t, r, ht, -, hbuilt⟩
  · rw [hfault] at hb
    cases hb
  obtain ⟨hrejected, -⟩ | ⟨-, s, r', hs, hwaiting, hbuilt'⟩ :=
    build_cases { settings with analysis := true } library sink' items state'
  · exact absurd hrejected haccepted
  have hfresh : Fresh { settings with analysis := true } library s := hs ▸ fresh_populated _
  have hfresh' : Fresh { settings with analysis := false } library t := ht ▸ fresh_populated _
  -- without analysis the build is a populated session, and the other one starts from its facts
  have hdisabled : t.settings.analysis = false := by rw [hfresh'.settings_eq]
  rw [run_of_disabled hdisabled, hb] at hbuilt
  obtain rfl : b = t := Except.ok.inj hbuilt
  obtain ⟨registry, hfacts⟩ := populated_eq settings library true false
    (p := ⟨sink.steadfast, ⟨state, false⟩, items⟩)
    (q := ⟨sink'.steadfast, ⟨state', false⟩, items⟩) rfl
  rw [← hs, ← ht] at hfacts
  have hanalysis : s.settings.analysis = true := by rw [hfresh.settings_eq]
  have hstore : s.store = b.store := by rw [hfacts]
  have hview : s.view = b.view := by rw [hfacts]; rfl
  have howns : s.owns = b.owns := by rw [hfacts]; rfl
  have hsnapshot : (s.run r').snapshot = b.snapshot := by rw [snapshot_run, hfacts]; rfl
  have hentry : (s.run r').entry = b.entry := by
    funext e
    simp only [entry, owns, project_run]
    rw [hfacts]
  refine ⟨s.run r', hbuilt', fun id m hread => ?_⟩
  have hdemand := answer_overrides hread (overrides?_of_disabled hdisabled)
  have hstored := answer_overrides hread (overrides?_run (r := r') (m := m) hanalysis)
  rw [hsnapshot, hentry] at hstored
  refine ⟨hdemand, fun hm => ?_, fun hm habs hstatic => ?_⟩
  · rw [← hstore] at hm
    rw [hstored, range_run_of_unknown hanalysis hfresh.worklist_eq hfresh.range_eq hm]
    rfl
  · rw [← hstore] at hm
    rw [← howns, ← hstore] at habs
    rw [← hview, ← howns, ← hfresh.library_eq] at hstatic
    rw [hstored, hdemand, ← hview, range_run_eq_overridden hanalysis hfresh.worklist_eq
      hfresh.range_eq hwaiting hm habs hstatic]

end Builds

/-! ## A method of the library -/

/-- Two classes of the library, the first of which extends the second. -/
def layeredLibrary : Library := .catalogue (.ofList [
  { id := "lib.B", superclass := some "lib.A", methods := [⟨"lib.B.run()", ⟨0x1⟩⟩] },
  { id := "lib.A", methods := [⟨"lib.A.run()", ⟨0x1⟩⟩] }])

/-- A class of the project that extends the first. -/
def layeredUnit : SourceUnit := .ofClass "p" "p.C" (some "lib.B") ["run"]

/-- Its method calls the one that it overrides. -/
def callingUnit : SourceUnit where
  path := "p/Calls.java"
  relations := [⟨⟨.method, "p.C.run()"⟩, ⟨.calls, false⟩, ⟨.method, "lib.B.run()"⟩, true⟩]

/-- The method that it overrides. -/
def layeredMethod : Element := ⟨"lib.B.run()", .method "lib.B" "run" [], by decide +kernel⟩

/-- A method that no unit names. -/
def unlistedMethod : Element := ⟨"p.C.run(int)", .method "p.C" "run" ["int"], by decide +kernel⟩

/-- The ids of the elements that a response lists as a range. -/
def rangeIds : Response → List String
  | .range _ _ _ entries => entries.map (·.element.id)
  | _ => []

/-- About a method that only the analysis makes known the two answers differ. -/
theorem answers_differ_about_synthesized :
    ((build {} layeredLibrary .silent [.ok layeredUnit] ()).1.bind
      (·.answer (.overrides "lib.B.run()"))).map rangeIds = .ok [] ∧
    ((build { analysis := false } layeredLibrary .silent [.ok layeredUnit] ()).1.bind
      (·.answer (.overrides "lib.B.run()"))).map rangeIds = .ok ["lib.A.run()"] := by
  decide +kernel

/-- If the facts name the method, both answers are the same; about the method that they do not name
only the one on demand lists what it overrides. -/
theorem answer_overrides_built_called :
    ∃ a b, (build {} layeredLibrary .silent [.ok layeredUnit, .ok callingUnit] ()).1 = .ok a ∧
      (build { analysis := false } layeredLibrary .silent
        [.ok layeredUnit, .ok callingUnit] ()).1 = .ok b ∧
      a.answer (.overrides "lib.B.run()") = b.answer (.overrides "lib.B.run()") ∧
      a.answer (.overrides "p.C.run(int)")
        = .ok (.range b.snapshot (b.entry unlistedMethod) .overrides []) ∧
      (b.view.overridden unlistedMethod).toList.map (·.id) = ["lib.A.run()", "lib.B.run()"] := by
  have hbuilt : (build { analysis := false } layeredLibrary .silent
      [.ok layeredUnit, .ok callingUnit] ()).1.toOption.map (fun b =>
        (b.store.contains layeredMethod, b.store.contains unlistedMethod,
          b.store.isAbstractMethod layeredMethod,
          (b.view.overridden unlistedMethod).toList.map (·.id)))
      = some (true, false, false, ["lib.A.run()", "lib.B.run()"]) := by decide +kernel
  have hanalyzed : (build {} layeredLibrary .silent
      [.ok layeredUnit, .ok callingUnit] ()).1.toOption.map
        (·.store.isAbstractMethod layeredMethod) = some false := by decide +kernel
  have hlibrary : layeredLibrary.HasNoStaticMethods :=
    Catalogue.hasNoStaticMethods (by decide +kernel)
  rcases hb : (build { analysis := false } layeredLibrary .silent
      [.ok layeredUnit, .ok callingUnit] ()).1 with fault | b
  · rw [hb] at hbuilt
    cases hbuilt
  rw [hb] at hbuilt
  simp only [Except.toOption, Option.map_some, Option.some.injEq, Prod.mk.injEq] at hbuilt
  obtain ⟨hknown, hunknown, habs, hids⟩ := hbuilt
  obtain ⟨a, ha, hanswers⟩ := answer_overrides_built {} layeredLibrary .silent .silent _ () () hb
  rw [ha] at hanalyzed
  have habs' : a.store.isAbstractMethod layeredMethod = false := Option.some.inj hanalyzed
  obtain ⟨-, -, hsame⟩ := hanswers "lib.B.run()" layeredMethod (by decide +kernel)
  obtain ⟨-, hnone, -⟩ := hanswers "p.C.run(int)" unlistedMethod (by decide +kernel)
  refine ⟨a, b, ha, rfl, hsame hknown (fun _ => habs'.trans habs.symm) ?_, hnone hunknown, hids⟩
  intro x hx _
  exact hlibrary.not_declaresStatic (View.isMethod_of_mem_overridden hx)

end Session
end CodeAtlas
