import CodeAtlas.Proofs.Session.Narrowing
import CodeAtlas.Proofs.Session.OnDemand
import CodeAtlas.Proofs.Session.Typing

/-!
# When overrides may be asked for

Where hierarchy analysis does not take place, overrides and their transposes are refused, and so is
a run, which leaves the session as it is. Where it takes place, they are refused until it is run for
the first time. From then on they are answered, whatever comes later, and even if the first run was
cancelled before it took an element. All other relations may be asked for at any time. What the
answers are is not looked at here.

## Main definitions

* `Session.Refuses`, `Session.Answers`: what comes of the two questions about a relation.
* `Session.hasStarted_performAll`: when analysis has started.
* `Session.overrides_available`: when overrides are refused and when they are answered.
-/
namespace CodeAtlas

/-- Overrides and their transposes are the computed relations. -/
theorem Relation.isComputed_iff {r : Relation} :
    r.isComputed = true ↔ r = .overrides ∨ r = Relation.overrides.transpose := by
  obtain ⟨link, _ | _⟩ := r <;> simp [isComputed, transpose]

namespace Session

variable {s : Session} {o : Operation} {ops : List Operation} {d : Element} {r : Relation}

/-- Both questions about what an element is related to are refused with a fault. -/
def Refuses (s : Session) (d : Element) (r : Relation) (fault : Fault) : Prop :=
  s.range? d r = .error fault ∧ s.projectRange? d r = .error fault

/-- Both questions are answered. -/
def Answers (s : Session) (d : Element) (r : Relation) : Prop :=
  (∃ all, s.range? d r = .ok all) ∧ ∃ inProject, s.projectRange? d r = .ok inProject

/-! ## One session -/

theorem refuses_iff {fault : Fault} : s.Refuses d r fault ↔ s.range? d r = .error fault :=
  and_iff_left_of_imp projectRange?_eq_error.mpr

/-- The two questions are answered together. -/
theorem answers_iff : s.Answers d r ↔ ∃ all, s.range? d r = .ok all := by
  refine and_iff_left_of_imp ?_
  rintro ⟨all, hall⟩
  cases hproject : s.projectRange? d r with
  | ok inProject => exact ⟨inProject, rfl⟩
  | error fault =>
    rw [projectRange?_eq_error, hall] at hproject
    cases hproject

/-- A relation that is not computed may be asked for in any session. -/
theorem answers_of_not_computed (hr : r.isComputed = false) : s.Answers d r := by
  rw [answers_iff, range?, guard, hr, View.range?_of_not_computed hr]
  exact ⟨_, rfl⟩

/-- Where analysis does not take place, a computed relation is not supported. -/
theorem refuses_of_disabled (hr : r.isComputed = true) (h : s.settings.analysis = false) :
    s.Refuses d r (.unsupportedRelation r analysisDisabled) := by
  rw [refuses_iff, range?, guard, hr, h]
  rfl

/-- Where analysis does not take place, a run is not supported either, and changes nothing. -/
theorem analyze_of_disabled (h : s.settings.analysis = false) {σ : Type} (sink : Sink σ)
    (l : Listener σ) :
    s.analyze sink l = (.error (.unsupportedRelation .overrides analysisDisabled), l, s) := by
  rw [analyze, h]
  rfl

/-- Where analysis takes place, a computed relation is answered from the store. -/
theorem range?_of_enabled (hr : r.isComputed = true) (h : s.settings.analysis = true) :
    s.range? d r = s.store.range? d r := by
  have hforeign : s.view.isForeign d r = false := by
    by_contra hforeign
    rw [isComputed_of_isForeign (by simpa using hforeign)] at hr
    cases hr
  rw [range?, guard, h, View.range?, hforeign]
  simp only [Bool.not_true, Bool.and_false, Bool.false_eq_true, if_false]
  rfl

theorem refuses_iff_of_enabled (hr : r.isComputed = true) (h : s.settings.analysis = true) :
    s.Refuses d r (.analysisNotRun r) ↔ s.store.status.hasStarted = false := by
  rw [refuses_iff, range?_of_enabled hr h, Store.range?, Store.answers, hr]
  cases s.store.status.hasStarted <;> simp

theorem answers_iff_of_enabled (hr : r.isComputed = true) (h : s.settings.analysis = true) :
    s.Answers d r ↔ s.store.status.hasStarted = true := by
  rw [answers_iff, range?_of_enabled hr h, Store.range?, Store.answers, hr]
  cases s.store.status.hasStarted <;> simp

/-! ## The status -/

/-- An operation starts analysis just if it is a run that takes place. Nothing undoes that. -/
theorem hasStarted_perform : (s.perform o).store.status.hasStarted = true ↔
    s.store.status.hasStarted = true ∨
      s.settings.analysis = true ∧ ∃ run, Operation.call (.analysis run) = o := by
  cases o with
  | call c =>
    have h : (s.after [c]).store.status.hasStarted = true ↔ _ := hasStarted_after
    simpa [perform] using h
  | relate d r e => simp [perform, relate, Store.status_relate]
  | relateBoth d r e => simp [perform, relateBoth, Store.relateBoth, Store.status_relate]
  | ask q => simp [perform]

theorem hasStarted_performAll : (s.performAll ops).store.status.hasStarted = true ↔
    s.store.status.hasStarted = true ∨
      s.settings.analysis = true ∧ ∃ run, Operation.call (.analysis run) ∈ ops := by
  induction ops generalizing s with
  | nil => simp [performAll]
  | cons o ops ih =>
    rw [performAll_cons, ih, hasStarted_perform, (s.perform_context o).1]
    simp only [List.mem_cons, exists_or, and_or_left, or_assoc]

/-- Where analysis does not take place, its status does not change. -/
theorem status_perform_of_disabled (h : s.settings.analysis = false) :
    (s.perform o).store.status = s.store.status := by
  cases o with
  | call c =>
    cases c with
    | intake i => exact status_intake
    | analysis run => rw [perform, call, run_of_disabled h]
  | relate d r e => exact Store.status_relate
  | relateBoth d r e => exact Store.status_relate.trans Store.status_relate
  | ask q => rw [perform, store_asked]

theorem status_performAll_of_disabled (h : s.settings.analysis = false) :
    (s.performAll ops).store.status = s.store.status := by
  induction ops generalizing s with
  | nil => rfl
  | cons o ops ih =>
    have hrest := ih (s := s.perform o) (by rw [(s.perform_context o).1, h])
    exact hrest.trans (status_perform_of_disabled h)

/-! ## Histories -/

/-- To build a session is to perform a population and a run. -/
theorem exists_performAll_of_build {settings : Settings} {library : Library} {σ : Type}
    {sink : Sink σ} {items : List (Except Fault SourceUnit)} {state : σ} {b : Session}
    (h : (build settings library sink items state).1 = .ok b) :
    ∃ i run, b
      = (create settings library).performAll [.call (.intake i), .call (.analysis run)] := by
  rcases build_cases settings library sink items state with
    ⟨-, fault, hfault⟩ | ⟨-, s, run, hs, -, hbuilt⟩
  · rw [hfault] at h
    cases h
  · obtain rfl : b = s.run run := Except.ok.inj (h.symm.trans hbuilt)
    exact ⟨.populate sink.steadfast ⟨state, false⟩ items, run, by rw [hs]; rfl⟩

/-- **When overrides are refused and when they are answered.** Whatever a session has been asked to
do, the two questions about overrides or about their transposes come to the same. If analysis does
not take place, they are refused as not supported; a run is refused in the same way and changes
nothing, and the status stays what it was at first. If analysis takes place, they are refused for
want of a run if and only if none has been asked for, and otherwise they are answered. The questions
about any other relation are answered in every session. A session that has been built is one that
has been populated and run. -/
theorem overrides_available (settings : Settings) (library : Library) :
    (∀ (ops : List Operation) (d : Element) (r : Relation),
      r = .overrides ∨ r = Relation.overrides.transpose →
      let s := (create settings library).performAll ops
      (settings.analysis = false → s.Refuses d r (.unsupportedRelation r analysisDisabled)) ∧
      (settings.analysis = true →
        (s.Refuses d r (.analysisNotRun r) ↔ ∀ run, .call (.analysis run) ∉ ops) ∧
        (s.Answers d r ↔ ∃ run, .call (.analysis run) ∈ ops))) ∧
    (settings.analysis = false → ∀ ops : List Operation,
      let s := (create settings library).performAll ops
      s.store.status = .notRun ∧ ∀ {σ : Type} (sink : Sink σ) (l : Listener σ),
        s.analyze sink l = (.error (.unsupportedRelation .overrides analysisDisabled), l, s)) ∧
    (∀ (s : Session) (d : Element) (r : Relation),
      r ≠ .overrides → r ≠ Relation.overrides.transpose → s.Answers d r) ∧
    ∀ {σ : Type} (sink : Sink σ) (items : List (Except Fault SourceUnit)) (state : σ) (b : Session),
      (build settings library sink items state).1 = .ok b → ∃ i run,
        b = (create settings library).performAll [.call (.intake i), .call (.analysis run)] := by
  refine ⟨?_, ?_, ?_, fun _ _ _ _ => exists_performAll_of_build⟩
  · intro ops d r hr s
    have hcomputed := Relation.isComputed_iff.mpr hr
    have hsettings : s.settings = settings := settings_performAll
    have hstarted : s.store.status.hasStarted = true ↔
        settings.analysis = true ∧ ∃ run, Operation.call (.analysis run) ∈ ops :=
      hasStarted_performAll.trans (or_iff_right (by simp [create, Store.empty, Status.hasStarted]))
    refine ⟨fun hoff => refuses_of_disabled hcomputed (hsettings ▸ hoff), fun hon => ?_⟩
    have hon' : s.settings.analysis = true := hsettings ▸ hon
    rw [refuses_iff_of_enabled hcomputed hon', answers_iff_of_enabled hcomputed hon',
      ← Bool.not_eq_true, hstarted]
    simp [hon]
  · intro hoff ops s
    have hoff' : s.settings.analysis = false := by rw [settings_performAll]; exact hoff
    exact ⟨status_performAll_of_disabled hoff, fun sink l => analyze_of_disabled hoff' sink l⟩
  · intro s d r hforth hback
    refine answers_of_not_computed ?_
    rw [← Bool.not_eq_true, Relation.isComputed_iff, not_or]
    exact ⟨hforth, hback⟩

/-! ## A run that is cancelled at once -/

/-- A class, and a tuple that says that its method overrides itself. -/
def beforeRun : List Operation :=
  [.call (.intake (.ingest (.ofClass "p" "p.C" none ["run"]))),
    .relateBoth runMethod .overrides runMethod]

/-- A run that is cancelled before it takes an element, and one more class. -/
def fromRunOn : List Operation :=
  [.call (.analysis ⟨.silent, ⟨(), true⟩⟩),
    .call (.intake (.ingest (.ofClass "p" "p.D" none ["run"])))]

/-- The tuple may be asked for from that run on, in a session that is built at any time, and never
without analysis; what the class extends may be asked for before. -/
theorem overrides_available_cancelled :
    ((create {} .absent).performAll beforeRun).Refuses runMethod .overrides
        (.analysisNotRun .overrides) ∧
      ((create {} .absent).performAll (beforeRun ++ fromRunOn)).Answers runMethod
        .overrides ∧
      (∃ b, (build {} .absent .silent [] ()).1 = .ok b ∧ b.Answers runMethod .overrides) ∧
      ((create { analysis := false } .absent).performAll (beforeRun ++ fromRunOn)).Refuses
        runMethod Relation.overrides.transpose
        (.unsupportedRelation Relation.overrides.transpose analysisDisabled) ∧
      ((create { analysis := false } .absent).performAll (beforeRun ++ fromRunOn)).store.status
        = .notRun ∧
      ((create {} .absent).performAll beforeRun).Answers runMethod .extendsClass := by
  obtain ⟨hgate, -, hother, hbuilt⟩ := overrides_available {} .absent
  obtain ⟨hgateOff, hoff, -⟩ := overrides_available { analysis := false } .absent
  obtain ⟨hrefused, -⟩ := (hgate beforeRun runMethod .overrides (.inl rfl)).2 rfl
  obtain ⟨-, hanswered⟩ :=
    (hgate (beforeRun ++ fromRunOn) runMethod .overrides (.inl rfl)).2 rfl
  obtain ⟨b, hb⟩ : ∃ b, (build {} .absent .silent [] ()).1 = .ok b := ⟨_, rfl⟩
  obtain ⟨i, run, hops⟩ := hbuilt .silent [] () b hb
  obtain ⟨-, hansweredBuilt⟩ := (hgate [.call (.intake i), .call (.analysis run)] runMethod
    .overrides (.inl rfl)).2 rfl
  refine ⟨hrefused.mpr (by simp [beforeRun]), hanswered.mpr ⟨_, .tail _ (.tail _ (.head _))⟩,
    ⟨b, hb, ?_⟩, (hgateOff _ _ _ (.inr rfl)).1 rfl, (hoff rfl _).1, ?_⟩
  · rw [hops]
    exact hansweredBuilt.mpr ⟨run, .tail _ (.head _)⟩
  · exact hother _ _ _ (by decide) (by decide)

end Session
end CodeAtlas
