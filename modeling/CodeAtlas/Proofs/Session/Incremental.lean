import CodeAtlas.Proofs.Hierarchy.Saturation

/-!
# Analysis in the course of a history

Each element is taken once, in the first run that gets to it after it has become known, and what it
is recorded to override then is not looked at again. So a history that ends with a run that is not
cancelled agrees with a single run over the same facts about every method that overrides the same by
the facts that came in before it was taken as it does by all of them. Facts that come in later are
not accounted for, and that is all that can make a difference, as long as neither the method itself
nor a static method that it overrides is found to be overridden before its package is registered.

## Main definitions

* `Session.afterIntakes`: the session that takes the same facts in and does not run.
* `Store.DriftsTo`, `Session.abreast_after`: what runs make of the facts.
* `Session.processed`: the elements that the runs of a history take.
* `Session.Settled`: that one turn has settled what an element overrides.
* `Session.range_after_eq_iff`: when a history agrees with a single run.
-/
namespace CodeAtlas

/-! ## What runs make of the facts -/

/-- The second store may have come about by recording the same facts as the first one, with runs in
between: it knows all that the first one knows, and anything that is static in it alone is declared
so by the library. -/
structure Store.DriftsTo (library : Library) (s t : Store) : Prop extends s.NarrowsTo t where
  contains : ∀ {e : Element}, s.contains e = true → t.contains e = true
  declared : ∀ {e : Element}, (t.modifiers e).isStatic = true →
    (s.modifiers e).isStatic = true ∨ library.DeclaresStatic e

namespace Store.DriftsTo

variable {library : Library} {scope : Scope} {s t t' : Store} {u : SourceUnit}

theorem refl (s : Store) : s.DriftsTo library s := ⟨.refl s, id, .inl⟩

/-- A run adds to the drift. -/
theorem grow (h : s.DriftsTo scope.library t) (hgrow : t.GrowsTo scope t') :
    s.DriftsTo scope.library t' where
  toNarrowsTo := h.toNarrowsTo.trans hgrow.toNarrowsTo
  contains he := hgrow.contains (h.contains he)
  declared he := (hgrow.declared he).elim h.declared fun hnew => .inr hnew.2

/-- Facts that both stores record do not. -/
theorem take (h : s.DriftsTo library t) (hu : u.flaw? = none) :
    (s.take u).DriftsTo library (t.take u) := by
  refine take_induction (P := DriftsTo library) ?_ ?_ hu h
  · intro s t a m h
    refine ⟨⟨fun d r hr => ?_, fun {e} => ?_⟩, fun {e} => ?_, fun {e} => ?_⟩
    · rw [range_declare, range_declare, h.tuples d r hr]
    · rw [modifiers_declare, modifiers_declare]
      split
      · exact id
      · exact h.static
    · rw [contains_declare, contains_declare]
      exact Or.imp_right h.contains
    · rw [modifiers_declare, modifiers_declare]
      split
      · exact .inl
      · exact h.declared
  · intro s t a r b _ h
    refine ⟨⟨fun d q hq => ?_, fun {e} => ?_⟩, fun {e} => ?_, fun {e} => ?_⟩
    · ext x
      rw [mem_range_relate, mem_range_relate, h.tuples d q hq]
    · rw [modifiers_relate, modifiers_relate]
      exact h.static
    · rw [contains_relate, contains_relate]
      exact Or.imp_right (Or.imp_right h.contains)
    · rw [modifiers_relate, modifiers_relate]
      exact h.declared

end Store.DriftsTo

namespace Session

variable {s d : Session} {m x : Element} {r : Run} {i : Intake} {c : Call}
  {calls more before : List Call} {pre post : List Element}

/-- The session that takes the same facts in and does not run. -/
def afterIntakes (s : Session) (calls : List Call) : Session :=
  s.intakeAll (calls.flatMap Call.intakes)

theorem afterIntakes_intake :
    s.afterIntakes (calls ++ [.intake i]) = (s.afterIntakes calls).intake i := by
  simp [afterIntakes, intakeAll, Call.intakes]

theorem afterIntakes_analysis :
    s.afterIntakes (calls ++ [.analysis r]) = s.afterIntakes calls := by
  simp [afterIntakes, intakeAll, Call.intakes]

/-- A session has the facts of another one, with runs in between. -/
structure Abreast (s d : Session) : Prop where
  settings_eq : s.settings = d.settings
  scope_eq : s.scope = d.scope
  drifts : d.store.DriftsTo s.scope.library s.store

theorem Abreast.intake (h : s.Abreast d) : (s.intake i).Abreast (d.intake i) where
  settings_eq := by rw [settings_intake, settings_intake, h.settings_eq]
  scope_eq := by
    have hproject := project_intake (i := i) h.settings_eq.symm (congrArg Scope.project h.scope_eq)
    have hlibrary : s.library = d.library := congrArg Scope.library h.scope_eq
    simp only [scope, hproject, library_intake, hlibrary]
  drifts := by
    have hlibrary : (s.intake i).scope.library = s.scope.library := library_intake
    rw [hlibrary]
    exact intake_induction (fun _ hu _ _ h => h.take hu) h.settings_eq h.drifts

theorem Abreast.run (h : s.Abreast d) : (s.run r).Abreast d where
  settings_eq := settings_run.trans h.settings_eq
  scope_eq := scope_run.trans h.scope_eq
  drifts := by
    rw [scope_run]
    exact h.drifts.grow growsTo_run

/-- **After every history, a session has the facts that were taken in.** -/
theorem abreast_after (s : Session) (calls : List Call) :
    (s.after calls).Abreast (s.afterIntakes calls) := by
  induction calls using List.reverseRecOn with
  | nil => exact ⟨rfl, rfl, .refl _⟩
  | append_singleton calls c ih =>
    cases c with
    | intake i =>
      rw [after_intake, afterIntakes_intake]
      exact ih.intake
    | analysis r =>
      rw [after_analysis, afterIntakes_analysis]
      exact ih.run

/-- In the course of a run an element keeps its modifiers, unless it is found to be overridden from
outside the project. -/
theorem Keeps.modifiers_eq {t : Store} (h : (s.run r).Keeps x)
    (hgrow : s.store.GrowsTo s.scope t) (hend : t.GrowsTo s.scope (s.run r).store) :
    t.modifiers x = s.store.modifiers x := by
  rcases h with h | h
  · rw [owns, project_run] at h
    exact hgrow.owned h
  · exact hgrow.unmatched fun d hd => h d (hend.overrides hd)

/-- An element has the modifiers that were taken in, unless it is found to be overridden from outside
the project. -/
theorem modifiers_after (hkeeps : ∀ before, before <+: calls → (s.after before).Keeps x) :
    (s.after calls).store.modifiers x = (s.afterIntakes calls).store.modifiers x := by
  induction calls using List.reverseRecOn with
  | nil => rfl
  | append_singleton calls c ih =>
    have hbefore := ih fun before hb => hkeeps before (hb.trans (List.prefix_append calls [c]))
    cases c with
    | intake i =>
      rw [after_intake, afterIntakes_intake]
      have hsettings := (s.abreast_after calls).settings_eq
      exact intake_induction (P := fun s t => s.modifiers x = t.modifiers x)
        (fun _ hu _ _ h => Store.modifiers_take hu h) hsettings.symm hbefore
    | analysis r =>
      have hrun := hkeeps _ (List.prefix_refl _)
      rw [after_analysis] at hrun ⊢
      rw [afterIntakes_analysis, hrun.modifiers_eq growsTo_run (.refl _), hbefore]

/-- So it is on every turn. -/
theorem modifiers_turn (htaken : (s.after before).taken r = pre ++ post)
    (hkeeps : ∀ b, b <+: before ++ [.analysis r] → (s.after b).Keeps x) :
    ((s.after before).turn pre).store.modifiers x
      = (s.afterIntakes before).store.modifiers x := by
  have hrun := hkeeps _ (List.prefix_refl _)
  rw [after_analysis] at hrun
  rw [← modifiers_after fun b hb => hkeeps b (hb.trans (List.prefix_append before _))]
  exact hrun.modifiers_eq growsTo_turn (growsTo_run_of_turn htaken)

/-- **On its turn an element overrides what it does by the facts that were taken in**, unless it has
been found to be overridden from outside the project, or something that it overrides has been so and
is declared static by the library. -/
theorem overridden_turn (htaken : (s.after before).taken r = pre ++ post)
    (hkeeps : ∀ b, b <+: before ++ [.analysis r] → (s.after b).Keeps m)
    (hstatic : ∀ x ∈ (s.afterIntakes before).view.overridden m, s.library.DeclaresStatic x →
      ∀ b, b <+: before ++ [.analysis r] → (s.after b).Keeps x) :
    ((s.after before).turn pre).overridden m = (s.afterIntakes before).view.overridden m := by
  have habreast := s.abreast_after before
  have hlibrary : (s.after before).scope.library = s.library := library_after
  have hgrows : (s.after before).store.GrowsTo (s.after before).scope
      ((s.after before).turn pre).store := growsTo_turn
  have hdrift := habreast.drifts.grow hgrows
  rw [hlibrary] at hdrift
  have habs : ((s.after before).turn pre).store.isAbstractMethod m
      = (s.afterIntakes before).store.isAbstractMethod m := by
    simp only [Store.isAbstractMethod, modifiers_turn htaken hkeeps]
  have hview : (s.afterIntakes before).view
      = ⟨(s.after before).scope, (s.afterIntakes before).store⟩ := by
    rw [habreast.scope_eq]
    rfl
  rw [hview] at hstatic ⊢
  refine hdrift.toNarrowsTo.overridden_eq habs fun x hx => ?_
  have hplain := View.isStatic_of_mem_overridden hx
  by_cases hdeclared : s.library.DeclaresStatic x
  · rw [modifiers_turn htaken (hstatic x hx hdeclared)]
    exact hplain
  · rw [Bool.eq_false_iff]
    intro hnew
    rcases hdrift.declared hnew with hold | hnew
    · simp [hplain] at hold
    · exact hdeclared hnew

/-! ## What a history records -/

/-- The elements that the runs of a history take, in their order. -/
def processed (s : Session) : List Call → List Element
  | [] => []
  | .intake i :: calls => (s.intake i).processed calls
  | .analysis r :: calls => s.taken r ++ (s.run r).processed calls

theorem processed_append :
    s.processed (calls ++ more) = s.processed calls ++ (s.after calls).processed more := by
  induction calls generalizing s with
  | nil => rfl
  | cons c calls ih =>
    cases c with
    | intake i => exact ih
    | analysis r =>
      rw [List.cons_append, processed, processed, ih, List.append_assoc]
      rfl

/-- The element has been taken on one turn, and it is recorded to override what it did then. -/
def Settled (s : Session) (calls : List Call) (m : Element) : Prop :=
  (s.processed calls).count m = 1 ∧
    ∃ before r rest pre post, calls = before ++ .analysis r :: rest ∧
      (s.after before).taken r = pre ++ m :: post ∧
      (s.after calls).store.range m .overrides = ((s.after before).turn pre).overridden m

/-- It stays settled as long as it is not taken again. -/
theorem Settled.append (h : s.Settled calls m) (hm : m ∉ (s.after calls).processed [c])
    (hrange : (s.after (calls ++ [c])).store.range m .overrides
      = (s.after calls).store.range m .overrides) : s.Settled (calls ++ [c]) m := by
  obtain ⟨hcount, before, r, rest, pre, post, rfl, htaken, heq⟩ := h
  refine ⟨?_, before, r, rest ++ [c], pre, post, by simp, htaken, hrange.trans heq⟩
  rw [processed_append, List.count_append, hcount, List.count_eq_zero_of_not_mem hm]

/-- Nothing is taken twice in a run. -/
theorem nodup_taken (h : s.Queued) (hanalysis : s.settings.analysis = true) :
    (s.taken r).Nodup := by
  have hnodup := h.nodup_pending
  rw [s.queue_pending hanalysis] at hnodup
  exact (List.nodup_append.mp hnodup).1

/-- A run that takes an element of which nothing is stored records what it overrides on its turn. -/
theorem range_run_of_taken (hempty : s.store.range m .overrides = ∅) (hnodup : (s.taken r).Nodup)
    (htaken : s.taken r = pre ++ m :: post) :
    (s.run r).store.range m .overrides = (s.turn pre).overridden m := by
  have honce : m ∉ pre ++ post := by
    rw [htaken, List.nodup_middle] at hnodup
    exact (List.nodup_cons.mp hnodup).1
  obtain ⟨hpre, hpost⟩ := not_or.mp (mt List.mem_append.mpr honce)
  ext x
  rw [mem_range_run, hempty]
  constructor
  · rintro (hx | ⟨pre', post', htaken', hx⟩)
    · simp at hx
    · -- the element is taken on one turn only
      have hsplit := (List.append_cons_inj_of_notMem hpre hpost).mp (htaken.symm.trans htaken')
      rwa [hsplit.1]
  · exact fun hx => .inr ⟨pre, post, htaken, hx⟩

variable {settings : Settings} {library : Library}

/-- **At every point of a history an element is still to be taken, or it is settled.** -/
theorem due_or_settled (hs : s = create settings library) (hanalysis : settings.analysis = true)
    (hkeeps : ∀ before, before <+: calls → (s.after before).Keeps m) :
    (s.after calls).Due m ∧ m ∉ s.processed calls ∨ (s.after calls).Past m ∧ s.Settled calls m := by
  induction calls using List.reverseRecOn with
  | nil =>
    subst hs
    have hempty : ((create settings library).intakeAll []).store.range m .overrides = ∅ :=
      range_populated
    exact .inl ⟨⟨by simp [Session.seen, create], hempty⟩, by simp [processed]⟩
  | append_singleton calls c ih =>
    have hset : (s.after calls).settings.analysis = true := by rwa [settings_after, hs]
    have hqueued : (s.after calls).Queued := by
      rw [hs]
      exact Queued.create.after hanalysis
    have hbefore := ih fun before hb => hkeeps before (hb.trans (List.prefix_append calls [c]))
    cases c with
    | intake i =>
      rw [after_intake, processed_append, processed, processed, List.append_nil]
      rcases hbefore with ⟨hdue, hnot⟩ | ⟨hpast, hsettled⟩
      · exact .inl ⟨hdue.intake, hnot⟩
      · refine .inr ⟨hpast.intake, hsettled.append (by simp [processed]) ?_⟩
        rw [after_intake, range_intake]
    | analysis r =>
      have hrun := hkeeps _ (List.prefix_refl _)
      have hprocessed : (s.after calls).processed [.analysis r] = (s.after calls).taken r := by
        simp [processed]
      rw [after_analysis] at hrun ⊢
      rw [processed_append, hprocessed]
      rcases hbefore with ⟨hdue, hnot⟩ | ⟨hpast, hsettled⟩
      · by_cases hm : m ∈ (s.after calls).taken r
        · obtain ⟨pre, post, htaken⟩ := List.append_of_mem hm
          have hnodup := nodup_taken (r := r) hqueued hset
          refine .inr ⟨past_run_of_mem_taken hqueued hset hm, ?_, calls, r, [], pre, post, rfl,
            htaken, ?_⟩
          · rw [processed_append, hprocessed, List.count_append, List.count_eq_zero_of_not_mem hnot,
              List.count_eq_one_of_mem hnodup hm]
          · rw [after_analysis, range_run_of_taken hdue.range_eq hnodup htaken]
        · exact .inl ⟨hdue.run hset hrun hm, by simp [hnot, hm]⟩
      · have hm := hpast.notMem_taken (r := r) hset
        refine .inr ⟨hpast.run hset, hsettled.append (by rwa [hprocessed]) ?_⟩
        rw [after_analysis, range_run_of_notMem hm]

/-- What one run after all the facts records of an element of the project: what it overrides by these
facts, if they name it, and nothing otherwise. -/
theorem range_batch (hs : s = create settings library) (hanalysis : settings.analysis = true)
    (hbatch : (s.afterIntakes calls).Completes r) (hown : (s.afterIntakes calls).owns m = true)
    (hspared : (s.afterIntakes calls).store.contains m = true →
      ∀ x ∈ (s.afterIntakes calls).view.overridden m, (s.afterIntakes calls).owns x = false →
        ¬ library.DeclaresStatic x) :
    ((s.afterIntakes calls).run r).store.range m .overrides =
      if (s.afterIntakes calls).store.contains m then (s.afterIntakes calls).view.overridden m
      else ∅ := by
  have hset : (s.afterIntakes calls).settings.analysis = true := by
    simpa [afterIntakes, hs, create] using hanalysis
  have hfirst : (s.afterIntakes calls).worklist = none := by
    simp [afterIntakes, hs, create]
  have hlibrary : (s.afterIntakes calls).library = library := by
    simp [afterIntakes, hs, create]
  have hempty : ∀ d, (s.afterIntakes calls).store.range d .overrides = ∅ :=
    fun d => hs ▸ range_populated
  split
  next hm =>
    refine range_run_eq_overridden hset hfirst hempty (hbatch.waiting_eq_nil hset) hm
      (fun hnot => by simp [hown] at hnot) ?_
    rw [hlibrary]
    exact hspared hm
  next hm => exact range_run_of_unknown hset hfirst hempty (Bool.not_eq_true _ ▸ hm)

/-- **A history that ends with a run that is not cancelled agrees with one run after all its facts
exactly about the elements that later facts make no difference to.** The element belongs to the
project at the end, and was never found to be overridden before it did. One run records what the
element overrides by all the facts, if they name it, and otherwise nothing; this takes for granted
that the library declares nothing static among what the element overrides then outside the project.
In the history either no run takes the element, no fact names it and nothing is recorded, or there
is exactly one turn on which a run takes it, and this one decides: it is recorded to override what
it did then. That is what it overrides by the facts before that run, unless something among it has
been found to be overridden from outside the project that the library declares static. -/
theorem range_after_eq_iff (hs : s = create settings library)
    (hanalysis : settings.analysis = true) {last batch : Run}
    (hlast : (s.after calls).Completes last) (hbatch : (s.afterIntakes calls).Completes batch)
    (hown : (s.afterIntakes calls).owns m = true)
    (hkeeps : ∀ before, before <+: calls ++ [.analysis last] → (s.after before).Keeps m) :
    let facts := s.afterIntakes calls
    let single := (facts.run batch).store.range m .overrides
    let expected := if facts.store.contains m then facts.view.overridden m else ∅
    let spared := facts.store.contains m = true → ∀ x ∈ facts.view.overridden m,
      facts.owns x = false → ¬ library.DeclaresStatic x
    let stored := (s.after (calls ++ [.analysis last])).store.range m .overrides
    (spared → single = expected) ∧
    ((s.processed (calls ++ [.analysis last])).count m = 0 ∧ facts.store.contains m = false ∧
        stored = ∅ ∨
      (s.processed (calls ++ [.analysis last])).count m = 1 ∧
        ∃ before r rest pre post, calls ++ [.analysis last] = before ++ .analysis r :: rest ∧
          (s.after before).taken r = pre ++ m :: post ∧
          stored = ((s.after before).turn pre).overridden m ∧
          ((∀ x ∈ (s.afterIntakes before).view.overridden m, library.DeclaresStatic x →
              ∀ b, b <+: before ++ [.analysis r] → (s.after b).Keeps x) →
            stored = (s.afterIntakes before).view.overridden m ∧
            (spared →
              (stored = single ↔ (s.afterIntakes before).view.overridden m = expected)))) := by
  intro facts single expected spared stored
  have hset : (s.after calls).settings.analysis = true := by rwa [settings_after, hs]
  have hlibrary : s.library = library := by rw [hs, create]
  have hsingle : spared → single = expected := range_batch hs hanalysis hbatch hown
  refine ⟨hsingle, ?_⟩
  rcases due_or_settled hs hanalysis hkeeps with ⟨hdue, hnot⟩ |
    ⟨-, hcount, before, r, rest, pre, post, hcalls, htaken, heq⟩
  · refine .inl ⟨List.count_eq_zero_of_not_mem hnot, ?_, hdue.range_eq⟩
    -- an element that is still to be taken when nothing waits has never been seen
    by_contra hknown
    rw [Bool.not_eq_false] at hknown
    have hcontains : (s.after calls).store.contains m = true :=
      (s.abreast_after calls).drifts.contains hknown
    have hseen : m ∈ (s.after (calls ++ [.analysis last])).seen := by
      rw [after_analysis]
      exact mem_seen_run hset (mem_seen_pending.mpr (.inr hcontains))
    have hwaits := hdue.waits hseen
    rw [after_analysis, hlast.waiting_eq_nil hset] at hwaits
    simp at hwaits
  · refine .inr ⟨hcount, before, r, rest, pre, post, hcalls, htaken, heq, fun hstatic => ?_⟩
    have hprefix : before ++ [.analysis r] <+: calls ++ [.analysis last] :=
      ⟨rest, by rw [hcalls]; simp⟩
    have hturn : stored = (s.afterIntakes before).view.overridden m := by
      refine heq.trans (overridden_turn htaken (fun b hb => hkeeps b (hb.trans hprefix)) ?_)
      rwa [hlibrary]
    exact ⟨hturn, fun hspared => by rw [hturn, hsingle hspared]⟩

/-! ## Facts that come late -/

/-- A project without a library. -/
def lateSession : Session := create { packages := ["p"] } .absent

/-- A class is analyzed before it is known to extend another. -/
def lateCalls : List Call :=
  [.intake (.ingest (.ofClass "p" "p.Sub" none ["run"])), .analysis .silent,
    .intake (.ingest (.ofClass "p" "p.Base" none ["run"])),
    .intake (.ingest (.ofClass "p" "p.Sub" (some "p.Base") ["run"]))]

/-- The method of the class. -/
def lateMethod : Element := ⟨"p.Sub.run()", .method "p.Sub" "run" [], by decide +kernel⟩

/-- The method of its superclass. -/
def baseMethod : Element := ⟨"p.Base.run()", .method "p.Base" "run" [], by decide +kernel⟩

/-- A project without packages of its own, and a library of a class with a superclass. -/
def openSession : Session := create {} (.catalogue (.ofList [
  { id := "q.B", superclass := some "q.A", methods := [⟨"q.B.run()", ⟨0x1⟩⟩] },
  { id := "q.A", methods := [⟨"q.A.run()", ⟨0x1⟩⟩] }]))

/-- The class turns out to belong to the project after its method has been found to be overridden. -/
def openCalls : List Call :=
  [.intake (.ingest (.ofClass "p" "p.C" (some "q.B") ["run"])), .analysis .silent,
    .intake (.ingest (.ofClass "q" "q.A" none ["run"])),
    .intake (.ingest (.ofClass "q" "q.B" (some "q.A") ["run"]))]

/-- The method of the class. -/
def openMethod : Element := ⟨"q.B.run()", .method "q.B" "run" [], by decide +kernel⟩

/-- The method of its superclass. -/
def upperMethod : Element := ⟨"q.A.run()", .method "q.A" "run" [], by decide +kernel⟩

/-- Histories do not agree with single runs when a method has been taken, or found to be overridden
outside the project, before the facts about it were complete. -/
theorem history_disagrees_with_single_run :
    ((lateSession.after lateCalls).Completes .silent ∧
      (lateSession.afterIntakes lateCalls).Completes .silent ∧
      (lateSession.after (lateCalls ++ [.analysis .silent])).owns lateMethod = true ∧
      baseMethod ∉ (lateSession.after (lateCalls ++ [.analysis .silent])).store.range lateMethod
        .overrides ∧
      baseMethod ∈ ((lateSession.afterIntakes lateCalls).run .silent).store.range lateMethod
        .overrides) ∧
    (openSession.after openCalls).Completes .silent ∧
      (openSession.afterIntakes openCalls).Completes .silent ∧
      (openSession.after (openCalls ++ [.analysis .silent])).owns openMethod = true ∧
      upperMethod ∉ (openSession.after (openCalls ++ [.analysis .silent])).store.range openMethod
        .overrides ∧
      upperMethod ∈ ((openSession.afterIntakes openCalls).run .silent).store.range openMethod
        .overrides := by
  unfold Completes
  decide +kernel

/-! ## A library with a static method -/

/-- A library of a class with a static method and another one. -/
def mixedLibrary : Library := .catalogue (.ofList [
  { id := "lib.Base", methods := [⟨"lib.Base.of()", ⟨0x9⟩⟩, ⟨"lib.Base.run()", ⟨0x1⟩⟩] }])

/-- A project with this library. -/
def mixedSession : Session := create { packages := ["p"] } mixedLibrary

/-- A class that extends that of the library is analyzed before it is known to extend another. -/
def mixedCalls : List Call :=
  [.intake (.ingest (.ofClass "p" "p.Sub" (some "lib.Base") ["of", "run"])), .analysis .silent,
    .intake (.ingest (.ofClass "p" "p.Base" none ["run"])),
    .intake (.ingest (.ofClass "p" "p.Sub" (some "p.Base") ["run"]))]

/-- The other method of the class. -/
def otherMethod : Element := ⟨"p.Sub.of()", .method "p.Sub" "of" [], by decide +kernel⟩

/-- At no point of the history does the method override anything static by the facts. -/
theorem not_declaresStatic_of_overridden {n : ℕ} (hn : n < 5) {x : Element}
    (hx : x ∈ (mixedSession.afterIntakes
      ((mixedCalls ++ [Call.analysis .silent]).take n)).view.overridden lateMethod) :
    ¬ mixedLibrary.DeclaresStatic x := by
  have hlisted : ∀ n < 5, ∀ x ∈ ((mixedSession.afterIntakes
      ((mixedCalls ++ [Call.analysis .silent]).take n)).view.overridden lateMethod).toList,
      (mixedLibrary.inferred x).isStatic = false := by
    decide +kernel
  intro hstatic
  have hinferred := hlisted n hn x (Std.ExtTreeSet.mem_toList.mpr hx)
  rw [Library.isStatic_inferred.mpr hstatic] at hinferred
  cases hinferred

/-- The method is taken once, and the history records what it overrode by the facts before that run.
It does not matter that another method of the class overrides a static one of the library. -/
theorem range_after_eq_iff_late :
    (mixedSession.processed (mixedCalls ++ [.analysis .silent])).count lateMethod = 1 ∧
    (∃ before r rest, mixedCalls ++ [.analysis .silent] = before ++ .analysis r :: rest ∧
      (mixedSession.after (mixedCalls ++ [.analysis .silent])).store.range lateMethod .overrides
        = (mixedSession.afterIntakes before).view.overridden lateMethod) ∧
    ((mixedSession.after (mixedCalls ++ [.analysis .silent])).store.range lateMethod
      .overrides).toList.map (·.id) = ["lib.Base.run()"] ∧
    ((mixedSession.afterIntakes mixedCalls).run .silent).store.range lateMethod .overrides
      = (mixedSession.afterIntakes mixedCalls).view.overridden lateMethod ∧
    ((mixedSession.afterIntakes mixedCalls).view.overridden lateMethod).toList.map (·.id)
      = ["lib.Base.run()", "p.Base.run()"] ∧
    ((mixedSession.after (mixedCalls ++ [.analysis .silent])).store.range otherMethod
      .overrides).toList.map (·.id) = ["lib.Base.of()"] := by
  have hlast : (mixedSession.after mixedCalls).Completes .silent := by
    unfold Completes
    decide +kernel
  have hbatch : (mixedSession.afterIntakes mixedCalls).Completes .silent := by
    unfold Completes
    decide +kernel
  have hown : ∀ calls, (mixedSession.after calls).owns lateMethod = true := by
    intro calls
    exact owns_after (by decide +kernel)
  have hnamed : (mixedSession.afterIntakes mixedCalls).store.contains lateMethod = true := by
    decide +kernel
  have hresult := range_after_eq_iff (s := mixedSession) (m := lateMethod) rfl rfl hlast hbatch
    (by decide +kernel) (fun before _ => .inl (hown before))
  dsimp only at hresult
  rw [if_pos hnamed] at hresult
  obtain ⟨hsingle, hhistory⟩ := hresult
  obtain ⟨hcount, before, r, rest, pre, post, hcalls, -, -, hfacts⟩ :=
    hhistory.resolve_left fun h => by simp [hnamed] at h
  have htake : (mixedCalls ++ [Call.analysis .silent]).take before.length = before := by
    rw [hcalls, List.take_left]
  have hlength : before.length < 5 := by
    have htotal : (mixedCalls ++ [Call.analysis .silent]).length = 5 := rfl
    rw [hcalls, List.length_append, List.length_cons] at htotal
    omega
  have hplain : ∀ x ∈ (mixedSession.afterIntakes before).view.overridden lateMethod,
      ¬ mixedLibrary.DeclaresStatic x := by
    intro x hx
    rw [← htake] at hx
    exact not_declaresStatic_of_overridden hlength hx
  obtain ⟨hstored, -⟩ := hfacts fun x hx hstatic => absurd hstatic (hplain x hx)
  have hspared : ∀ x ∈ (mixedSession.afterIntakes mixedCalls).view.overridden lateMethod,
      ¬ mixedLibrary.DeclaresStatic x := by
    intro x hx
    exact not_declaresStatic_of_overridden (n := 4) (by decide) hx
  exact ⟨hcount, ⟨before, r, rest, hcalls, hstored⟩, by decide +kernel,
    hsingle fun _ x hx _ => hspared x hx, by decide +kernel, by decide +kernel⟩

end Session
end CodeAtlas
