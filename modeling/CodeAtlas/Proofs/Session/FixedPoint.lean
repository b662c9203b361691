import CodeAtlas.Proofs.Session.Pending

/-!
# Running the analysis again

A run puts all known elements on its queue that have not been seen, and more become known while it
is on its way. Those outside the project have been seen as soon as they are. One of the project that
is found to be overridden is declared by a type of the project, and so it was known before, or it is
listed by a type outside. As long as the library lists no such methods, everything that is known
after a run has been seen. So once a run has not been cancelled, there is nothing left for the next
one to do, and it leaves the session as it is.

## Main definitions

* `Library.KeepsOut`: no type outside a project lists a method of it.
* `Session.seen_of_known_run`: what is known after a run has been seen.
* `Session.run_run_eq`: a run that follows one that was not cancelled changes nothing.
-/
namespace CodeAtlas

/-- No type outside a project lists a method of the project. -/
def Library.KeepsOut (l : Library) (p : Packages) : Prop :=
  ∀ t m : Element, t.isType = true → p.owns t = false → m ∈ l.range t .declaresMethod →
    p.owns m = false

/-- A library keeps out of a project if none of the methods that it lists belongs to it. -/
theorem Catalogue.keepsOut {c : Catalogue} {p : Packages}
    (h : ∀ entry ∈ c.table.toList, ∀ m ∈ entry.2.methods.filterMap Element.read?,
      p.owns m = false) : Library.KeepsOut (.catalogue c) p := by
  intro t m _ _ hm
  simp only [Library.range, Library.declaration?] at hm
  split at hm
  next d hd =>
    have hentry : (t.key, d) ∈ c.table.toList :=
      Std.ExtTreeMap.mem_toList_iff_getElem?_eq_some.mpr hd
    exact h _ hentry m (ElementSet.mem_ofList.mp hm)
  next => simp at hm

/-- What is overridden is declared by some type. -/
theorem View.exists_declares_of_mem_overridden {v : View} {m e : Element}
    (h : e ∈ v.overridden m) : ∃ t, e ∈ v.range t .declaresMethod := by
  obtain ⟨name, owner, -, t, -, hfirst⟩ := mem_overridden.mp h
  exact ⟨t, Std.ExtTreeSet.mem_toList.mp (List.mem_of_find?_eq_some hfirst)⟩

/-- So a method of the project that is found to be overridden is known already. -/
theorem View.known_of_mem_overridden {v : View} {m e : Element}
    (hkeeps : v.library.KeepsOut v.project) (h : e ∈ v.overridden m)
    (hown : v.project.owns e = true) : v.store.contains e = true := by
  obtain ⟨t, ht⟩ := exists_declares_of_mem_overridden h
  unfold range at ht
  split at ht
  next hforeign =>
    simp only [isForeign, Bool.and_eq_true, Bool.not_eq_true'] at hforeign
    have hout := hkeeps t e hforeign.1.2 hforeign.2 ht
    simp [hout] at hown
  next => exact Store.known_of_mem_range ht

namespace Analysis

variable {scope : Scope} {a : Analysis} {m x : Element} {es : List Element}

theorem known_process (hkeeps : scope.library.KeepsOut scope.project)
    (h : (a.process scope m).store.contains x = true) :
    a.store.contains x = true ∨ x = m ∨ x ∈ (a.process scope m).worklist.seen := by
  rcases contains_process.mp h with ⟨rfl, -⟩ | hx | hold
  · exact .inr (.inl rfl)
  · cases hown : scope.project.owns x with
    | true => exact .inl (View.known_of_mem_overridden (v := a.view scope) hkeeps hx hown)
    | false => exact .inr (.inr (mem_seen_process.mpr (.inl ⟨hx, hown⟩)))
  · exact .inl hold

/-- What is known after some elements have been taken was known before, or is one of them, or has
been seen. -/
theorem known_processAll (hkeeps : scope.library.KeepsOut scope.project)
    (h : (a.processAll scope es).store.contains x = true) :
    a.store.contains x = true ∨ x ∈ es ∨ x ∈ (a.processAll scope es).worklist.seen := by
  induction es generalizing a with
  | nil => exact .inl h
  | cons m es ih =>
    rcases ih h with hfirst | hlater | hseen
    · rcases known_process hkeeps hfirst with hold | rfl | hseen
      · exact .inl hold
      · exact .inr (.inl List.mem_cons_self)
      · exact .inr (.inr (seen_subset_processAll (a := a.process scope m) hseen))
    · exact .inr (.inl (List.mem_cons_of_mem m hlater))
    · exact .inr (.inr hseen)

end Analysis

/-- A run that nobody asks to be cancelled, be it before it begins or by an answer to an event. -/
structure Run.Undisturbed (r : Run) : Prop where
  patient : r.sink.Patient
  uncancelled : r.listener.cancelled = false

namespace Session

variable {s : Session} {r last again : Run} {calls : List Call} {x : Element} {w : Worklist}

/-! ## Everything has been seen -/

/-- **What is known after a run has been seen**, also if the run was cancelled. -/
theorem seen_of_known_run (h : s.Queued) (hanalysis : s.settings.analysis = true)
    (hkeeps : s.library.KeepsOut s.project) (hx : (s.run r).store.contains x = true) :
    x ∈ (s.run r).seen := by
  obtain ⟨status, hstore⟩ := s.store_run r
  rw [hstore, Store.contains_withStatus] at hx
  rcases Analysis.known_processAll (a := s.outset) hkeeps hx with hold | htaken | hseen
  · exact mem_seen_run hanalysis (mem_seen_pending.mpr (.inr hold))
  · exact mem_seen_run hanalysis (h.seen_pending (mem_queue_of_mem_taken hanalysis htaken))
  · rwa [seen_run hanalysis]

/-! ## Nothing is left to do -/

/-- A run that is not cancelled leaves the analysis complete. -/
theorem Completes.at_rest (h : s.Completes r) (hanalysis : s.settings.analysis = true) :
    ∃ w, (s.run r).worklist = some w ∧ w.queue = [] ∧ w.report.cancelled = false ∧
      (s.run r).store.status = .complete := by
  obtain ⟨a, ha, -, -, hrun⟩ := s.run_cases (r := r) hanalysis
  rcases ha with rfl | ⟨-, rfl⟩
  · rw [Completes, hrun] at h
    cases h
  · rw [hrun]
    exact ⟨_, rfl, rfl, rfl, rfl⟩

/-- Nothing is put on the queue once everything has been seen. -/
theorem pending_eq (hw : s.worklist = some w)
    (hseen : ∀ x, s.store.contains x = true → x ∈ s.seen) : s.pending = w := by
  have hunseen : w.unseen s.store = [] := by
    refine List.eq_nil_iff_forall_not_mem.mpr fun e he => ?_
    obtain ⟨hknown, hunseen⟩ := Worklist.mem_unseen.mp he
    have hmem := hseen e hknown
    rw [seen, hw] at hmem
    exact hunseen hmem
  simp only [pending, hw, Worklist.enqueue, hunseen, List.append_nil]
  rfl

theorem run_of_undisturbed (h : r.Undisturbed) (hanalysis : s.settings.analysis = true) :
    s.run r = { s with
      store := (s.outset.finished s.scope s.pending.queue).store
      worklist := some (s.outset.finished s.scope s.pending.queue).worklist
      registry := (s.outset.finished s.scope s.pending.queue).registry } := by
  have hrun : (Analysis.run s.scope r.sink r.listener s.outset).2
      = s.outset.finished s.scope s.pending.queue :=
    Analysis.run_of_patient h.patient h.uncancelled _
  rw [← hrun]
  simp only [run, analyze, hanalysis, if_true]
  rfl

/-- A run with nothing to do leaves a session as it is in which the analysis is complete. -/
theorem run_eq_self (h : r.Undisturbed) (hanalysis : s.settings.analysis = true)
    (hw : s.worklist = some w) (hpending : s.pending = w) (hqueue : w.queue = [])
    (hcancelled : w.report.cancelled = false) (hstatus : s.store.status = .complete) :
    s.run r = s := by
  have hstore : s.store.withStatus .complete = s.store := by
    rw [← hstatus]
    rfl
  have hworklist : { w with queue := [], report.cancelled := false } = w := by
    rw [← hqueue, ← hcancelled]
  have hend : s.outset.finished s.scope s.pending.queue = s.outset := by
    rw [hpending, hqueue]
    show Analysis.mk (s.store.withStatus .complete)
      { s.pending with queue := [], report.cancelled := false } s.registry = s.outset
    rw [hstore, hpending, hworklist, ← hpending]
    rfl
  rw [run_of_undisturbed h hanalysis, hend]
  show { s with worklist := some s.pending } = s
  rw [hpending, ← hw]

/-- **A run that follows one that was not cancelled changes nothing.** Facts are taken in and runs
take place in any order, the last run is not cancelled, and no type outside the project lists a
method of the project. Then another run that nobody asks to be cancelled takes no element, tells the
counts that are there already and leaves the whole session as it is: the elements that are known,
their modifiers and tuples, the status and the counts. -/
theorem run_run_eq {settings : Settings} {library : Library}
    (hs : s = (create settings library).after calls) (hanalysis : settings.analysis = true)
    (hlast : s.Completes last) (hkeeps : library.KeepsOut s.project) (hagain : again.Undisturbed) :
    (s.run last).taken again = [] ∧
    (∃ report, (s.run last).report = some report ∧
      ((s.run last).analyze again.sink again.listener).1 = .ok report) ∧
    (s.run last).run again = s.run last := by
  have hset : s.settings.analysis = true := by
    rw [hs, settings_after]
    exact hanalysis
  have hset' : (s.run last).settings.analysis = true := by rwa [settings_run]
  have hqueued : s.Queued := by
    rw [hs]
    exact Queued.create.after hanalysis
  have hlibrary : s.library.KeepsOut s.project := by
    have heq : s.library = library := by rw [hs, library_after]; rfl
    rwa [heq]
  obtain ⟨w, hw, hqueue, hcancelled, hstatus⟩ := hlast.at_rest hset
  have hpending : (s.run last).pending = w :=
    pending_eq hw fun x hx => seen_of_known_run hqueued hset hlibrary hx
  have hsame : (s.run last).run again = s.run last :=
    run_eq_self hagain hset' hw hpending hqueue hcancelled hstatus
  refine ⟨?_, ?_, hsame⟩
  · simp [taken, hpending, hqueue]
  · obtain ⟨report, hok, hreport, -⟩ := (s.run last).analyze_eq_ok (r := again) hset'
    rw [hsame] at hreport
    exact ⟨report, hreport, hok⟩

/-! ## A run after a run that goes on -/

/-- A class of the project that extends one from outside is analyzed by a run that is cancelled, and
another class comes in. -/
def resumedSession : Session := (create { packages := ["p"] } (.catalogue (.ofList
    [{ id := "lib.A", methods := [⟨"lib.A.run()", ⟨0x401⟩⟩] }]))).after
  [.intake (.ingest (.ofClass "p" "p.B" (some "lib.A") ["run"])),
    .analysis ⟨Tracker.sink, ⟨{}, true⟩⟩,
    .intake (.ingest (.ofClass "p" "p.C" (some "p.B") ["run"]))]

/-- The run that goes on finds overrides, and the one that keeps track after that does nothing. -/
theorem run_run_eq_resumed :
    (resumedSession.run .silent).store.tuplesOf .overrides = 3 ∧
      (resumedSession.run .silent).taken ⟨Tracker.sink, ⟨{}, false⟩⟩ = [] ∧
      (resumedSession.run .silent).run ⟨Tracker.sink, ⟨{}, false⟩⟩ = resumedSession.run .silent := by
  have hlast : resumedSession.Completes .silent := by
    unfold Completes
    decide +kernel
  have hpatient : Tracker.sink.Patient := by
    rintro t (_ | _ | _) <;> rfl
  have hagain : Run.Undisturbed ⟨Tracker.sink, ⟨{}, false⟩⟩ := ⟨hpatient, rfl⟩
  obtain ⟨htaken, -, hsame⟩ := run_run_eq (s := resumedSession) rfl rfl hlast
    (Catalogue.keepsOut (by decide +kernel)) hagain
  exact ⟨by decide +kernel, htaken, hsame⟩

end Session
end CodeAtlas
