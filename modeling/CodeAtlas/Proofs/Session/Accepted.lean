import CodeAtlas.Proofs.Session.Preparation
import Mathlib.Tactic.ByContra

/-!
# What populating accepts

Populating goes through a list of items, each of which is a unit or the fault that there is none. An
item is rejected if it is a fault or a unit with a flaw. What populating makes of a session is told
by the units that are accepted and by the number of items that are passed over: the facts, the
packages, the fingerprint and the counts all come from these, and only the instances of elements tell
more. It fails just if a rejected item ends the work.

## Main definitions

* `isRejected`, `accepted`: the items that are not taken in, and the units that are.
* `Session.Same`: sessions that differ in their registries at most.
* `Session.absorb`: a session with some units taken in and a number of items passed over.
* `Session.same_populate`: what populating makes of a session.
* `Session.populate_error_iff`: when populating fails.
-/
namespace CodeAtlas

/-! ## Accepted and rejected items -/

/-- Whether an item is not taken in: a fault, or a unit with a flaw. -/
def isRejected : Except Fault SourceUnit → Bool
  | .error _ => true
  | .ok u => u.flaw?.isSome

/-- The units of a list that are taken in: the flawless ones, or those before the first that is
not. -/
def accepted (failFast : Bool) : List (Except Fault SourceUnit) → List SourceUnit
  | [] => []
  | item :: rest =>
    match item with
    | .error _ => if failFast then [] else accepted failFast rest
    | .ok u =>
      match u.flaw? with
      | none => u :: accepted failFast rest
      | some _ => if failFast then [] else accepted failFast rest

/-- A fault that becomes a flaw of a unit names a unit. -/
theorem Fault.ofUnit_eq_extraction (fault : Fault) (unit : String) :
    ∃ named flaw, fault.ofUnit unit = .extraction named flaw := by
  cases fault <;> exact ⟨_, _, rfl⟩

section Accepted

variable {item : Except Fault SourceUnit} {u : SourceUnit}
  {items more : List (Except Fault SourceUnit)} {failFast : Bool}

theorem accepted_cons_ok (h : u.flaw? = none) :
    accepted failFast (.ok u :: items) = u :: accepted failFast items := by
  simp [accepted, h]

theorem accepted_cons_of_isRejected (h : isRejected item = true) :
    accepted failFast (item :: items) = if failFast then [] else accepted failFast items := by
  cases item with
  | error fault => rfl
  | ok u =>
    obtain ⟨flaw, hflaw⟩ := Option.isSome_iff_exists.mp h
    simp [accepted, hflaw]

theorem flaw?_of_mem_accepted (h : u ∈ accepted failFast items) : u.flaw? = none := by
  induction items with
  | nil => simp [accepted] at h
  | cons item rest ih =>
    cases item <;> simp only [accepted] at h <;> grind

/-- An item is a unit without a flaw, or it is rejected. -/
theorem ok_or_isRejected (item : Except Fault SourceUnit) :
    (∃ u, item = .ok u ∧ u.flaw? = none) ∨ isRejected item = true := by
  cases item with
  | error fault => exact .inr rfl
  | ok u =>
    cases h : u.flaw? with
    | none => exact .inl ⟨u, rfl, h⟩
    | some flaw => exact .inr (by simp [isRejected, h])

/-- What is accepted of two lists is accepted of each of them, if rejected items are passed over. -/
theorem accepted_append : accepted false (items ++ more)
    = accepted false items ++ accepted false more := by
  induction items with
  | nil => rfl
  | cons item items ih =>
    rcases ok_or_isRejected item with ⟨u, rfl, hu⟩ | h
    · rw [List.cons_append, accepted_cons_ok hu, accepted_cons_ok hu, ih, List.cons_append]
    · rw [List.cons_append, accepted_cons_of_isRejected h, accepted_cons_of_isRejected h, ih]
      simp

/-- Nothing is accepted from the first rejected item on, if that ends the work. -/
theorem accepted_append_of_isRejected (h : isRejected item = true) :
    accepted true (items ++ item :: more) = accepted true items := by
  induction items with
  | nil => exact accepted_cons_of_isRejected h
  | cons first items ih =>
    rcases ok_or_isRejected first with ⟨u, rfl, hu⟩ | hfirst
    · rw [List.cons_append, accepted_cons_ok hu, accepted_cons_ok hu, ih]
    · rw [List.cons_append, accepted_cons_of_isRejected hfirst, accepted_cons_of_isRejected hfirst]
      simp

/-- Units without flaws are all accepted. -/
theorem accepted_map_ok {us : List SourceUnit} (h : ∀ u ∈ us, u.flaw? = none) :
    accepted failFast (us.map .ok) = us := by
  induction us with
  | nil => rfl
  | cons u us ih =>
    obtain ⟨hu, hus⟩ := List.forall_mem_cons.mp h
    rw [List.map_cons, accepted_cons_ok hu, ih hus]

theorem countP_isRejected_map_ok {us : List SourceUnit} (h : ∀ u ∈ us, u.flaw? = none) :
    (us.map Except.ok).countP isRejected = 0 := by
  rw [List.countP_eq_zero]
  intro item hitem
  obtain ⟨u, hu, rfl⟩ := List.mem_map.mp hitem
  simp [isRejected, h u hu]

end Accepted

/-! ## Sessions up to their registries -/

namespace Session

/-- The second session is the first one with other instances of elements. -/
def Same (s t : Session) : Prop := ∃ registry, t = { s with registry }

theorem Same.refl (s : Session) : s.Same s := ⟨s.registry, rfl⟩

theorem Same.symm {s t : Session} : s.Same t → t.Same s := by
  rintro ⟨registry, rfl⟩
  exact ⟨s.registry, rfl⟩

theorem Same.trans {s t u : Session} : s.Same t → t.Same u → s.Same u := by
  rintro ⟨registry, rfl⟩ ⟨registry', rfl⟩
  exact ⟨registry', rfl⟩

/-- The session with units taken in, noted and counted, and with a number of items passed over. -/
def absorb (s : Session) (us : List SourceUnit) (skipped : Nat) : Session :=
  { s with
    project := us.foldl Packages.take s.project
    store := us.foldl Store.take s.store
    fingerprint := us.foldl Fingerprint.update s.fingerprint
    tally := ⟨s.tally.ingested + us.length, s.tally.skipped + skipped⟩ }

theorem absorb_absorb (s : Session) (us vs : List SourceUnit) (m n : Nat) :
    (s.absorb us m).absorb vs n = s.absorb (us ++ vs) (m + n) := by
  simp only [absorb, List.foldl_append, List.length_append, Nat.add_assoc]

theorem Same.absorb {s t : Session} (us : List SourceUnit) (n : Nat) :
    s.Same t → (s.absorb us n).Same (t.absorb us n) := by
  rintro ⟨registry, rfl⟩
  exact ⟨registry, rfl⟩

theorem Same.settings_eq {s t : Session} : s.Same t → t.settings = s.settings := by
  rintro ⟨registry, rfl⟩
  rfl

/-! ## One item -/

variable {s t : Session} {item : Except Fault SourceUnit} {u : SourceUnit}
  {items : List (Except Fault SourceUnit)}

theorem accept_of_flawless (h : u.flaw? = none) (n : Nat) :
    ∃ t, s.accept n (.ok u) = (.ok (), t) ∧ (s.absorb [u] 0).Same t := by
  obtain ⟨registry, hingest⟩ := s.ingest_of_flawless h
  simp only [accept, hingest]
  exact ⟨_, rfl, registry, rfl⟩

theorem accept_of_isRejected (h : isRejected item = true) (n : Nat) :
    ∃ t named flaw, s.accept n item = (.error (.extraction named flaw), t) ∧ s.Same t := by
  cases item with
  | error fault =>
    obtain ⟨named, flaw, hfault⟩ := fault.ofUnit_eq_extraction ("unit #" ++ toString n)
    exact ⟨s, named, flaw, by rw [accept, hfault], .refl s⟩
  | ok u =>
    obtain ⟨flaw, hflaw⟩ := Option.isSome_iff_exists.mp h
    obtain ⟨registry, hingest⟩ := s.ingest_of_flaw hflaw
    simp only [accept, hingest]
    exact ⟨_, u.path, flaw, rfl, registry, rfl⟩

/-! ## A list of items -/

variable {σ : Type} {sink : Sink σ} {l : Listener σ} {n : Nat}

/-- The number of items of a list that are passed over. -/
def passedOver (s : Session) (items : List (Except Fault SourceUnit)) : Nat :=
  if s.settings.failFast then 0 else items.countP isRejected

theorem passedOver_congr (h : t.settings = s.settings) :
    t.passedOver items = s.passedOver items := by
  rw [passedOver, h, passedOver]

/-- Units are taken in, noted and counted as far as they are accepted. -/
theorem same_acceptAll (s : Session) (sink : Sink σ) (l : Listener σ) (n : Nat)
    (items : List (Except Fault SourceUnit)) :
    (s.absorb (accepted s.settings.failFast items) (s.passedOver items)).Same
      (acceptAll sink n items l s).2.2 := by
  induction items generalizing n l s with
  | nil =>
    simp only [accepted, passedOver, List.countP_nil, ite_self, acceptAll]
    exact .refl s
  | cons item items ih =>
    rcases ok_or_isRejected item with ⟨u, rfl, hu⟩ | h
    · obtain ⟨t, haccept, hsame⟩ := s.accept_of_flawless hu n
      have hpassed : s.passedOver (.ok u :: items) = 0 + s.passedOver items := by
        simp [passedOver, isRejected, hu]
      have hrest := ih t (l.tell sink (.worked 1)) (n + 1)
      rw [passedOver_congr hsame.settings_eq, hsame.settings_eq] at hrest
      rw [acceptAll, haccept, accepted_cons_ok hu, hpassed, ← List.singleton_append,
        ← absorb_absorb]
      exact (hsame.absorb _ _).trans hrest
    · obtain ⟨t, named, flaw, haccept, hsame⟩ := s.accept_of_isRejected h n
      rw [acceptAll, haccept, accepted_cons_of_isRejected h]
      simp only [hsame.settings_eq]
      cases hfast : s.settings.failFast with
      | true =>
        simp only [passedOver, hfast, if_true]
        exact hsame
      | false =>
        have hpassed : s.passedOver (item :: items) = 1 + s.passedOver items := by
          simp [passedOver, hfast, h, Nat.add_comm]
        have hskip : (s.absorb [] 1).Same t.skip := by
          obtain ⟨registry, rfl⟩ := hsame
          exact ⟨registry, rfl⟩
        have hrest := ih t.skip (l.tell sink (.worked 1)) (n + 1)
        have hset : t.skip.settings = s.settings := hsame.settings_eq
        rw [passedOver_congr hset, hset, hfast] at hrest
        simp only [Bool.false_eq_true, if_false]
        rw [hpassed, ← List.nil_append (accepted false items), ← absorb_absorb]
        exact (hskip.absorb _ _).trans hrest

/-- If rejected items do not end the work, or there are none, all items are dealt with. -/
theorem acceptAll_eq_ok
    (h : s.settings.failFast = true → ∀ item ∈ items, isRejected item = false) :
    (acceptAll sink n items l s).1 = .ok () := by
  induction items generalizing n l s with
  | nil => rfl
  | cons item items ih =>
    rcases ok_or_isRejected item with ⟨u, rfl, hu⟩ | hbad
    · obtain ⟨t, haccept, hsame⟩ := s.accept_of_flawless hu n
      rw [acceptAll, haccept]
      apply ih
      rw [hsame.settings_eq]
      intro hfast item hitem
      exact h hfast item (.tail _ hitem)
    · obtain ⟨t, named, flaw, haccept, hsame⟩ := s.accept_of_isRejected hbad n
      cases hfast : s.settings.failFast with
      | true => simp [h hfast item (.head _)] at hbad
      | false =>
        rw [acceptAll, haccept]
        simp only [hsame.settings_eq, hfast, Bool.false_eq_true, if_false]
        have hset : t.skip.settings = s.settings := hsame.settings_eq
        apply ih
        intro hskip
        rw [hset, hfast] at hskip
        cases hskip

/-- If rejected items end the work, one of them makes it fail. -/
theorem acceptAll_eq_error (sink : Sink σ) (l : Listener σ) (n : Nat)
    (hfast : s.settings.failFast = true) (hitem : item ∈ items) (hbad : isRejected item = true) :
    ∃ named flaw, (acceptAll sink n items l s).1 = .error (.extraction named flaw) := by
  induction items generalizing n l s with
  | nil => cases hitem
  | cons first items ih =>
    rcases ok_or_isRejected first with ⟨u, rfl, hu⟩ | hfirst
    · obtain ⟨t, haccept, hsame⟩ := s.accept_of_flawless hu n
      rw [acceptAll, haccept]
      apply ih
      · rwa [hsame.settings_eq]
      · refine (List.mem_cons.mp hitem).resolve_left ?_
        rintro rfl
        simp [isRejected, hu] at hbad
    · obtain ⟨t, named, flaw, haccept, hsame⟩ := s.accept_of_isRejected hfirst n
      rw [acceptAll, haccept]
      simp only [hsame.settings_eq, hfast, if_true]
      exact ⟨named, flaw, rfl⟩

/-! ## Populating -/

/-- Beyond the items, the listener is told that populating begins and ends. -/
theorem populate_eq (s : Session) (sink : Sink σ) (l : Listener σ)
    (items : List (Except Fault SourceUnit)) :
    ∃ l', ((s.populate sink items l).1
        = (acceptAll sink 0 items l' s).1.map fun _ => (s.populate sink items l).2.2.tally) ∧
      (s.populate sink items l).2.2 = (acceptAll sink 0 items l' s).2.2 := by
  refine ⟨l.tell sink (.begun .population items.length), ?_⟩
  unfold populate
  split
  next heq => simp [heq, Except.map]
  next heq => simp [heq, Except.map]

/-- Populating takes in the accepted units, notes and counts them, and counts what it passes
over. -/
theorem same_populate (s : Session) (sink : Sink σ) (l : Listener σ)
    (items : List (Except Fault SourceUnit)) :
    (s.absorb (accepted s.settings.failFast items) (s.passedOver items)).Same
      (s.populate sink items l).2.2 := by
  obtain ⟨l', -, hsession⟩ := s.populate_eq sink l items
  rw [hsession]
  exact s.same_acceptAll sink l' 0 items

theorem populate_eq_ok
    (h : s.settings.failFast = true → ∀ item ∈ items, isRejected item = false) :
    (s.populate sink items l).1 = .ok (s.populate sink items l).2.2.tally := by
  obtain ⟨l', hresult, -⟩ := s.populate_eq sink l items
  rw [hresult, acceptAll_eq_ok h]
  rfl

theorem populate_eq_error (sink : Sink σ) (l : Listener σ) (hfast : s.settings.failFast = true)
    (hitem : item ∈ items) (hbad : isRejected item = true) :
    ∃ named flaw, (s.populate sink items l).1 = .error (.extraction named flaw) := by
  obtain ⟨l', hresult, -⟩ := s.populate_eq sink l items
  obtain ⟨named, flaw, herror⟩ := acceptAll_eq_error sink l' 0 hfast hitem hbad
  refine ⟨named, flaw, ?_⟩
  rw [hresult, herror]
  rfl

/-- A population fails just if rejected items end the work and there is one. -/
theorem populate_error_iff (s : Session) (sink : Sink σ) (l : Listener σ)
    (items : List (Except Fault SourceUnit)) :
    (∃ fault, (s.populate sink items l).1 = .error fault) ↔
      s.settings.failFast = true ∧ ∃ item ∈ items, isRejected item = true := by
  constructor
  · rintro ⟨fault, hfault⟩
    by_contra! hnone
    rw [populate_eq_ok fun hfast item hitem => by simpa using hnone hfast item hitem] at hfault
    cases hfault
  · rintro ⟨hfast, item, hitem, hbad⟩
    obtain ⟨named, flaw, h⟩ := populate_eq_error sink l hfast hitem hbad
    exact ⟨_, h⟩

end Session
end CodeAtlas
