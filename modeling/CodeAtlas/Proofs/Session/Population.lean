import CodeAtlas.Proofs.Session.Acceptance

/-!
# Populating a session several times

If rejected items are passed over, neither their places nor the way in which a list is cut into
several populations make a difference: what comes of them is what comes of one population with the
accepted units. If the first rejected item ends the work, the session is left as the items before it
make it.

## Main definitions

* `Population`, with `Session.populated` and `Session.populatedAll`: populations in a row.
* `Session.populated_accepted`: what they come down to.
-/
namespace CodeAtlas

/-- A unit is rejected unless all its entries are valid. -/
theorem isRejected_ok {u : SourceUnit} :
    isRejected (.ok u) = false ↔ ∀ e ∈ u.entries, e.Valid := by
  rw [← SourceUnit.flaw?_eq_none]
  simp [isRejected]

/-! ## Several populations -/

/-- A population, told apart by its items and by who listens. -/
structure Population : Type 1 where
  {σ : Type}
  sink : Sink σ
  listener : Listener σ
  items : List (Except Fault SourceUnit)

/-- A population that nobody listens to. -/
def Population.silent (items : List (Except Fault SourceUnit)) : Population :=
  ⟨.silent, ⟨(), false⟩, items⟩

namespace Session

variable {s : Session}

/-- Populate a session. -/
def populated (s : Session) (p : Population) : Session :=
  (s.populate p.sink p.items p.listener).2.2

/-- Populate a session several times. -/
def populatedAll (s : Session) (ps : List Population) : Session := ps.foldl populated s

/-- Populating, if rejected items are passed over. -/
theorem same_populated_of_lenient (hlenient : s.settings.failFast = false) (p : Population) :
    (s.absorb (accepted false p.items) (p.items.countP isRejected)).Same (s.populated p) := by
  have h := s.same_populate p.sink p.listener p.items
  rw [passedOver, hlenient] at h
  exact h

/-- Populating, if the first rejected item ends the work. -/
theorem same_populated_of_failFast (hfast : s.settings.failFast = true) (p : Population) :
    (s.absorb (accepted true p.items) 0).Same (s.populated p) := by
  have h := s.same_populate p.sink p.listener p.items
  rw [passedOver, hfast] at h
  exact h

/-- If rejected items are passed over, several populations do what one of all their items does. -/
theorem same_populatedAll (hlenient : s.settings.failFast = false) (ps : List Population) :
    (s.absorb (accepted false (ps.flatMap Population.items))
      ((ps.flatMap Population.items).countP isRejected)).Same (s.populatedAll ps) := by
  induction ps generalizing s with
  | nil => exact .refl s
  | cons p ps ih =>
    have hfirst := same_populated_of_lenient hlenient p
    have hrest := ih (s := s.populated p) (by rw [hfirst.settings_eq]; exact hlenient)
    rw [List.flatMap_cons, accepted_append, List.countP_append, ← absorb_absorb]
    exact (hfirst.absorb _ _).trans hrest

/-- **What populating does depends on the accepted units alone.** If rejected items are passed over,
any number of populations leave the session that one population with the units they accept does,
except that rejected items are counted. If rejected items end the work, a population fails just if
there is one; then it fails with the fault of a unit, and leaves the session that a population with
the items before it does. -/
theorem populated_accepted (s : Session) :
    (s.settings.failFast = false → ∀ (ps : List Population) (p : Population),
      p.items = (accepted false (ps.flatMap Population.items)).map .ok →
      { s.populated p with
        tally.skipped := s.tally.skipped + (ps.flatMap Population.items).countP isRejected }.Same
        (s.populatedAll ps)) ∧
    (s.settings.failFast = true →
      (∀ p : Population, (∃ fault, (s.populate p.sink p.items p.listener).1 = .error fault) ↔
        ∃ item ∈ p.items, isRejected item = true) ∧
      ∀ (p q : Population) (bad : Except Fault SourceUnit) (rest : List (Except Fault SourceUnit)),
        isRejected bad = true → q.items = p.items ++ bad :: rest →
        (∃ named flaw, (s.populate q.sink q.items q.listener).1
          = .error (.extraction named flaw)) ∧
        (s.populated p).Same (s.populated q)) := by
  refine ⟨fun hlenient ps p hitems => ?_, fun hfast => ⟨fun p => ?_, ?_⟩⟩
  · have hflawless : ∀ u ∈ accepted false (ps.flatMap Population.items), u.flaw? = none :=
      fun u hu => flaw?_of_mem_accepted hu
    have hone := same_populated_of_lenient hlenient p
    rw [hitems, accepted_map_ok hflawless, countP_isRejected_map_ok hflawless] at hone
    obtain ⟨registry, hone⟩ := hone
    obtain ⟨registry', hall⟩ := same_populatedAll hlenient ps
    rw [hone, hall]
    exact ⟨registry', rfl⟩
  · simp only [populate_error_iff, hfast, true_and]
  · intro p q bad rest hbad hitems
    have hmem : bad ∈ q.items := by simp [hitems]
    refine ⟨populate_eq_error q.sink q.listener hfast hmem hbad, ?_⟩
    have hq := same_populated_of_failFast hfast q
    rw [hitems, accepted_append_of_isRejected hbad] at hq
    exact (same_populated_of_failFast hfast p).symm.trans hq

/-- A unit, a file that cannot be read, a unit with a flaw, and one that extends the first unit. -/
def mixedItems : List (Except Fault SourceUnit) :=
  [.ok (.ofClass "p" "p.A" none ["run"]), .error (.file .notFound), .ok unclosedUnit,
    .ok (.ofClass "p" "p.C" (some "p.A") ["run"])]

/-- Two of the items are accepted in two populations that pass the others over, and one of them in a
population that fails. -/
theorem populated_accepted_mixed :
    ({ (create { failFast := false } .absent).populated
          (.silent [.ok (.ofClass "p" "p.A" none ["run"]),
            .ok (.ofClass "p" "p.C" (some "p.A") ["run"])]) with
        tally.skipped := 2 }.Same
      ((create { failFast := false } .absent).populatedAll
        [.silent (mixedItems.take 2), .silent (mixedItems.drop 2)])) ∧
    (∃ fault, ((create {} .absent).populate .silent mixedItems ⟨(), false⟩).1 = .error fault) ∧
    (∃ named flaw, ((create {} .absent).populate .silent mixedItems ⟨(), false⟩).1
      = .error (.extraction named flaw)) ∧
    ((create {} .absent).populated (.silent [.ok (.ofClass "p" "p.A" none ["run"])])).Same
      ((create {} .absent).populated (.silent mixedItems)) := by
  obtain ⟨hlenient, -⟩ := populated_accepted (create { failFast := false } .absent)
  obtain ⟨-, hstrict⟩ := populated_accepted (create {} .absent)
  obtain ⟨hfails, hbefore⟩ := hstrict rfl
  have haccepted : accepted false mixedItems
      = [.ofClass "p" "p.A" none ["run"], .ofClass "p" "p.C" (some "p.A") ["run"]] := by
    decide +kernel
  have hcount : mixedItems.countP isRejected = 2 := by decide +kernel
  have hrejected : isRejected (.error (.file .notFound)) = true := rfl
  refine ⟨?_, (hfails (.silent mixedItems)).mpr ⟨_, .tail _ (.head _), hrejected⟩,
    hbefore (.silent _) (.silent mixedItems) _ _ hrejected rfl⟩
  have hitems : [Population.silent (mixedItems.take 2), .silent (mixedItems.drop 2)].flatMap
      Population.items = mixedItems := rfl
  have h := hlenient rfl [.silent (mixedItems.take 2), .silent (mixedItems.drop 2)]
    (.silent [.ok (.ofClass "p" "p.A" none ["run"]), .ok (.ofClass "p" "p.C" (some "p.A") ["run"])])
    (by rw [hitems, haccepted]; rfl)
  have hskipped : (create { failFast := false } .absent).tally.skipped + 2 = 2 := rfl
  rw [hitems, hcount, hskipped] at h
  exact h

end Session
end CodeAtlas
