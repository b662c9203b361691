import CodeAtlas.Proofs.Fingerprint
import CodeAtlas.Proofs.Session.Intake

/-!
# What the identity of a session covers

The identity of a session is the digest of a text. Populating the session adds to that text the
canonical texts of the units that are accepted, in their order. A unit that is taken in by itself
adds nothing, though it is accepted all the same. So the text covers all accepted units just if none
of them came in by itself. Of those that it does cover it tells everything: two sessions hash the
same bytes only if they were populated with the same units in the same order.

## Main definitions

* `Intake.accepts`, `Intake.notes`: the units that an intake accepts, and those of them that the
  identity covers from then on.
* `Session.stream_intakeAll`: what is hashed.
* `Session.stream_covers_iff`: when all accepted units are covered.
-/
namespace CodeAtlas

open SourceUnit (framed framed_append framed_injective)

/-- The units that an intake accepts. -/
def Intake.accepts (failFast : Bool) : Intake → List SourceUnit
  | populate _ _ items => accepted failFast items
  | ingest u => accepted failFast [.ok u]
  | registerPackage _ | declare .. => []

/-- The units that an intake adds to the identity of the session: those that a population
accepts. -/
def Intake.notes (failFast : Bool) : Intake → List SourceUnit
  | populate _ _ items => accepted failFast items
  | ingest _ | registerPackage _ | declare .. => []

/-! ## Which accepted units are noted -/

section Notes
variable {failFast : Bool} {is : List Intake} {u : SourceUnit}

theorem accepted_ok_eq_nil : accepted failFast [.ok u] = [] ↔ isRejected (.ok u) = true := by
  cases h : u.flaw? with
  | none => simp [accepted_cons_ok h, isRejected, h]
  | some flaw => simp [accepted, isRejected, h]

theorem length_notes_le (failFast : Bool) (i : Intake) :
    (i.notes failFast).length ≤ (i.accepts failFast).length := by
  cases i <;> simp [Intake.notes, Intake.accepts]

theorem length_flatMap_notes_le (failFast : Bool) (is : List Intake) :
    (is.flatMap (·.notes failFast)).length ≤ (is.flatMap (·.accepts failFast)).length := by
  induction is with
  | nil => simp
  | cons i is ih =>
    have hi := length_notes_le failFast i
    simp only [List.flatMap_cons, List.length_append]
    omega

theorem notes_eq_accepts_iff {i : Intake} : i.notes failFast = i.accepts failFast ↔
    ∀ u, i = .ingest u → isRejected (.ok u) = true := by
  cases i with
  | ingest u =>
    rw [Intake.notes, Intake.accepts, eq_comm, accepted_ok_eq_nil]
    simp
  | populate | registerPackage | declare => simp [Intake.notes, Intake.accepts]

/-- All accepted units are noted just if none is accepted by itself. -/
theorem flatMap_notes_eq_iff :
    is.flatMap (·.notes failFast) = is.flatMap (·.accepts failFast) ↔
      ∀ u, .ingest u ∈ is → isRejected (.ok u) = true := by
  induction is with
  | nil => simp
  | cons i is ih =>
    have hfirst := length_notes_le failFast i
    have hrest := length_flatMap_notes_le failFast is
    -- neither part is longer than its counterpart, so both are as long
    have hparts : i.notes failFast ++ is.flatMap (·.notes failFast)
        = i.accepts failFast ++ is.flatMap (·.accepts failFast) ↔
        i.notes failFast = i.accepts failFast ∧
          is.flatMap (·.notes failFast) = is.flatMap (·.accepts failFast) := by
      constructor
      · intro h
        have hlength := congrArg List.length h
        simp only [List.length_append] at hlength
        exact List.append_inj h (by omega)
      · rintro ⟨hi, his⟩
        rw [hi, his]
    rw [List.flatMap_cons, List.flatMap_cons, hparts, notes_eq_accepts_iff, ih, ← forall_and]
    refine forall_congr' fun u => ?_
    rw [List.mem_cons, or_imp, eq_comm]

end Notes

namespace Session

variable {s : Session} {i : Intake} {is : List Intake}

theorem fingerprint_ingest (u : SourceUnit) : (s.ingest u).2.fingerprint = s.fingerprint := by
  obtain ⟨qs, ⟨-, h⟩ | ⟨flaw, -, h⟩⟩ := s.ingest_cases u <;> rw [h]

theorem fingerprint_declare (k : Key) (m : Modifiers) :
    (s.declare k m).2.fingerprint = s.fingerprint := by
  obtain ⟨qs, h⟩ := s.declare_eq k m
  rw [h]

theorem stream_intake : (s.intake i).fingerprint.stream
    = s.fingerprint.stream ++ framed (i.notes s.settings.failFast) := by
  cases i with
  | populate sink l items =>
    obtain ⟨registry, h⟩ := s.same_populate sink l items
    show (s.populate sink items l).2.2.fingerprint.stream = _
    rw [h]
    exact Fingerprint.stream_foldl_update _ _
  | ingest u =>
    show (s.ingest u).2.fingerprint.stream = _
    rw [fingerprint_ingest]
    simp [Intake.notes, framed]
  | registerPackage name => simp [intake, registerPackage, Intake.notes, framed]
  | declare k m =>
    show (s.declare k m).2.fingerprint.stream = _
    rw [fingerprint_declare]
    simp [Intake.notes, framed]

/-- What is hashed grows by the canonical texts of the noted units. -/
theorem stream_intakeAll (s : Session) (is : List Intake) : (s.intakeAll is).fingerprint.stream
    = s.fingerprint.stream ++ framed (is.flatMap (·.notes s.settings.failFast)) := by
  induction is generalizing s with
  | nil => simp [intakeAll, framed]
  | cons i is ih =>
    have hrest := ih (s.intake i)
    rw [settings_intake, stream_intake, String.append_assoc, ← framed_append] at hrest
    exact hrest

/-- **The identity of a session covers the units that it was populated with.** What is hashed grows
by their canonical texts, in their order. It covers all units that were accepted if and only if no
unit was accepted by itself. Two sessions hash the same bytes if and only if they were populated
with the same units in the same order. -/
theorem stream_covers_iff (s : Session) (is : List Intake) :
    (s.intakeAll is).fingerprint.stream
      = s.fingerprint.stream ++ framed (is.flatMap (·.notes s.settings.failFast)) ∧
    ((s.intakeAll is).fingerprint.stream
        = s.fingerprint.stream ++ framed (is.flatMap (·.accepts s.settings.failFast)) ↔
      ∀ u, .ingest u ∈ is → isRejected (.ok u) = true) ∧
    ∀ (settings settings' : Settings) (library library' : Library) (js : List Intake),
      ((create settings library).intakeAll is).fingerprint.stream.toUTF8
          = ((create settings' library').intakeAll js).fingerprint.stream.toUTF8 ↔
        is.flatMap (·.notes settings.failFast) = js.flatMap (·.notes settings'.failFast) := by
  refine ⟨s.stream_intakeAll is, ?_, ?_⟩
  · rw [stream_intakeAll, String.append_right_inj, framed_injective.eq_iff]
    exact flatMap_notes_eq_iff
  · intro settings settings' library library' js
    have hbytes : ∀ a b : String, a.toUTF8 = b.toUTF8 ↔ a = b := fun _ _ => String.toByteArray_inj
    rw [hbytes, stream_intakeAll, stream_intakeAll]
    exact (String.append_right_inj "").trans framed_injective.eq_iff

/-- A unit that a population accepts, and another one that is taken in by itself. -/
def mixedIntakes : List Intake :=
  [.populate .silent ⟨(), false⟩ [.ok (.ofClass "p" "p.A" none ["run"])],
    .ingest (.ofClass "p" "p.C" (some "p.A") ["run"])]

/-- Only the first of the two units is hashed. -/
theorem stream_covers_iff_mixed :
    ((create {} .absent).intakeAll mixedIntakes).fingerprint.stream
        = framed [.ofClass "p" "p.A" none ["run"]] ∧
      ((create {} .absent).intakeAll mixedIntakes).fingerprint.stream
        ≠ framed [.ofClass "p" "p.A" none ["run"], .ofClass "p" "p.C" (some "p.A") ["run"]] := by
  obtain ⟨hstream, hcovers, -⟩ := stream_covers_iff (create {} .absent) mixedIntakes
  have hnotes : mixedIntakes.flatMap (·.notes true) = [.ofClass "p" "p.A" none ["run"]] := by
    decide +kernel
  have haccepts : mixedIntakes.flatMap (·.accepts true)
      = [.ofClass "p" "p.A" none ["run"], .ofClass "p" "p.C" (some "p.A") ["run"]] := by
    decide +kernel
  have hempty : (create {} .absent).fingerprint.stream = "" := rfl
  have hfast : (create {} .absent).settings.failFast = true := rfl
  rw [hempty, String.empty_append, hfast] at hstream hcovers
  rw [hnotes] at hstream
  rw [haccepts] at hcovers
  refine ⟨hstream, fun hall => ?_⟩
  have hrejected := hcovers.mp hall (.ofClass "p" "p.C" (some "p.A") ["run"]) (.tail _ (.head _))
  exact absurd hrejected (by decide +kernel)

/-- A session that has accepted a unit by itself has the identity of one that has accepted none. -/
theorem snapshot_misses_ingested :
    ((create {} .absent).ingest { path := "A.java" }).1 = .ok () ∧
      ((create {} .absent).intakeAll [.ingest { path := "A.java" }]).fingerprint.stream
        ≠ framed ([Intake.ingest { path := "A.java" }].flatMap (·.accepts true)) ∧
      ((create {} .absent).intakeAll [.ingest { path := "A.java" }]).snapshot
        = (create {} .absent).snapshot := by
  refine ⟨by decide +kernel, by decide +kernel, ?_⟩
  have hstream : ((create {} .absent).intakeAll [.ingest { path := "A.java" }]).fingerprint
      = (create {} .absent).fingerprint := fingerprint_ingest _
  rw [snapshot, hstream, snapshot]

end Session
end CodeAtlas
