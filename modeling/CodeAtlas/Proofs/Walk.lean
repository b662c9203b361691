import CodeAtlas.Path
import Mathlib.Data.List.Chain

/-!
# Paths are walks

An edge that does not lead to the top of a path is refused, and the path stays as it is. So whatever
edges are tried in whatever order, those that are on the path fit together. Read from the newest to
the oldest they are a walk, from the top of the path to where its oldest edge leads. Nothing is said
here about whether the edges are recorded facts.

## Main definitions

* `Path.attempt`, with `Path.pushAll` and `Path.verdicts`: try edges one after the other.
* `Path.Connected`: each edge leads to where the one before it leaves from.
* `Walk`: edges that lead from one element to another.
* `Path.pushAll_connected`: what becomes of any edges that are tried on an empty path.
-/
namespace CodeAtlas

/-- Edges that lead from one element to another, each of them from where the one before it leads
to. -/
inductive Walk : Element → List Edge → Element → Prop
  | refl (a : Element) : Walk a [] a
  | step (e : Edge) {es : List Edge} {b : Element} :
      Walk e.target es b → Walk e.source (e :: es) b

theorem walk_of_isChain {e : Edge} {es : List Edge}
    (h : (e :: es).IsChain fun a b => a.target = b.source) :
    Walk e.source (e :: es) ((e :: es).getLast (List.cons_ne_nil e es)).target := by
  induction es generalizing e with
  | nil => exact .step e (.refl e.target)
  | cons f es ih =>
    obtain ⟨hjoin, hrest⟩ := List.isChain_cons_cons.mp h
    refine .step e ?_
    rw [hjoin, List.getLast_cons (List.cons_ne_nil f es)]
    exact ih hrest

namespace Path

variable {p : Path} {e newest oldest : Edge} {es before after : List Edge}

/-- Try to put an edge on a path: what comes of it, and the path from then on. -/
def attempt (p : Path) (e : Edge) : Except Fault Unit × Path :=
  match p.push e with
  | .ok q => (.ok (), q)
  | .error fault => (.error fault, p)

/-- Try to put edges on a path one after the other. -/
def pushAll (p : Path) (es : List Edge) : Path := es.foldl (fun p e => (p.attempt e).2) p

/-- What comes of each of them. -/
def verdicts (p : Path) : List Edge → List (Except Fault Unit)
  | [] => []
  | e :: es => (p.attempt e).1 :: (p.attempt e).2.verdicts es

/-- Those of them that are put on. -/
def pushed (p : Path) (es : List Edge) : List Edge :=
  ((es.zip (p.verdicts es)).filter (·.2.isOk)).map (·.1)

@[simp] theorem pushAll_cons : p.pushAll (e :: es) = (p.attempt e).2.pushAll es := rfl

/-! ## One edge -/

/-- An edge fits on a path if it leads to the top, or if there is none. -/
def Fits (p : Path) (e : Edge) : Prop := ∀ newest ∈ p.edges.getLast?, e.target = newest.source

theorem fits_iff : p.Fits e ↔
    p.edges = [] ∨ ∃ newest, p.edges.getLast? = some newest ∧ e.target = newest.source := by
  rw [Fits, ← List.getLast?_eq_none_iff]
  cases p.edges.getLast? <;> simp

/-- An edge that fits is put behind the others. -/
theorem attempt_of_fits (h : p.Fits e) : p.attempt e = (.ok (), ⟨p.edges ++ [e]⟩) := by
  unfold attempt push
  cases hlast : p.edges.getLast? with
  | none => rfl
  | some newest => simp only [(h newest hlast).symm, if_true]

/-- Any other edge is refused, and the path stays as it is. -/
theorem attempt_of_not_fits (h : ¬ p.Fits e) : ∃ top, p.top = .ok top ∧
    p.attempt e = (.error (.disconnectedEdge e.text top.id), p) := by
  obtain ⟨newest, hlast, hne⟩ : ∃ newest, p.edges.getLast? = some newest ∧
      e.target ≠ newest.source := by simpa [Fits] using h
  refine ⟨newest.source, by rw [top, hlast], ?_⟩
  rw [attempt, push, hlast]
  simp only [if_neg hne.symm]

theorem attempt_eq_ok_iff : (p.attempt e).1 = .ok () ↔ p.Fits e := by
  by_cases h : p.Fits e
  · simp [attempt_of_fits h, h]
  · obtain ⟨top, -, hattempt⟩ := attempt_of_not_fits h
    simp [hattempt, h]

/-! ## Connected paths -/

/-- Each edge leads to where the edge before it leaves from. -/
def Connected (p : Path) : Prop := p.edges.IsChain fun older newer => newer.target = older.source

theorem connected_empty : ({} : Path).Connected := List.isChain_nil

/-- Whatever edge is tried, the path stays connected. -/
theorem Connected.attempt (h : p.Connected) (e : Edge) : (p.attempt e).2.Connected := by
  by_cases hfits : p.Fits e
  · rw [attempt_of_fits hfits]
    refine List.isChain_append.mpr ⟨h, List.isChain_singleton e, ?_⟩
    intro newest hnewest newcomer hnewcomer
    obtain rfl : e = newcomer := by simpa using hnewcomer
    exact hfits newest hnewest
  · obtain ⟨top, -, hattempt⟩ := attempt_of_not_fits hfits
    rw [hattempt]
    exact h

theorem Connected.pushAll (h : p.Connected) (es : List Edge) : (p.pushAll es).Connected := by
  induction es generalizing p with
  | nil => exact h
  | cons e es ih => exact ih (h.attempt e)

/-- **The edges of a connected path are a walk**, from its top to where its oldest edge leads. -/
theorem Connected.walk (h : p.Connected) (holdest : p.edges.head? = some oldest) :
    ∃ top, p.top = .ok top ∧ Walk top p.edges.reverse oldest.target := by
  have hreverse : p.edges.reverse.IsChain fun a b => a.target = b.source :=
    List.isChain_reverse.mpr h
  cases hrev : p.edges.reverse with
  | nil => simp [List.reverse_eq_nil_iff.mp hrev] at holdest
  | cons newest older =>
    have hedges : p.edges = (newest :: older).reverse := by rw [← hrev, List.reverse_reverse]
    rw [hrev] at hreverse
    have hlast : (newest :: older).getLast (List.cons_ne_nil newest older) = oldest := by
      rw [hedges, List.head?_reverse,
        List.getLast?_eq_some_getLast (List.cons_ne_nil newest older)] at holdest
      exact Option.some.inj holdest
    refine ⟨newest.source, by simp [top, hedges], ?_⟩
    rw [← hlast]
    exact walk_of_isChain hreverse

/-! ## All edges that are tried -/

/-- The edges that are put on stand behind those that were there, in the order in which they were
tried. -/
theorem edges_pushAll : (p.pushAll es).edges = p.edges ++ p.pushed es := by
  induction es generalizing p with
  | nil => simp [pushAll, pushed]
  | cons e es ih =>
    rw [pushAll_cons, ih]
    by_cases hfits : p.Fits e
    · simp [pushed, verdicts, attempt_of_fits hfits, Except.isOk, Except.toBool]
    · obtain ⟨top, -, hattempt⟩ := attempt_of_not_fits hfits
      simp [pushed, verdicts, hattempt, Except.isOk, Except.toBool]

theorem getElem?_verdicts : (p.verdicts (before ++ e :: after))[before.length]?
    = some ((p.pushAll before).attempt e).1 := by
  induction before generalizing p with
  | nil => rfl
  | cons first before ih => exact ih

/-- **The edges on a path are connected, whatever edges have been tried.** Let edges be tried on a
path without edges. Each of them is put on if and only if the path has none yet or it leads to where
the newest one leaves from. Otherwise it is refused as disconnected, and the path stays as it is. So
the edges on the path are those that were put on, in their order, and each leads to where the one
before it leaves from. From the newest to the oldest they are a walk, from the top of the path to
where the oldest leads. -/
theorem pushAll_connected (es : List Edge) :
    let p : Path := ({} : Path).pushAll es
    (∀ before e after, es = before ++ e :: after →
      let q : Path := ({} : Path).pushAll before
      (({} : Path).verdicts es)[before.length]? = some (q.attempt e).1 ∧
      ((q.attempt e).1 = .ok () ↔
        q.edges = [] ∨ ∃ newest, q.edges.getLast? = some newest ∧ e.target = newest.source) ∧
      ((q.attempt e).1 ≠ .ok () → ∃ top, q.top = .ok top ∧
        q.attempt e = (.error (.disconnectedEdge e.text top.id), q))) ∧
    p.edges = ({} : Path).pushed es ∧
    (∀ (i : Nat) (h : i + 1 < p.edges.length), p.edges[i + 1].target = p.edges[i].source) ∧
    ∀ oldest, p.edges.head? = some oldest →
      ∃ top, p.top = .ok top ∧ Walk top p.edges.reverse oldest.target := by
  intro p
  have hconnected : p.Connected := connected_empty.pushAll es
  refine ⟨?_, edges_pushAll, List.isChain_iff_getElem.mp hconnected, fun oldest => hconnected.walk⟩
  rintro before e after rfl
  intro q
  refine ⟨getElem?_verdicts, attempt_eq_ok_iff.trans fits_iff, fun hrefused => ?_⟩
  exact attempt_of_not_fits (mt attempt_eq_ok_iff.mpr hrefused)

/-! ## Three calls -/

/-- A method without parameters. -/
def caller : Element := ⟨"p.A.a()", .method "p.A" "a" [], by decide +kernel⟩

/-- The method that it calls. -/
def relay : Element := ⟨"p.B.b()", .method "p.B" "b" [], by decide +kernel⟩

/-- The method that this one calls in its turn. -/
def callee : Element := ⟨"p.C.c()", .method "p.C" "c" [], by decide +kernel⟩

/-- A call, one that does not lead to where it leaves from though it does leave from there, and one
that leads there. -/
def triedCalls : List Edge :=
  [⟨relay, ⟨.calls, false⟩, callee⟩, ⟨relay, ⟨.calls, false⟩, caller⟩,
    ⟨caller, ⟨.calls, false⟩, relay⟩]

/-- The second call is refused, and the two others are a walk. -/
theorem pushAll_connected_calls :
    (({} : Path).verdicts triedCalls)[1]?
        = some (.error (.disconnectedEdge "p.B.b() -CALLS-> p.A.a()" "p.B.b()")) ∧
      (({} : Path).pushAll triedCalls).edges = ({} : Path).pushed triedCalls ∧
      ∃ top, (({} : Path).pushAll triedCalls).top = .ok top ∧
        Walk top (({} : Path).pushAll triedCalls).edges.reverse callee := by
  obtain ⟨hverdict, hedges, -, hwalk⟩ := pushAll_connected triedCalls
  obtain ⟨hsecond, -, hrefused⟩ := hverdict (triedCalls.take 1) ⟨relay, ⟨.calls, false⟩, caller⟩
    (triedCalls.drop 2) rfl
  obtain ⟨top, htop, hattempt⟩ := hrefused (by decide +kernel)
  refine ⟨?_, hedges, hwalk ⟨relay, ⟨.calls, false⟩, callee⟩ (by decide +kernel)⟩
  have hrelay : (({} : Path).pushAll (triedCalls.take 1)).top = .ok relay := by decide +kernel
  obtain rfl : relay = top := Except.ok.inj (hrelay.symm.trans htop)
  rw [hattempt] at hsecond
  exact hsecond

end Path
end CodeAtlas
