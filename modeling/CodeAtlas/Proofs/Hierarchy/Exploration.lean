import CodeAtlas.Hierarchy.Overridden
import Mathlib.Data.List.Basic
import Mathlib.Data.List.Nodup
import Mathlib.Data.List.Perm.Subperm
import Mathlib.Logic.Relation

/-!
# Breadth-first search reaches everything

`explore` takes a bound on the number of elements that it visits. With a bound that covers a list
of everything that can come next, the search visits each element that can be reached from where it
starts, each once, and nothing else. So its answer does not depend on the bound.

## Main definitions

* `Leads`: one step of a search.
* `Searching`: what a search keeps true of its queue, of what it has seen and of its bound.
* `mem_tail_explore`: what is visited after the start.
-/
namespace CodeAtlas

/-- One step of a search. -/
def Leads (next : Element → List Element) (a b : Element) : Prop := b ∈ next a

section Newcomers
variable {seen : ElementSet} {l : List Element} {x : Element}

theorem mem_newcomers : x ∈ (newcomers seen l).1 ↔ x ∈ l ∧ x ∉ seen := by
  fun_induction newcomers seen l with
  | case1 => simp
  | case2 seen t rest ht ih =>
    rw [ih, List.mem_cons]
    constructor
    · rintro ⟨hx, hs⟩; exact ⟨.inr hx, hs⟩
    · rintro ⟨rfl | hx, hs⟩
      · exact absurd ht hs
      · exact ⟨hx, hs⟩
  | case3 seen t rest ht fresh seen' hn ih =>
    rw [hn] at ih
    simp only [List.mem_cons, ih, Std.ExtTreeSet.mem_insert, Std.LawfulEqCmp.compare_eq_iff_eq]
    grind

theorem mem_seen_newcomers : x ∈ (newcomers seen l).2 ↔ x ∈ seen ∨ x ∈ l := by
  fun_induction newcomers seen l with
  | case1 => simp
  | case2 seen t rest ht ih => rw [ih, List.mem_cons]; grind
  | case3 seen t rest ht fresh seen' hn ih =>
    rw [hn] at ih
    rw [ih, List.mem_cons, Std.ExtTreeSet.mem_insert, Std.LawfulEqCmp.compare_eq_iff_eq]
    grind

theorem nodup_newcomers : (newcomers seen l).1.Nodup := by
  fun_induction newcomers seen l with
  | case1 => simp
  | case2 seen t rest ht ih => exact ih
  | case3 seen t rest ht fresh seen' hn ih =>
    rw [hn] at ih
    refine List.nodup_cons.mpr ⟨?_, ih⟩
    have h : t ∉ (newcomers (seen.insert t) rest).1 := by simp [mem_newcomers]
    rwa [hn] at h

end Newcomers

/-- What a search keeps true: whatever waits has been seen, nothing waits twice, and the bound
covers what waits together with what can still come, where `all` lists everything that can come
next. -/
structure Searching (all : List Element) (n : Nat) (seen : ElementSet) (queue : List Element) :
    Prop where
  queued : ∀ x ∈ queue, x ∈ seen
  nodup : queue.Nodup
  enough : (all.filter (· ∉ seen)).length + queue.length ≤ n

variable {next : Element → List Element} {all : List Element} {n : Nat} {seen : ElementSet}
  {t : Element} {queue : List Element}

/-- The newcomers of a step are paid for by what can still come. -/
theorem length_newcomers_le {l : List Element} (hl : ∀ y ∈ l, y ∈ all) :
    (all.filter (· ∉ (newcomers seen l).2)).length + (newcomers seen l).1.length
      ≤ (all.filter (· ∉ seen)).length := by
  have hsub : (newcomers seen l).1 ⊆
      (all.filter (· ∉ seen)).filter (· ∈ (newcomers seen l).2) := by
    intro y hy
    obtain ⟨hyl, hys⟩ := mem_newcomers.mp hy
    simp [hl y hyl, hys, mem_seen_newcomers, hyl]
  have hle := (nodup_newcomers.subperm hsub).length_le
  have hrest : all.filter (· ∉ (newcomers seen l).2)
      = (all.filter (· ∉ seen)).filter (fun y => !decide (y ∈ (newcomers seen l).2)) := by
    rw [List.filter_filter]
    refine List.filter_congr fun y _ => ?_
    by_cases hy : y ∈ seen <;> simp [mem_seen_newcomers, hy]
  have hsum := List.length_eq_length_filter_add (l := all.filter (· ∉ seen))
    (fun y => decide (y ∈ (newcomers seen l).2))
  rw [hrest]
  omega

theorem Searching.step (H : Searching all (n + 1) seen (t :: queue))
    (hnext : ∀ y ∈ next t, y ∈ all) :
    Searching all n (newcomers seen (next t)).2 (queue ++ (newcomers seen (next t)).1) where
  queued x hx := by
    rw [mem_seen_newcomers]
    rcases List.mem_append.mp hx with hx | hx
    · exact .inl (H.queued x (List.mem_cons_of_mem _ hx))
    · exact .inr (mem_newcomers.mp hx).1
  nodup := by
    refine List.nodup_append.mpr ⟨(List.nodup_cons.mp H.nodup).2, nodup_newcomers, ?_⟩
    rintro x hx y hy rfl
    exact (mem_newcomers.mp hy).2 (H.queued x (List.mem_cons_of_mem _ hx))
  enough := by
    have hpaid : (all.filter (· ∉ (newcomers seen (next t)).2)).length
        + (newcomers seen (next t)).1.length ≤ (all.filter (· ∉ seen)).length :=
      length_newcomers_le hnext
    have henough := H.enough
    simp only [List.length_cons, List.length_append] at henough ⊢
    omega

/-- A search that may start at one element. -/
theorem Searching.start (h : all.length + 1 ≤ n) :
    Searching all n (.ofList [t]) [t] where
  queued x hx := by
    obtain rfl := List.mem_singleton.mp hx
    simp
  nodup := by simp
  enough := by
    have := List.length_filter_le (fun y => decide (y ∉ (Std.ExtTreeSet.ofList [t] : ElementSet))) all
    simp only [List.length_singleton]
    omega

/-- Whatever waits is visited. -/
theorem Searching.mem_explore (H : Searching all n seen queue)
    (hnext : ∀ x, ∀ y ∈ next x, y ∈ all) :
    ∀ x ∈ queue, x ∈ explore next n seen queue := by
  induction n generalizing seen queue with
  | zero =>
    intro x hx
    have henough := H.enough
    have := List.length_pos_of_mem hx
    omega
  | succ n ih =>
    cases queue with
    | nil => simp
    | cons t queue =>
      intro x hx
      have hrest := ih (H.step (hnext t))
      rw [explore, List.mem_cons]
      rcases List.mem_cons.mp hx with rfl | hx
      · exact .inl rfl
      · exact .inr (hrest x (List.mem_append_left _ hx))

/-- What comes next after a visited element is visited too, or had been seen before the search. -/
theorem Searching.closed (H : Searching all n seen queue)
    (hnext : ∀ x, ∀ y ∈ next x, y ∈ all) :
    ∀ x ∈ explore next n seen queue, ∀ y ∈ next x,
      y ∈ explore next n seen queue ∨ y ∈ seen := by
  induction n generalizing seen queue with
  | zero => simp [explore]
  | succ n ih =>
    cases queue with
    | nil => simp [explore]
    | cons t queue =>
      have H' := H.step (hnext t)
      -- a newcomer waits after the step, so it is visited by the rest of the search
      have hfresh : ∀ y ∈ next t, y ∉ seen →
          y ∈ explore next n (newcomers seen (next t)).2 (queue ++ (newcomers seen (next t)).1) :=
        fun y hy hs => H'.mem_explore hnext y
          (List.mem_append_right _ (mem_newcomers.mpr ⟨hy, hs⟩))
      intro x hx y hy
      rw [explore, List.mem_cons] at hx ⊢
      by_cases hs : y ∈ seen
      · exact .inr hs
      · rcases hx with rfl | hx
        · exact .inl (.inr (hfresh y hy hs))
        · rcases ih H' x hx y hy with hy' | hy'
          · exact .inl (.inr hy')
          · rcases mem_seen_newcomers.mp hy' with hy' | hy'
            · exact .inr hy'
            · exact .inl (.inr (hfresh y hy' hs))

/-- Whatever is visited waited at the start or had not been seen then. -/
theorem mem_queue_or_notMem_seen {x : Element} (hx : x ∈ explore next n seen queue) :
    x ∈ queue ∨ x ∉ seen := by
  induction n generalizing seen queue with
  | zero => simp [explore] at hx
  | succ n ih =>
    cases queue with
    | nil => simp [explore] at hx
    | cons t queue =>
      rw [explore, List.mem_cons] at hx
      rcases hx with rfl | hx
      · exact .inl List.mem_cons_self
      · rcases ih hx with hx | hx
        · rcases List.mem_append.mp hx with hx | hx
          · exact .inl (List.mem_cons_of_mem _ hx)
          · exact .inr (mem_newcomers.mp hx).2
        · exact .inr fun hs => hx (mem_seen_newcomers.mpr (.inl hs))

/-- Nothing is visited twice. -/
theorem Searching.nodup_explore (H : Searching all n seen queue)
    (hnext : ∀ x, ∀ y ∈ next x, y ∈ all) : (explore next n seen queue).Nodup := by
  induction n generalizing seen queue with
  | zero => simp [explore]
  | succ n ih =>
    cases queue with
    | nil => simp [explore]
    | cons t queue =>
      rw [explore]
      refine List.nodup_cons.mpr ⟨fun ht => ?_, ih (H.step (hnext t))⟩
      have hseen : t ∈ seen := H.queued t List.mem_cons_self
      rcases mem_queue_or_notMem_seen ht with ht | ht
      · rcases List.mem_append.mp ht with ht | ht
        · exact (List.nodup_cons.mp H.nodup).1 ht
        · exact (mem_newcomers.mp ht).2 hseen
      · exact ht (mem_seen_newcomers.mpr (.inl hseen))

/-- Whatever is visited can be reached from something that waited. -/
theorem reached_of_mem_explore {x : Element} (hx : x ∈ explore next n seen queue) :
    ∃ q ∈ queue, Relation.ReflTransGen (Leads next) q x := by
  induction n generalizing seen queue with
  | zero => simp [explore] at hx
  | succ n ih =>
    cases queue with
    | nil => simp [explore] at hx
    | cons t queue =>
      rw [explore, List.mem_cons] at hx
      rcases hx with rfl | hx
      · exact ⟨x, List.mem_cons_self, .refl⟩
      · obtain ⟨q, hq, hqx⟩ := ih hx
        rcases List.mem_append.mp hq with hq | hq
        · exact ⟨q, List.mem_cons_of_mem _ hq, hqx⟩
        · exact ⟨t, List.mem_cons_self, hqx.head (mem_newcomers.mp hq).1⟩

/-- **A search from one element visits exactly what can be reached from it**, whatever the bound is
as long as it covers everything that can come next. -/
theorem mem_explore_iff (hnext : ∀ x, ∀ y ∈ next x, y ∈ all) (h : all.length + 1 ≤ n)
    {x : Element} :
    x ∈ explore next n (.ofList [t]) [t] ↔ Relation.ReflTransGen (Leads next) t x := by
  have H : Searching all n (.ofList [t]) [t] := .start h
  have hstart : t ∈ explore next n (.ofList [t]) [t] := H.mem_explore hnext t (by simp)
  constructor
  · intro hx
    obtain ⟨q, hq, hqx⟩ := reached_of_mem_explore hx
    obtain rfl := List.mem_singleton.mp hq
    exact hqx
  · intro hx
    induction hx with
    | refl => exact hstart
    | tail _ hstep ih =>
      rcases H.closed hnext _ ih _ hstep with hy | hy
      · exact hy
      · obtain rfl : t = _ := by simpa using hy
        exact hstart

/-- After the start, a search visits what can be reached from it and is not the start itself. -/
theorem mem_tail_explore (hnext : ∀ x, ∀ y ∈ next x, y ∈ all) (h : all.length + 1 ≤ n)
    {x : Element} :
    x ∈ (explore next n (.ofList [t]) [t]).tail ↔
      x ≠ t ∧ Relation.TransGen (Leads next) t x := by
  have hnodup := (Searching.start (t := t) h).nodup_explore hnext
  have hmem := mem_explore_iff (t := t) hnext h (x := x)
  obtain ⟨n, rfl⟩ : ∃ k, n = k + 1 := ⟨n - 1, by omega⟩
  rw [explore] at hnodup hmem ⊢
  rw [List.mem_cons, Relation.reflTransGen_iff_eq_or_transGen] at hmem
  have hne : x ∈ explore next n (newcomers (.ofList [t]) (next t)).2
      ([] ++ (newcomers (.ofList [t]) (next t)).1) → x ≠ t := by
    rintro hx rfl
    exact (List.nodup_cons.mp hnodup).1 hx
  rw [List.tail_cons]
  grind

end CodeAtlas
