import CodeAtlas.Proofs.Grammar
import CodeAtlas.Proofs.Naming
import Mathlib.Data.List.Basic
import Mathlib.Data.List.Induction

/-!
# One instance for each key

A registry is asked for the instance of a key, of an id in a category that is given by its name, or
of the type that declares a member. Each of these names one key at most. If the id of that key is
formed as its category asks, there is an instance, which is the same one from the first time on;
otherwise there is none, and the registry stays as it is. Instances are numbered as they come, so
different keys have instances with different numbers.

## Main definitions

* `Key.Grammatical`: the keys that name elements, by the grammar of ids.
* `Inquiry`, with `Registry.ask` and `Registry.askAll`: what a registry is asked for.
* `Inquiry.Names`: the key that is asked for.
* `Registry.Extends`: no instance is lost.
* `Registry.Outcome`: what can come of an inquiry.
* `Registry.Numbered`: different instances have different numbers.
* `Registry.mem_askAll`, `Registry.exists_answer`: the keys that have instances, and how these came
  about.
-/
namespace CodeAtlas

/-! ## Keys -/

/-- The id of a key is formed as its category asks. -/
def Key.Grammatical (k : Key) : Prop :=
  match k.category with
  | .type => Dotted 1 k.id
  | .method => ∃ owner name parameters, MethodId k.id owner name parameters
  | .field => Dotted 2 k.id

theorem Key.grammatical_iff {k : Key} : k.Grammatical ↔ ∃ e, Element.read k = .ok e := by
  obtain ⟨category, id⟩ := k
  rw [Element.exists_read_iff]
  cases category with
  | type => simp [Grammatical, Shape.read?_type]
  | method =>
    simp only [Grammatical, Shape.read?_method]
    grind
  | field =>
    simp only [Grammatical, Shape.read?_field, dotted_two_iff]
    grind

theorem Element.grammatical_key (e : Element) : e.key.Grammatical :=
  Key.grammatical_iff.mpr ⟨e, read_eq_ok.mpr e.read?_key⟩

/-! ## Inquiries -/

/-- What a registry is asked for. -/
inductive Inquiry where
  | key (k : Key)
  /-- An id in the category of a name. -/
  | named (category id : String)
  /-- The type that declares a member. -/
  | owner (e : Element)

namespace Inquiry

/-- The key that an inquiry is about, whether or not it names an element. -/
def Names : Inquiry → Key → Prop
  | key k', k => k' = k
  | named category id, k => category.toUpper = k.category.name ∧ id = k.id
  | owner e, k => k.category = .type ∧ e.ownerId? = some k.id

theorem Names.unique {q : Inquiry} {k k' : Key} (h : q.Names k) (h' : q.Names k') : k = k' := by
  obtain ⟨category, id⟩ := k
  obtain ⟨category', id'⟩ := k'
  cases q with
  | key => exact h.symm.trans h'
  | named name =>
    have hcategory : category = category' := Category.name_injective (h.1.symm.trans h'.1)
    have hid : id = id' := h.2.symm.trans h'.2
    rw [hcategory, hid]
  | owner e =>
    have hcategory : category = category' := h.1.trans h'.1.symm
    have hid : id = id' := Option.some.inj (h.2.symm.trans h'.2)
    rw [hcategory, hid]

end Inquiry

namespace Registry

/-- Ask for an instance. -/
def ask (r : Registry) : Inquiry → Option Interned × Registry
  | .key k =>
    let (found, r) := r.get k
    (found.toOption, r)
  | .named category id =>
    let (found, r) := r.getNamed category id
    (found.toOption, r)
  | .owner e => r.owner e

/-- All instances of a registry are instances of another. -/
def Extends (r q : Registry) : Prop :=
  ∀ (k : Key) (i : Interned), q.instances[k]? = some i → r.instances[k]? = some i

/-- Ask for instances one after the other. -/
def askAll (r : Registry) (qs : List Inquiry) : Registry := qs.foldl (fun r q => (r.ask q).2) r

variable {r : Registry} {k : Key} {i : Interned} {e : Element} {q : Inquiry}
  {qs qs' : List Inquiry}

theorem askAll_append : r.askAll (qs ++ qs') = (r.askAll qs).askAll qs' := List.foldl_append

/-! ## One inquiry -/

theorem getElem?_add (r : Registry) (e : Element) (k : Key) :
    (r.add e).instances[k]? = if e.key = k then some ⟨e, r.size⟩ else r.instances[k]? := by
  simp only [add, Std.ExtTreeMap.getElem?_insert, Std.LawfulEqCmp.compare_eq_iff_eq]

theorem mem_add : k ∈ (r.add e).instances ↔ e.key = k ∨ k ∈ r.instances := by
  simp only [add, Std.ExtTreeMap.mem_insert, Std.LawfulEqCmp.compare_eq_iff_eq]

theorem extends_add (hnew : r.instances[e.key]? = none) : (r.add e).Extends r := by
  intro k i hi
  -- the new instance is that of a key which had none
  have hkey : e.key ≠ k := by
    rintro rfl
    rw [hnew] at hi
    cases hi
  rw [getElem?_add, if_neg hkey, hi]

theorem size_add (h : e.key ∉ r.instances) : (r.add e).size = r.size + 1 := by
  have hnew : ¬ r.instances.contains e.key = true := h
  rw [size, add, Std.ExtTreeMap.size_insert, if_neg hnew, size]

theorem get_of_instance (hi : r.instances[k]? = some i) : r.get k = (.ok i, r) := by
  simp only [get, hi]

/-- What can come of an inquiry: the instance of its key is found or made, or its key, if there is
one, names no element. -/
inductive Outcome (r : Registry) (q : Inquiry) : Option Interned × Registry → Prop
  | found {k : Key} {i : Interned} (hk : q.Names k) (hi : r.instances[k]? = some i) :
    r.Outcome q (some i, r)
  | made {e : Element} (he : q.Names e.key) (hnew : e.key ∉ r.instances) :
    r.Outcome q (some ⟨e, r.size⟩, r.add e)
  | refused (h : ∀ k, q.Names k → ¬ k.Grammatical) : r.Outcome q (none, r)

theorem outcome_get (r : Registry) (h : q.Names k) :
    r.Outcome q ((r.get k).1.toOption, (r.get k).2) := by
  cases hk : r.instances[k]? with
  | some i =>
    rw [get_of_instance hk]
    exact .found h hk
  | none =>
    cases hread : Element.read k with
    | ok e =>
      obtain rfl : e.key = k := Element.key_of_read? (Element.read_eq_ok.mp hread)
      have hnew : e.key ∉ r.instances := by
        simp [Std.ExtTreeMap.mem_iff_isSome_getElem?, hk]
      simp only [get, hk, hread]
      exact .made h hnew
    | error fault =>
      simp only [get, hk, hread]
      refine .refused fun k' hk' hgrammatical => ?_
      obtain ⟨e, he⟩ := Key.grammatical_iff.mp hgrammatical
      rw [hk'.unique h, hread] at he
      cases he

theorem outcome_ask (r : Registry) (q : Inquiry) : r.Outcome q (r.ask q) := by
  cases q with
  | key k => exact r.outcome_get rfl
  | named category id =>
    cases hread : Category.read category with
    | ok c =>
      simp only [ask, getNamed, hread]
      exact r.outcome_get ⟨Category.read_eq_ok_iff.mp hread, rfl⟩
    | error fault =>
      simp only [ask, getNamed, hread]
      refine .refused fun k hk _ => ?_
      rw [Category.read_eq_ok_iff.mpr hk.1] at hread
      cases hread
  | owner e =>
    cases hid : e.ownerId? with
    | some id =>
      simp only [ask, owner, hid]
      exact r.outcome_get ⟨rfl, hid⟩
    | none =>
      simp only [ask, owner, hid]
      refine .refused fun k hk _ => ?_
      have hsome : e.ownerId? = some k.id := hk.2
      rw [hid] at hsome
      cases hsome

/-- There is an instance if and only if the key that is named is formed as its category asks. -/
theorem exists_ask_iff : (∃ i, (r.ask q).1 = some i) ↔ ∃ k, q.Names k ∧ k.Grammatical := by
  have h := r.outcome_ask q
  generalize r.ask q = answer at h ⊢
  cases h with
  | found hk hi =>
    have hgrammatical := Key.grammatical_iff.mpr ⟨_, read_of_instance hi⟩
    exact iff_of_true ⟨_, rfl⟩ ⟨_, hk, hgrammatical⟩
  | made he => exact iff_of_true ⟨_, rfl⟩ ⟨_, he, Element.grammatical_key _⟩
  | refused hnone =>
    refine iff_of_false ?_ ?_
    · simp
    · exact fun ⟨k, hk, hgrammatical⟩ => hnone k hk hgrammatical

/-- It has the key that is named, and from then on it is the instance of that key. -/
theorem instance_of_ask (hi : (r.ask q).1 = some i) :
    q.Names i.element.key ∧ (r.ask q).2.instances[i.element.key]? = some i := by
  have h := r.outcome_ask q
  generalize r.ask q = answer at h hi ⊢
  cases h with
  | found hk hfound =>
    obtain rfl := Option.some.inj hi
    rw [r.keyed _ _ hfound]
    exact ⟨hk, hfound⟩
  | made he =>
    obtain rfl := Option.some.inj hi
    exact ⟨he, by rw [getElem?_add, if_pos rfl]⟩
  | refused => cases hi

theorem ask_of_none (hnone : (r.ask q).1 = none) : (r.ask q).2 = r := by
  have h := r.outcome_ask q
  generalize r.ask q = answer at h hnone ⊢
  cases h with
  | found | made => cases hnone
  | refused => rfl

theorem mem_ask :
    k ∈ (r.ask q).2.instances ↔ (k.Grammatical ∧ q.Names k) ∨ k ∈ r.instances := by
  have h := r.outcome_ask q
  generalize r.ask q = answer at h ⊢
  cases h with
  | found hk' hi =>
    refine (or_iff_right_of_imp ?_).symm
    intro hk
    rw [hk.2.unique hk', Std.ExtTreeMap.mem_iff_isSome_getElem?, hi]
    rfl
  | made he =>
    rw [mem_add]
    refine or_congr_left ⟨?_, fun hk => he.unique hk.2⟩
    rintro rfl
    exact ⟨Element.grammatical_key _, he⟩
  | refused hnone =>
    rw [or_iff_right]
    exact fun hk => hnone k hk.2 hk.1

theorem extends_ask (r : Registry) (q : Inquiry) : (r.ask q).2.Extends r := by
  have h := r.outcome_ask q
  generalize r.ask q = answer at h ⊢
  cases h with
  | found | refused => exact fun _ _ hi => hi
  | made _ hnew => exact extends_add (Std.ExtTreeMap.getElem?_eq_none hnew)

/-- An instance that is there after an inquiry is the answer, or was there before. -/
theorem answer_or_instance (hi : (r.ask q).2.instances[k]? = some i) :
    (r.ask q).1 = some i ∨ r.instances[k]? = some i := by
  have h := r.outcome_ask q
  generalize r.ask q = answer at h hi ⊢
  cases h with
  | found | refused => exact .inr hi
  | made =>
    rw [getElem?_add] at hi
    split at hi
    · exact .inl hi
    · exact .inr hi

/-- Instances are numbered from zero on, each with a number of its own. -/
structure Numbered (r : Registry) : Prop where
  lt_size : ∀ {k : Key} {i : Interned}, r.instances[k]? = some i → i.serial < r.size
  injective : ∀ {k k' : Key} {i i' : Interned}, r.instances[k]? = some i →
    r.instances[k']? = some i' → i.serial = i'.serial → i = i'

theorem numbered_empty : empty.Numbered := ⟨by simp [empty], by simp [empty]⟩

theorem Numbered.add (h : r.Numbered) (hnew : e.key ∉ r.instances) : (r.add e).Numbered := by
  constructor
  · intro k i hi
    rw [size_add hnew]
    rw [getElem?_add] at hi
    split at hi
    · rw [← Option.some.inj hi]
      exact Nat.lt_succ_self _
    · exact Nat.lt_succ_of_lt (h.lt_size hi)
  · intro k k' i i' hi hi' heq
    rw [getElem?_add] at hi hi'
    -- an instance that was there before has a smaller number than the new one
    split at hi <;> split at hi'
    · rw [← Option.some.inj hi, ← Option.some.inj hi']
    · rw [← Option.some.inj hi] at heq
      exact absurd heq (Nat.ne_of_gt (h.lt_size hi'))
    · rw [← Option.some.inj hi'] at heq
      exact absurd heq (Nat.ne_of_lt (h.lt_size hi))
    · exact h.injective hi hi' heq

theorem Numbered.ask (h : r.Numbered) (q : Inquiry) : (r.ask q).2.Numbered := by
  have houtcome := r.outcome_ask q
  generalize r.ask q = answer at houtcome ⊢
  cases houtcome with
  | found | refused => exact h
  | made _ hnew => exact h.add hnew

/-! ## Many inquiries -/

theorem mem_askAll : k ∈ (r.askAll qs).instances ↔
    (k.Grammatical ∧ ∃ q ∈ qs, q.Names k) ∨ k ∈ r.instances := by
  induction qs generalizing r with
  | nil => simp [askAll]
  | cons q qs ih =>
    rw [askAll, List.foldl_cons, ← askAll, ih, mem_ask, ← or_assoc, ← and_or_left,
      List.exists_mem_cons_iff, or_comm (b := q.Names k)]

theorem extends_askAll (r : Registry) (qs : List Inquiry) : (r.askAll qs).Extends r := by
  induction qs generalizing r with
  | nil => exact fun _ _ h => h
  | cons q qs ih => exact fun k i h => ih _ k i (extends_ask r q k i h)

theorem Numbered.askAll (h : r.Numbered) (qs : List Inquiry) : (r.askAll qs).Numbered := by
  induction qs generalizing r with
  | nil => exact h
  | cons q qs ih => exact ih (h.ask q)

/-- Every instance was the answer to some inquiry. -/
theorem exists_answer (h : (empty.askAll qs).instances[k]? = some i) :
    ∃ before q after, qs = before ++ q :: after ∧ ((empty.askAll before).ask q).1 = some i := by
  induction qs using List.reverseRecOn with
  | nil => simp [askAll, empty] at h
  | append_singleton qs q ih =>
    rw [askAll_append] at h
    rcases answer_or_instance (r := empty.askAll qs) h with hanswer | hold
    · exact ⟨qs, q, [], rfl, hanswer⟩
    · obtain ⟨before, q', after, rfl, hanswer⟩ := ih hold
      exact ⟨before, q', after ++ [q], by simp, hanswer⟩

/-- The size is the number of different keys that were asked for and name elements. -/
theorem size_askAll (qs : List Inquiry) : ∃ keys : List Key, keys.Nodup ∧
    (∀ k, k ∈ keys ↔ k.Grammatical ∧ ∃ q ∈ qs, q.Names k) ∧
    (empty.askAll qs).size = keys.length := by
  refine ⟨(empty.askAll qs).instances.keys, Std.ExtTreeMap.nodup_keys, ?_,
    Std.ExtTreeMap.length_keys.symm⟩
  intro k
  rw [Std.ExtTreeMap.mem_keys, mem_askAll, or_iff_left]
  simp [empty]

/-- Two inquiries with any others between them get the same instance, or what is the same, one with
the same number, if and only if they name the same key. -/
theorem Numbered.same_iff (h : r.Numbered) {between : List Inquiry} {q q' : Inquiry}
    {x y : Interned} (hx : (r.ask q).1 = some x)
    (hy : (((r.ask q).2.askAll between).ask q').1 = some y) :
    (x = y ↔ ∃ k, q.Names k ∧ q'.Names k) ∧ (x.serial = y.serial ↔ x = y) := by
  obtain ⟨hxkey, hxfound⟩ := instance_of_ask hx
  obtain ⟨hykey, hyfound⟩ := instance_of_ask hy
  -- the first instance is still there when the second inquiry has been answered
  have hxlater := extends_ask _ q' _ _ (extends_askAll _ between _ _ hxfound)
  have hnumbered := ((h.ask q).askAll between).ask q'
  refine ⟨⟨?_, ?_⟩, ⟨hnumbered.injective hxlater hyfound, congrArg _⟩⟩
  · rintro rfl
    exact ⟨_, hxkey, hykey⟩
  · rintro ⟨k, hk, hk'⟩
    rw [hxkey.unique hk] at hxlater
    rw [hykey.unique hk', hxlater] at hyfound
    exact Option.some.inj hyfound

end Registry
end CodeAtlas
