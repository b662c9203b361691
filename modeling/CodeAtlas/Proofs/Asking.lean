import CodeAtlas.Proofs.Interning

/-!
# Computations that ask a registry

A computation may ask the registry for instances on its way, and that is all it does to it. What it
gives is stated together with the registry that it leaves: of what it gives, the elements are those
that a computation without a registry would give, and the instances are those of the registry. Such
conditions pass from the parts of a computation to the whole.

## Main definitions

* `Registry.Holds`: an instance is that of the registry.
* `Asking.Meets`: what a computation gives and leaves.
* `Asking.Meets.bind`, `Asking.meets_mapM`: from the parts to the whole.
* `Asking.meets_get`, `Asking.meets_owner`: the two ways to ask.
-/
namespace CodeAtlas

namespace Registry

variable {r r' r'' : Registry} {i : Interned}

/-- An instance is the one that the registry has for its key. -/
def Holds (r : Registry) (i : Interned) : Prop := r.instances[i.element.key]? = some i

theorem Extends.refl (r : Registry) : r.Extends r := fun _ _ h => h

theorem Extends.trans (h : r''.Extends r') (h' : r'.Extends r) : r''.Extends r :=
  fun k i hi => h k i (h' k i hi)

theorem Extends.holds (h : r'.Extends r) (hi : r.Holds i) : r'.Holds i := h _ _ hi

end Registry

namespace Asking

variable {α β γ : Type} {c : Asking α} {f : α → Asking β} {r : Registry}
  {P Q : α → Registry → Prop} {R : β → Registry → Prop} {a : α}

/-- Run on a registry, a computation only asks for instances, and what it gives meets a condition on
the registry that it leaves. -/
structure Meets (c : Asking α) (r : Registry) (P : α → Registry → Prop) : Prop where
  asked : ∃ qs, (c.run r).2 = r.askAll qs
  meets : P (c.run r).1 (c.run r).2

theorem Meets.extends (h : Meets c r P) : (c.run r).2.Extends r := by
  obtain ⟨qs, hqs⟩ := h.asked
  rw [hqs]
  exact Registry.extends_askAll r qs

theorem Meets.imp (h : Meets c r P)
    (himp : ∀ a r', r'.Extends r → P a r' → Q a r') : Meets c r Q :=
  ⟨h.asked, himp _ _ h.extends h.meets⟩

theorem meets_pure (h : P a r) : Meets (pure a) r P := ⟨⟨[], rfl⟩, h⟩

/-- The second computation is run on the registry that the first one leaves. -/
theorem Meets.bind (h : Meets c r P)
    (hf : ∀ a r', r'.Extends r → P a r' → Meets (f a) r' R) : Meets (c >>= f) r R := by
  have hnext := hf _ _ h.extends h.meets
  obtain ⟨qs, hqs⟩ := h.asked
  obtain ⟨qs', hqs'⟩ := hnext.asked
  refine ⟨⟨qs ++ qs', ?_⟩, hnext.meets⟩
  rw [Registry.askAll_append, ← hqs]
  exact hqs'

/-- A list of computations gives a list of what they give, if later ones take nothing back. -/
theorem meets_mapM {erase : β → γ} {answer : α → γ}
    (hstable : ∀ {b r r'}, r'.Extends r → R b r → R b r')
    (hf : ∀ a r, Meets (f a) r fun b r' => erase b = answer a ∧ R b r') (as : List α)
    (r : Registry) :
    Meets (as.mapM f) r fun bs r' => bs.map erase = as.map answer ∧ ∀ b ∈ bs, R b r' := by
  induction as generalizing r with
  | nil =>
    rw [List.mapM_nil]
    exact meets_pure ⟨rfl, by simp⟩
  | cons a as ih =>
    rw [List.mapM_cons]
    refine (hf a r).bind fun b r' _ hb => (ih r').bind fun bs r'' hext hbs => ?_
    exact meets_pure ⟨congrArg₂ List.cons hb.1 hbs.1,
      List.forall_mem_cons.mpr ⟨hstable hext hb.2, hbs.2⟩⟩

/-! ## The two ways to ask -/

theorem meets_get (k : Key) (r : Registry) : Meets (get k) r fun found r' =>
    found.map Interned.element = Element.read k ∧ ∀ i, found = .ok i → r'.Holds i := by
  refine ⟨⟨[.key k], rfl⟩, r.element_get k, ?_⟩
  intro i hi
  have hask : (r.ask (.key k)).1 = some i := congrArg Except.toOption hi
  exact (Registry.instance_of_ask hask).2

theorem meets_owner (e : Element) (r : Registry) : Meets (owner e) r fun found r' =>
    found.map Interned.element = e.owner? ∧ ∀ i, found = some i → r'.Holds i := by
  refine ⟨⟨[.owner e], rfl⟩, ?_, fun i hi => (Registry.instance_of_ask (q := .owner e) hi).2⟩
  change (r.owner e).1.map Interned.element = e.owner?
  cases hid : e.ownerId? with
  | none => simp [Registry.owner, Element.owner?, hid]
  | some id =>
    have hread := r.element_get ⟨.type, id⟩
    simp only [Registry.owner, Element.owner?, hid, Option.bind_some]
    cases hfound : (r.get ⟨.type, id⟩).1 with
    | ok i =>
      rw [hfound] at hread
      exact (Element.read_eq_ok.mp hread.symm).symm
    | error fault =>
      rw [hfound] at hread
      cases hnone : Element.read? ⟨.type, id⟩ with
      | none => rfl
      | some e => simp [Except.map, Element.read, hnone] at hread

end Asking
end CodeAtlas
