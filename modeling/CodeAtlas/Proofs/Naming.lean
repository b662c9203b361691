import CodeAtlas.Key

/-!
# Category names in any case

Two texts are compared without regard to ASCII case by their forms in lower case. Those are the same
just if the forms in upper case are, and the written names of categories are in upper case. So a text
is read as a category just if its form in upper case is the written name of that category.

## Main definitions

* `Text.sameIgnoringCase_iff`: equality up to case by the forms in upper case.
* `Category.read_eq_ok_iff`: what is read as a category.
-/
namespace CodeAtlas

namespace Text

/-- Beyond ASCII no character is in another case. -/
theorem case_of_le {c : Char} (h : 128 ≤ c.toNat) : c.toLower = c ∧ c.toUpper = c := by
  have hc : 128 ≤ c.val.toNat := h
  constructor
  · refine dif_neg ?_
    rintro ⟨-, hle⟩
    have hle : c.val.toNat ≤ 90 := hle
    omega
  · refine dif_neg ?_
    rintro ⟨-, hle⟩
    have hle : c.val.toNat ≤ 122 := hle
    omega

/-- Of two changes of case the second counts. -/
theorem case_of_case (c : Char) :
    c.toLower.toUpper = c.toUpper ∧ c.toUpper.toLower = c.toLower := by
  by_cases h : c.toNat < 128
  · have hall : ∀ n : Nat, n < 128 → (Char.ofNat n).toLower.toUpper = (Char.ofNat n).toUpper ∧
        (Char.ofNat n).toUpper.toLower = (Char.ofNat n).toLower := by decide +kernel
    have hc := hall c.toNat h
    rwa [Char.ofNat_toNat] at hc
  · obtain ⟨hl, hu⟩ := case_of_le (Nat.le_of_not_lt h)
    exact ⟨by rw [hl], by rw [hu]⟩

theorem sameIgnoringCase_iff {s t : String} :
    sameIgnoringCase s t = true ↔ s.toUpper = t.toUpper := by
  have hlist : ∀ s : String, s.toUpper.toList = s.toList.map Char.toUpper :=
    fun s => String.toList_map
  rw [sameIgnoringCase, beq_iff_eq, ← String.toList_inj, hlist, hlist]
  constructor
  · intro h
    have hmap := congrArg (List.map Char.toUpper) h
    simpa [Function.comp_def, case_of_case] using hmap
  · intro h
    have hmap := congrArg (List.map Char.toLower) h
    simpa [Function.comp_def, case_of_case] using hmap

end Text

namespace Category

theorem name_injective {a b : Category} (h : a.name = b.name) : a = b := by
  cases a <;> cases b <;> simp_all [name]

theorem toUpper_name (c : Category) : c.name.toUpper = c.name := by
  cases c <;> decide +kernel

theorem mem_all (c : Category) : c ∈ all := by cases c <;> decide

/-- A text is read as a category just if it is the name of that category once it is in upper
case. -/
theorem read?_eq_some_iff {s : String} {c : Category} : read? s = some c ↔ s.toUpper = c.name := by
  have hmatch : ∀ c : Category, Text.sameIgnoringCase c.name s = true ↔ c.name = s.toUpper := by
    intro c
    rw [Text.sameIgnoringCase_iff, toUpper_name]
  have hfound : ∀ {c}, read? s = some c → c.name = s.toUpper := by
    intro c h
    have hc := List.find?_some h
    exact (hmatch c).mp hc
  constructor
  · intro h
    exact (hfound h).symm
  · intro h
    cases hread : read? s with
    | none => exact absurd ((hmatch c).mpr h.symm) (List.find?_eq_none.mp hread c c.mem_all)
    | some c' =>
      have hname : c'.name = c.name := (hfound hread).trans h
      rw [name_injective hname]

theorem read_eq_ok_iff {s : String} {c : Category} : read s = .ok c ↔ s.toUpper = c.name := by
  rw [← read?_eq_some_iff, read]
  cases read? s <;> simp

/-- Any other text is what is wrong with itself. -/
theorem read_eq_error_iff {s : String} {fault : Fault} : read s = .error fault ↔
    (∀ c : Category, s.toUpper ≠ c.name) ∧ fault = .invalidKey s .unknownCategory := by
  simp only [ne_eq, ← read?_eq_some_iff, read]
  cases read? s <;> simp [eq_comm]

end Category
end CodeAtlas
