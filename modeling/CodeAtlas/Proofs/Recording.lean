import CodeAtlas.Store

/-!
# What recording does to a store

Relating two elements adds one tuple and makes both elements known. It leaves all other tuples and
all modifiers alone. It is told whether the tuple is new. The count of tuples is not looked at here.
-/
namespace CodeAtlas

/-- What one action brings about, or leaves as it was, holds after several actions if one of them
brings it about or it held before. -/
theorem foldl_iff_exists {σ α : Type} {f : σ → α → σ} {P : α → Prop} {Q : σ → Prop} {as : List α}
    {s : σ} (h : ∀ s, ∀ a ∈ as, Q (f s a) ↔ P a ∨ Q s) :
    Q (as.foldl f s) ↔ (∃ a ∈ as, P a) ∨ Q s := by
  induction as generalizing s with
  | nil => simp
  | cons a as ih =>
    simp only [List.mem_cons, exists_eq_or_imp]
    rw [List.foldl_cons, ih fun s b hb => h s b (.tail a hb), h s a (.head as), or_assoc,
      or_left_comm]

namespace Store

variable {s : Store} {d e a x : Element} {r q : Relation} {m : Modifiers}

theorem record_insert (h : e ∈ s.records) :
    (s.insert d r e h).record a = if d = a then (s.record d).insert r e else s.record a := by
  simp only [record, insert, Std.ExtTreeMap.getElem?_insert, Std.LawfulEqCmp.compare_eq_iff_eq]
  split <;> simp_all

theorem mem_range_insert (h : e ∈ s.records) :
    x ∈ (s.insert d r e h).range a q ↔ (a = d ∧ q = r ∧ x = e) ∨ x ∈ s.range a q := by
  unfold range
  rw [record_insert]
  split
  next hd => subst hd; simp [Record.mem_range_insert]
  next hd => simp [Ne.symm hd]

@[simp] theorem modifiers_insert (h : e ∈ s.records) :
    (s.insert d r e h).modifiers a = s.modifiers a := by
  unfold modifiers
  rw [record_insert]
  split <;> simp_all [Record.insert]

@[simp] theorem contains_insert (h : e ∈ s.records) :
    (s.insert d r e h).contains a = (decide (d = a) || s.contains a) := by
  simp only [insert, contains, Std.ExtTreeMap.contains_insert]
  congr 1
  by_cases hd : d = a <;> simp [hd, Std.LawfulEqCmp.compare_eq_iff_eq]

/-! ## One tuple -/

theorem relate_of_mem (h : e ∈ s.range d r) :
    s.relate d r e = (false, (s.register e).register d) := by
  simp [relate, h]

theorem relate_of_notMem (h : e ∉ s.range d r) :
    s.relate d r e =
      (true, ((s.register e).register d).insert d r e
        (known_register.mpr (.inr (known_register.mpr (.inl rfl))))) := by
  simp [relate, h]

theorem relate_eq_true : (s.relate d r e).1 = true ↔ e ∉ s.range d r := by
  by_cases h : e ∈ s.range d r
  · simp [relate_of_mem h, h]
  · simp [relate_of_notMem h, h]

theorem mem_range_relate :
    x ∈ (s.relate d r e).2.range a q ↔ (a = d ∧ q = r ∧ x = e) ∨ x ∈ s.range a q := by
  by_cases h : e ∈ s.range d r
  · rw [relate_of_mem h, range_register, range_register]
    constructor
    · exact .inr
    · rintro (⟨rfl, rfl, rfl⟩ | hx)
      · exact h
      · exact hx
  · simp [relate_of_notMem h, mem_range_insert]

theorem range_relate_of_ne (h : q ≠ r) : (s.relate d r e).2.range a q = s.range a q := by
  ext x
  rw [mem_range_relate]
  simp [h]

@[simp] theorem modifiers_relate : (s.relate d r e).2.modifiers a = s.modifiers a := by
  by_cases h : e ∈ s.range d r
  · simp [relate_of_mem h]
  · simp [relate_of_notMem h]

theorem contains_relate :
    (s.relate d r e).2.contains a = true ↔ a = d ∨ a = e ∨ s.contains a = true := by
  by_cases h : e ∈ s.range d r
  · simp [relate_of_mem h, eq_comm (a := a)]
  · simp only [relate_of_notMem h, contains_insert, contains_register, Bool.or_eq_true,
      decide_eq_true_eq]
    grind

/-! ## A tuple and its transpose -/

theorem mem_range_relateBoth :
    x ∈ (s.relateBoth d r e).2.range a q ↔
      (a = d ∧ q = r ∧ x = e) ∨ (a = e ∧ q = r.transpose ∧ x = d) ∨ x ∈ s.range a q := by
  simp only [relateBoth, mem_range_relate]
  grind

@[simp] theorem modifiers_relateBoth : (s.relateBoth d r e).2.modifiers a = s.modifiers a := by
  simp [relateBoth]

theorem contains_relateBoth :
    (s.relateBoth d r e).2.contains a = true ↔ a = d ∨ a = e ∨ s.contains a = true := by
  simp only [relateBoth, contains_relate]
  grind

/-! ## An element and the status -/

theorem contains_declare :
    (s.declare e m).contains a = true ↔ a = e ∨ s.contains a = true := by
  simp only [declare, contains, Std.ExtTreeMap.contains_insert, Bool.or_eq_true, beq_iff_eq,
    Std.LawfulEqCmp.compare_eq_iff_eq, eq_comm (a := a)]

@[simp] theorem range_withStatus {status : Status} : (s.withStatus status).range a q = s.range a q :=
  rfl

@[simp] theorem modifiers_withStatus {status : Status} :
    (s.withStatus status).modifiers a = s.modifiers a := rfl

@[simp] theorem contains_withStatus {status : Status} :
    (s.withStatus status).contains a = s.contains a := rfl

end Store
end CodeAtlas
