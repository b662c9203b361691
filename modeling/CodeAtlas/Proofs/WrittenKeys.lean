import CodeAtlas.Proofs.Interning

/-!
# Written keys

A key is written as the name of its category, a colon and its id. No category has a colon in its
name, so the first colon of a written key is the one between the two parts, whatever the id holds. A
text is read as a key just if it has a colon, and what stands before the first one is the name of a
category in any ASCII case. When the key is written again, that case is all that has changed.

## Main definitions

* `Text.FirstColon`: a text with the parts before and after its first colon.
* `Key.Reading`: what can come of reading a text, faults included.
* `Key.text_rereads`: keys, texts and instances there and back.
-/
namespace CodeAtlas

/-! ## The first colon -/

namespace Text

/-- A text with the parts before and after its first colon. -/
structure FirstColon (s front back : String) : Prop where
  eq : s = front ++ ":" ++ back
  notMem : ':' ∉ front.toList

variable {s front back front' back' : String}

theorem firstColon_iff :
    FirstColon s front back ↔ cutFirst ':' s.toList = some (front.toList, back.toList) := by
  have hlist : s = front ++ ":" ++ back ↔ s.toList = front.toList ++ ':' :: back.toList := by
    rw [← String.toList_inj]
    simp
  rw [cutFirst_eq_some, ← hlist]
  exact ⟨fun h => ⟨h.eq, h.notMem⟩, fun h => ⟨h.1, h.2⟩⟩

/-- There is one way to cut a text at its first colon. -/
theorem FirstColon.unique (h : FirstColon s front back) (h' : FirstColon s front' back') :
    front = front' ∧ back = back' := by
  have hcut := (firstColon_iff.mp h).symm.trans (firstColon_iff.mp h')
  simpa [String.toList_inj] using hcut

end Text

/-! ## Reading keys -/

theorem Category.colon_notMem_name (c : Category) : ':' ∉ c.name.toList := by
  cases c <;> decide +kernel

namespace Key

variable {s front id : String} {k : Key}

theorem firstColon_text (k : Key) : Text.FirstColon k.text k.category.name k.id :=
  ⟨rfl, k.category.colon_notMem_name⟩

/-- What can come of reading a text. An unknown category is reported without the id. -/
inductive Reading (s : String) : Except Fault Key → Prop
  | ok {k : Key} {front : String} (hs : Text.FirstColon s front k.id)
    (hfront : front.toUpper = k.category.name) : Reading s (.ok k)
  | unknownCategory {front id : String} (hs : Text.FirstColon s front id)
    (hfront : ∀ c : Category, front.toUpper ≠ c.name) :
    Reading s (.error (.invalidKey front .unknownCategory))
  | noCategory (hs : ':' ∉ s.toList) : Reading s (.error (.invalidKey s .noCategory))

theorem reading (s : String) : Reading s (read s) := by
  unfold read
  split
  next hcut => exact .noCategory (Text.cutFirst_eq_none.mp hcut)
  next front id hcut =>
    have hs : Text.FirstColon s (String.ofList front) (String.ofList id) :=
      Text.firstColon_iff.mpr (by simpa using hcut)
    cases hread : Category.read (String.ofList front) with
    | ok c => exact .ok hs (Category.read_eq_ok_iff.mp hread)
    | error fault =>
      obtain ⟨hfront, rfl⟩ := Category.read_eq_error_iff.mp hread
      exact .unknownCategory hs hfront

example : read "MODULE:a:B" = .error (.invalidKey "MODULE" .unknownCategory) := by decide +kernel

/-- A text is read as a key just if, up to the case before its first colon, it is the written form
of the key. -/
theorem read_eq_ok_iff (hs : Text.FirstColon s front id) :
    read s = .ok k ↔ front.toUpper = k.category.name ∧ id = k.id := by
  have h := reading s
  generalize read s = answer at h
  cases h with
  | @ok k' _ hs' hfront =>
    obtain ⟨rfl, rfl⟩ := hs.unique hs'
    rw [hfront, Except.ok.injEq]
    constructor
    · rintro rfl
      exact ⟨rfl, rfl⟩
    · rintro ⟨hname, hid⟩
      obtain ⟨category, id⟩ := k
      obtain ⟨category', id'⟩ := k'
      rw [Key.mk.injEq]
      exact ⟨Category.name_injective hname, hid⟩
  | unknownCategory hs' hfront =>
    obtain ⟨rfl, rfl⟩ := hs.unique hs'
    simp [hfront]
  | noCategory hs' =>
    refine absurd ?_ hs'
    simp [hs.eq]

/-- A text that is read has a colon. -/
theorem exists_firstColon (h : read s = .ok k) : ∃ front, Text.FirstColon s front k.id := by
  have hreading := reading s
  rw [h] at hreading
  cases hreading with
  | ok hs => exact ⟨_, hs⟩

/-- Whatever the id holds, the written form of a key is read as that key. -/
@[simp] theorem read_text (k : Key) : read k.text = .ok k :=
  (read_eq_ok_iff k.firstColon_text).mpr ⟨k.category.toUpper_name, rfl⟩

/-- Only the case before the first colon is lost. -/
theorem text_of_read (hs : Text.FirstColon s front id) (h : read s = .ok k) :
    k.text = front.toUpper ++ ":" ++ id := by
  obtain ⟨hname, rfl⟩ := (read_eq_ok_iff hs).mp h
  rw [text, hname]

/-! ## There and back -/

/-- **Keys are read as they are written.** Whatever its id holds, the written form of a key is read
as that key. A text is read as a key if and only if it has a colon, and what stands before the first
one is the name of a category once it is in upper case. Written again, the key is the text with that
part in upper case and the rest as it was. So the key of an instance, written, read and asked for,
gives that instance and leaves the registry as it is, whatever has been asked for in between. -/
theorem text_rereads :
    (∀ k : Key, read k.text = .ok k) ∧
    (∀ s : String,
      ((∃ k, read s = .ok k) ↔
        ∃ front id, Text.FirstColon s front id ∧ ∃ c : Category, front.toUpper = c.name) ∧
      ∀ (k : Key) (front id : String), read s = .ok k → Text.FirstColon s front id →
        k.text = front.toUpper ++ ":" ++ id) ∧
    ∀ (r : Registry) (i : Interned), (∃ k : Key, r.instances[k]? = some i) →
      ∀ qs : List Inquiry, ∃ k, read i.element.key.text = .ok k ∧
        (r.askAll qs).get k = (.ok i, r.askAll qs) := by
  refine ⟨read_text, ?_, ?_⟩
  · intro s
    refine ⟨⟨?_, ?_⟩, ?_⟩
    · rintro ⟨k, hk⟩
      obtain ⟨front, hs⟩ := exists_firstColon hk
      exact ⟨front, k.id, hs, k.category, ((read_eq_ok_iff hs).mp hk).1⟩
    · rintro ⟨front, id, hs, c, hfront⟩
      exact ⟨⟨c, id⟩, (read_eq_ok_iff hs).mpr ⟨hfront, rfl⟩⟩
    · intro k front id hk hs
      exact text_of_read hs hk
  · rintro r i ⟨k, hi⟩ qs
    have hlater := Registry.extends_askAll r qs k i hi
    obtain rfl : i.element.key = k := r.keyed k i hi
    exact ⟨i.element.key, read_text _, Registry.get_of_instance hlater⟩

/-- A registry that has been asked for a method whose parameters hold a colon. -/
def colonRegistry : Registry := .askAll .empty [.key ⟨.method, "p.C.run(a:b)"⟩]

/-- Only the first colon counts, and only ASCII letters have two cases: the ligature that begins
another text is not the letters that it stands for. -/
theorem text_rereads_colons :
    read (text ⟨.field, "::é"⟩) = .ok ⟨.field, "::é"⟩ ∧
    (∃ k, read "mEtHoD:p.C.run(a:b)" = .ok k ∧ k.text = "METHOD:p.C.run(a:b)") ∧
    (¬ ∃ k, read "\ufb01eld:p.C.x" = .ok k) ∧
    ∃ i, colonRegistry.instances[(⟨.method, "p.C.run(a:b)"⟩ : Key)]? = some i ∧
      ∃ k, read i.element.key.text = .ok k ∧
        (colonRegistry.askAll [.key ⟨.type, "p.C"⟩, .named "field" "p.C.x"]).get k
          = (.ok i, colonRegistry.askAll [.key ⟨.type, "p.C"⟩, .named "field" "p.C.x"]) := by
  obtain ⟨hkeys, htexts, hinstances⟩ := text_rereads
  refine ⟨hkeys _, ?_, ?_, ?_⟩
  · have hs : Text.FirstColon "mEtHoD:p.C.run(a:b)" "mEtHoD" "p.C.run(a:b)" :=
      ⟨by decide +kernel, by decide +kernel⟩
    have hfront : "mEtHoD".toUpper = Category.method.name := by decide +kernel
    obtain ⟨k, hk⟩ := (htexts _).1.mpr ⟨_, _, hs, .method, hfront⟩
    have htext := (htexts _).2 k _ _ hk hs
    rw [hfront] at htext
    exact ⟨k, hk, htext⟩
  · intro hread
    obtain ⟨front, id, hs, c, hfront⟩ := (htexts _).1.mp hread
    have hcut : Text.FirstColon "\ufb01eld:p.C.x" "\ufb01eld" "p.C.x" :=
      ⟨by decide +kernel, by decide +kernel⟩
    obtain ⟨rfl, rfl⟩ := hs.unique hcut
    cases c <;> revert hfront <;> decide +kernel
  · have hsome : (colonRegistry.instances[(⟨.method, "p.C.run(a:b)"⟩ : Key)]?).isSome = true := by
      decide +kernel
    obtain ⟨i, hi⟩ := Option.isSome_iff_exists.mp hsome
    exact ⟨i, hi, hinstances colonRegistry i ⟨_, hi⟩ _⟩

end Key
end CodeAtlas
