import CodeAtlas.Json.Reading
import Mathlib.Tactic.SplitIfs

/-!
# What is written is read back

The compact text of a value is read as that value, whatever follows it, as long as what follows
cannot be taken for more digits of a number. So a text does not start with the texts of two values
that are read differently. Strings may hold any characters: those that would end a string or that
must not stand in one are escaped, and an escape is read as the character that it is written for.

## Main definitions

* `Json.reading`: what a value is read as.
* `Delimits`: what may follow a value.
* `ReadsBack`: what a number of steps is enough for.
* `scanValue_chars`: a value is read from the front of a text.
-/
namespace CodeAtlas.Json

/-! ## Strings -/

theorem hexNumber?_control {n : Nat} (h : n < 32) :
    Text.hexNumber? ['0', '0', Text.hexDigit (n / 16), Text.hexDigit (n % 16)] = some n := by
  have hall : ∀ n : Fin 32, Text.hexNumber?
      ['0', '0', Text.hexDigit (n.val / 16), Text.hexDigit (n.val % 16)] = some n.val := by decide
  exact hall ⟨n, h⟩

theorem scanPieces_letter {e c : Char} (h : escapeLetter? e = some c) (s : List Char) :
    scanPieces ('\\' :: e :: s)
      = (scanPieces s).map fun (pieces, rest) => (.char c :: pieces, rest) := by
  have hu : e ≠ 'u' := by
    rintro rfl
    cases h
  cases hs : scanPieces s <;> simp [scanPieces, hu, h, hs]

/-- An escaped character is read as the character. -/
theorem scanPieces_escaped (c : Char) (s : List Char) :
    scanPieces (escaped c ++ s)
      = (scanPieces s).map fun (pieces, rest) => (.char c :: pieces, rest) := by
  unfold escaped
  split_ifs with hquote hslash hb hf hn hr ht hcontrol
  · subst hquote; exact scanPieces_letter rfl s
  · subst hslash; exact scanPieces_letter rfl s
  · subst hb; exact scanPieces_letter rfl s
  · subst hf; exact scanPieces_letter rfl s
  · subst hn; exact scanPieces_letter rfl s
  · subst hr; exact scanPieces_letter rfl s
  · subst ht; exact scanPieces_letter rfl s
  · have hunit : Piece.ofUnit c.toNat = .char c := by
      have hlow : ¬ 0xD800 ≤ c.toNat := by omega
      simp [Piece.ofUnit, hlow]
    cases hs : scanPieces s <;> simp [scanPieces, hexNumber?_control hcontrol, hunit, hs]
  · cases hs : scanPieces s <;> simp [scanPieces, hslash, hcontrol, hs]

theorem scanPieces_escapes (s rest : List Char) :
    scanPieces (s.flatMap escaped ++ '"' :: rest) = some (s.map .char, rest) := by
  induction s with
  | nil => simp [scanPieces]
  | cons c s ih => simp [List.append_assoc, scanPieces_escaped, ih]

theorem joinPieces_chars (s : List Char) : joinPieces (s.map .char) = some s := by
  induction s with
  | nil => rfl
  | cons c s ih => simp [joinPieces, ih]

/-- A string is read as its text. -/
theorem scanString_escapes (s : String) (rest : List Char) :
    scanString (s.toList.flatMap escaped ++ '"' :: rest) = some (some s, rest) := by
  simp [scanString, scanPieces_escapes, joinPieces_chars]

/-! ## Numbers -/

/-- The values of the decimal digits of a number. -/
def digits (n : Nat) : List Nat := (Nat.toDigits 10 n).map fun c => c.toNat - 48

/-- What may follow a value: anything that is not taken for a part of a number. -/
def Delimits (rest : List Char) : Prop :=
  ∀ c ∈ rest.head?, c.isDigit = false ∧ c ≠ '.' ∧ c ≠ 'e' ∧ c ≠ 'E'

theorem ofDigits_digits (n : Nat) : ofDigits (digits n) = n := by
  rw [ofDigits, digits, List.foldl_map]
  exact Nat.ofDigitChars_ten_toDigits

theorem digits_of_lt {n : Nat} (h : n < 10) : digits n = [n] := by
  have hall : ∀ n : Fin 10, (Nat.digitChar n.val).toNat - 48 = n.val := by decide
  rw [digits, Nat.toDigits_of_lt_base h, List.map_singleton, hall ⟨n, h⟩]

theorem digits_of_le {n : Nat} (h : 10 ≤ n) : digits n = digits (n / 10) ++ [n % 10] := by
  have hlast : digits (n % 10) = [n % 10] := digits_of_lt (Nat.mod_lt n (by omega))
  rw [digits, Nat.toDigits_of_lt_base (Nat.mod_lt n (by omega))] at hlast
  rw [digits, Nat.toDigits_of_base_le (by omega) h, List.map_append, hlast]
  rfl

theorem digits_ne_nil (n : Nat) : digits n ≠ [] := by
  simp [digits]

/-- Only zero starts with the digit zero. -/
theorem head?_digits {n : Nat} (h : 0 < n) : (digits n).head? ≠ some 0 := by
  induction n using Nat.strongRecOn with
  | ind n ih =>
    by_cases hn : n < 10
    · rw [digits_of_lt hn, List.head?_cons, Ne, Option.some.injEq]
      omega
    · have hfront := ih (n / 10) (by omega) (by omega)
      rw [digits_of_le (by omega), List.head?_append]
      cases hq : (digits (n / 10)).head? with
      | none => exact absurd (List.head?_eq_none_iff.mp hq) (digits_ne_nil _)
      | some d => rwa [hq] at hfront

theorem scanDigits_toDigits (n : Nat) {rest : List Char} (h : Delimits rest) :
    scanDigits (Nat.toDigits 10 n ++ rest) = (digits n, rest) := by
  have hdigit : ∀ c ∈ Nat.toDigits 10 n, c.isDigit = true := fun c hc =>
    Nat.isDigit_of_mem_toDigits (by omega) (by omega) hc
  have htake : rest.takeWhile Char.isDigit = [] := by
    cases rest with
    | nil => rfl
    | cons c rest => simp [(h c rfl).1]
  have hdrop : rest.dropWhile Char.isDigit = rest := by
    cases rest with
    | nil => rfl
    | cons c rest => simp [(h c rfl).1]
  rw [scanDigits, List.takeWhile_append_of_pos hdigit, List.dropWhile_append_of_pos hdigit, htake,
    hdrop, List.append_nil, digits]

theorem scanWhole_toDigits (n : Nat) {rest : List Char} (h : Delimits rest) :
    scanWhole (Nat.toDigits 10 n ++ rest) = some (digits n, rest) := by
  rw [scanWhole, scanDigits_toDigits n h]
  split
  next hnil => exact absurd (Prod.mk.inj hnil).1 (digits_ne_nil n)
  next d ds _ hzero =>
    have hdigits : digits n = 0 :: d :: ds := (Prod.mk.inj hzero).1
    by_cases hn : n < 10
    · simp [digits_of_lt hn] at hdigits
    · refine absurd ?_ (head?_digits (n := n) (by omega))
      rw [hdigits, List.head?_cons]
  next => rfl

/-- A number is read as its digits. -/
theorem scanNumeral_toDigits (n : Nat) {rest : List Char} (h : Delimits rest) :
    scanNumeral (Nat.toDigits 10 n ++ rest) = some (⟨false, digits n, none, none⟩, rest) := by
  have hfraction : scanFraction rest = some (none, rest) := by
    cases rest with
    | nil => rfl
    | cons c rest => simp [scanFraction, (h c rfl).2.1]
  have hexponent : scanExponent rest = some (none, rest) := by
    cases rest with
    | nil => rfl
    | cons c rest => simp [scanExponent, (h c rfl).2.2.1, (h c rfl).2.2.2]
  have hplain : ∀ s, Nat.toDigits 10 n ++ rest ≠ '-' :: s := by
    intro s hs
    cases hd : Nat.toDigits 10 n with
    | nil => exact Nat.toDigits_ne_nil hd
    | cons c cs =>
      have hc : c.isDigit = true :=
        Nat.isDigit_of_mem_toDigits (by omega) (by omega) (hd ▸ List.mem_cons_self)
      rw [hd] at hs
      obtain ⟨rfl, -⟩ := List.cons.inj hs
      exact absurd hc (by decide)
  rw [scanNumeral]
  · simp [scanWhole_toDigits n h, hfraction, hexponent]
  · exact hplain

/-! ## Values -/

mutual

/-- What a value is read as. -/
def reading : Json → Reading
  | .bool b => .bool b
  | .nat n => .number ⟨false, digits n, none, none⟩
  | .text s => .string (some s)
  | .array items => .array (itemReadings items) true
  | .object members => .object (memberReadings members) true

/-- What the items of an array are read as. -/
def itemReadings : List Json → List Reading
  | [] => []
  | x :: xs => reading x :: itemReadings xs

/-- What the members of an object are read as. -/
def memberReadings : List (String × Json) → List (Option String × Reading)
  | [] => []
  | (k, v) :: ms => (some k, reading v) :: memberReadings ms

end

theorem skipSpace_cons {c : Char} (h : isSpace c = false) (s : List Char) :
    skipSpace (c :: s) = c :: s := by
  simp [skipSpace, h]

theorem isSpace_of_isDigit {c : Char} (h : c.isDigit = true) : isSpace c = false := by
  rw [← Bool.not_eq_true]
  intro hspace
  simp only [isSpace, Bool.or_eq_true, decide_eq_true_eq] at hspace
  rcases hspace with ((rfl | rfl) | rfl) | rfl <;> exact absurd h (by decide)

/-- A value does not start with space, nor with a bracket that would close an array. -/
theorem chars_eq_cons (j : Json) :
    ∃ c cs, j.chars = c :: cs ∧ isSpace c = false ∧ c ≠ ']' := by
  cases j with
  | bool b => cases b <;> exact ⟨_, _, rfl, by decide, by decide⟩
  | nat n =>
    cases hd : Nat.toDigits 10 n with
    | nil => exact absurd hd Nat.toDigits_ne_nil
    | cons c cs =>
      have hc : c.isDigit = true :=
        Nat.isDigit_of_mem_toDigits (by omega) (by omega) (hd ▸ List.mem_cons_self)
      refine ⟨c, cs, by rw [chars, hd], isSpace_of_isDigit hc, ?_⟩
      rintro rfl
      exact absurd hc (by decide)
  | text s => exact ⟨_, _, rfl, by decide, by decide⟩
  | array items => cases items <;> exact ⟨_, _, rfl, by decide, by decide⟩
  | object members => cases members <;> exact ⟨_, _, rfl, by decide, by decide⟩

/-- A number of steps is enough to read back everything that is no longer. The four parts go
together because the four scanners call each other, each time with one step less. -/
structure ReadsBack (n : Nat) : Prop where
  value : ∀ (j : Json) (rest : List Char), j.chars.length ≤ n → Delimits rest →
    scanValue n (j.chars ++ rest) = (j.reading, some rest)
  items : ∀ (xs : List Json) (rest : List Char), (itemsTail xs).length ≤ n →
    scanItems n (itemsTail xs ++ rest) = (itemReadings xs, some rest)
  member : ∀ (k : String) (v : Json) (ms : List (String × Json)) (rest : List Char),
    (v.chars ++ membersTail ms).length < n →
    scanMember n (k.toList.flatMap escaped ++ '"' :: ':' :: (v.chars ++ (membersTail ms ++ rest)))
      = (memberReadings ((k, v) :: ms), some rest)
  members : ∀ (ms : List (String × Json)) (rest : List Char), (membersTail ms).length ≤ n →
    scanMembers n (membersTail ms ++ rest) = (memberReadings ms, some rest)

variable {n : Nat} {j : Json} {xs : List Json} {ms : List (String × Json)} {rest : List Char}

theorem delimits_itemsTail : Delimits (itemsTail xs ++ rest) := by
  cases xs <;> simp [Delimits, itemsTail]

theorem delimits_membersTail : Delimits (membersTail ms ++ rest) := by
  cases ms <;> simp [Delimits, membersTail, closeBrace]

/-! ### One value, one item, one member -/

/-- A value that holds no others is scanned as it stands. -/
theorem scanValue_scalar {c : Char} {s : List Char} (hspace : isSpace c = false) (hc : c ≠ '[')
    (ho : c ≠ openBrace) : scanValue (n + 1) (c :: s) = scanScalar (c :: s) := by
  rw [scanValue, skipSpace_cons hspace]
  split
  next h => exact absurd (List.cons.inj h).1 hc
  next h =>
    obtain ⟨rfl, rfl⟩ := List.cons.inj h
    rw [if_neg ho]
  next h => cases h

theorem scanValue_bool (b : Bool) :
    scanValue (n + 1) (boolChars b ++ rest) = (.bool b, some rest) := by
  cases b <;> exact scanValue_scalar (by decide) (by decide) (by decide)

theorem scanValue_text (s : String) :
    scanValue (n + 1) (stringChars s ++ rest) = (.string (some s), some rest) := by
  rw [stringChars, List.cons_append, List.append_assoc,
    scanValue_scalar (by decide) (by decide) (by decide)]
  simp [scanScalar, scanString_escapes]

theorem scanValue_nat (k : Nat) (h : Delimits rest) :
    scanValue (n + 1) (Nat.toDigits 10 k ++ rest)
      = (.number ⟨false, digits k, none, none⟩, some rest) := by
  have hnumeral := scanNumeral_toDigits k h
  cases hd : Nat.toDigits 10 k with
  | nil => exact absurd hd Nat.toDigits_ne_nil
  | cons c cs =>
    have hc : c.isDigit = true :=
      Nat.isDigit_of_mem_toDigits (by omega) (by omega) (hd ▸ List.mem_cons_self)
    have hne : ∀ a : Char, a.isDigit = false → c ≠ a := by
      rintro a ha rfl
      simp [hc] at ha
    rw [hd, List.cons_append] at hnumeral
    rw [List.cons_append, scanValue_scalar (isSpace_of_isDigit hc) (hne _ rfl) (hne _ rfl),
      scanScalar]
    · rw [hnumeral]
    · exact fun _ h => hne _ rfl (List.cons.inj h).1
    · exact fun _ h => hne _ rfl (List.cons.inj h).1
    · exact fun _ h => hne _ rfl (List.cons.inj h).1
    · exact fun _ h => hne _ rfl (List.cons.inj h).1

theorem scanValue_array {c : Char} {s : List Char} (hspace : isSpace c = false) (hc : c ≠ ']') :
    scanValue (n + 1) ('[' :: c :: s) =
      match scanValue n (c :: s) with
      | (first, none) => (.array [first] false, none)
      | (first, some rest) =>
        (.array (first :: (scanItems n rest).1) (scanItems n rest).2.isSome,
          (scanItems n rest).2) := by
  rw [scanValue, skipSpace_cons (by decide)]
  simp only []
  rw [skipSpace_cons hspace]
  split
  next h => exact absurd (List.cons.inj h).1 hc
  next => rfl

theorem scanItems_cons {c : Char} {s : List Char} (hspace : isSpace c = false) (hc : c ≠ ']') :
    scanItems (n + 1) (',' :: c :: s) =
      match scanValue n (c :: s) with
      | (item, none) => ([item], none)
      | (item, some rest) => (item :: (scanItems n rest).1, (scanItems n rest).2) := by
  rw [scanItems, skipSpace_cons (by decide)]
  simp only []
  rw [skipSpace_cons hspace]
  split
  next h => exact absurd (List.cons.inj h).1 hc
  next => rfl

theorem scanValue_object (s : List Char) :
    scanValue (n + 1) (openBrace :: '"' :: s)
      = (.object (scanMember n s).1 (scanMember n s).2.isSome, (scanMember n s).2) := by
  have hquote : skipSpace ('"' :: s) = '"' :: s := skipSpace_cons (by decide) s
  rw [scanValue, skipSpace_cons (by decide)]
  simp [openBrace, hquote]

theorem scanMember_escapes (k : String) (s : List Char) :
    scanMember (n + 1) (k.toList.flatMap escaped ++ '"' :: ':' :: s) =
      match scanValue n s with
      | (value, none) => ([(some k, value)], none)
      | (value, some rest) =>
        ((some k, value) :: (scanMembers n rest).1, (scanMembers n rest).2) := by
  rw [scanMember, scanString_escapes]
  simp only []
  rw [skipSpace_cons (by decide)]
  rfl

theorem scanMembers_cons (s : List Char) :
    scanMembers (n + 1) (',' :: '"' :: s) = scanMember n s := by
  rw [scanMembers, skipSpace_cons (by decide)]
  simp only []
  rw [skipSpace_cons (by decide)]
  rfl

/-! ### Any number of them -/

namespace ReadsBack

theorem value_succ (H : ReadsBack n) (j : Json) (rest : List Char)
    (h : j.chars.length ≤ n + 1) (hrest : Delimits rest) :
    scanValue (n + 1) (j.chars ++ rest) = (j.reading, some rest) := by
  cases j with
  | bool b => exact scanValue_bool b
  | nat k => exact scanValue_nat k hrest
  | text s => exact scanValue_text s
  | array items =>
    cases items with
    | nil => rfl
    | cons x xs =>
      obtain ⟨c, cs, hx, hspace, hc⟩ := x.chars_eq_cons
      simp only [chars, List.length_cons, List.length_append] at h
      have hfirst := H.value x (itemsTail xs ++ rest) (by omega) delimits_itemsTail
      have hmore := H.items xs rest (by omega)
      rw [hx, List.cons_append] at hfirst
      rw [chars, hx, List.cons_append, List.cons_append, List.cons_append, List.append_assoc,
        scanValue_array hspace hc, hfirst]
      simp [hmore, reading, itemReadings]
  | object members =>
    cases members with
    | nil => rfl
    | cons member ms =>
      obtain ⟨k, v⟩ := member
      simp only [chars, stringChars, List.length_cons, List.length_append] at h
      have hmember := H.member k v ms rest (by rw [List.length_append]; omega)
      rw [chars, stringChars, List.cons_append, List.cons_append, List.cons_append,
        scanValue_object]
      simp only [List.cons_append, List.append_assoc, List.nil_append]
      rw [hmember]
      rfl

theorem items_succ (H : ReadsBack n) (xs : List Json) (rest : List Char)
    (h : (itemsTail xs).length ≤ n + 1) :
    scanItems (n + 1) (itemsTail xs ++ rest) = (itemReadings xs, some rest) := by
  cases xs with
  | nil => rfl
  | cons x xs =>
    obtain ⟨c, cs, hx, hspace, hc⟩ := x.chars_eq_cons
    simp only [itemsTail, List.length_cons, List.length_append] at h
    have hfirst := H.value x (itemsTail xs ++ rest) (by omega) delimits_itemsTail
    have hmore := H.items xs rest (by omega)
    rw [hx, List.cons_append] at hfirst
    rw [itemsTail, hx, List.cons_append, List.cons_append, List.cons_append, List.append_assoc,
      scanItems_cons hspace hc, hfirst]
    simp [hmore, itemReadings]

theorem member_succ (H : ReadsBack n) (k : String) (v : Json) (ms : List (String × Json))
    (rest : List Char) (h : (v.chars ++ membersTail ms).length < n + 1) :
    scanMember (n + 1)
        (k.toList.flatMap escaped ++ '"' :: ':' :: (v.chars ++ (membersTail ms ++ rest)))
      = (memberReadings ((k, v) :: ms), some rest) := by
  rw [List.length_append] at h
  have hfirst := H.value v (membersTail ms ++ rest) (by omega) delimits_membersTail
  have hmore := H.members ms rest (by omega)
  rw [scanMember_escapes, hfirst]
  simp [hmore, memberReadings]

theorem members_succ (H : ReadsBack n) (ms : List (String × Json)) (rest : List Char)
    (h : (membersTail ms).length ≤ n + 1) :
    scanMembers (n + 1) (membersTail ms ++ rest) = (memberReadings ms, some rest) := by
  cases ms with
  | nil => rfl
  | cons member ms =>
    obtain ⟨k, v⟩ := member
    simp only [membersTail, stringChars, List.length_cons, List.length_append] at h
    have hmember := H.member k v ms rest (by rw [List.length_append]; omega)
    rw [membersTail, stringChars, List.cons_append, List.cons_append, List.cons_append,
      scanMembers_cons]
    simp only [List.cons_append, List.append_assoc, List.nil_append]
    exact hmember

end ReadsBack

/-- Everything is read back in as many steps as it has characters. -/
theorem readsBack (n : Nat) : ReadsBack n := by
  induction n with
  | zero =>
    constructor
    · intro j rest h
      obtain ⟨c, cs, hj, -⟩ := j.chars_eq_cons
      simp [hj] at h
    · intro xs rest h
      cases xs <;> simp [itemsTail] at h
    · intro k v ms rest h
      omega
    · intro ms rest h
      cases ms <;> simp [membersTail] at h
  | succ n ih => exact ⟨ih.value_succ, ih.items_succ, ih.member_succ, ih.members_succ⟩

/-! ## Whole texts -/

/-- **A value is read from the front of a text as it was written**, whatever follows. -/
theorem scanValue_chars (h : j.chars.length ≤ n) (hrest : Delimits rest) :
    scanValue n (j.chars ++ rest) = (j.reading, some rest) :=
  (readsBack n).value j rest h hrest

/-- The compact text of a value is read as the value. -/
theorem Document.read_compact (j : Json) : Document.read j.compact = ⟨j.reading, true⟩ := by
  have hscan : scanValue (2 * j.chars.length + 2) (j.chars ++ []) = (j.reading, some []) :=
    scanValue_chars (by omega) (by simp [Delimits])
  rw [List.append_nil] at hscan
  simp [Document.read, hscan, skipSpace]

/-- Where the texts of two values start the same text, the values are read as the same, and the same
text follows them. -/
theorem reading_eq_of_chars_append {i : Json} {rest' : List Char} (hrest : Delimits rest)
    (hrest' : Delimits rest') (h : j.chars ++ rest = i.chars ++ rest') :
    j.reading = i.reading ∧ rest = rest' := by
  have hj : scanValue (j.chars.length + i.chars.length) (j.chars ++ rest)
      = (j.reading, some rest) := scanValue_chars (by omega) hrest
  have hi : scanValue (j.chars.length + i.chars.length) (i.chars ++ rest')
      = (i.reading, some rest') := scanValue_chars (by omega) hrest'
  rw [h, hi] at hj
  obtain ⟨hreading, hsome⟩ := Prod.mk.inj hj
  exact ⟨hreading.symm, (Option.some.inj hsome).symm⟩

end CodeAtlas.Json
