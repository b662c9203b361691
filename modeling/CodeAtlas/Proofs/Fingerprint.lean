import CodeAtlas.Proofs.Canonical

/-!
# What a digest of units is a digest of

A fingerprint hashes the canonical texts of units, each with a line end behind it. A value is
written on one line: whatever strings it holds, a line end in them is escaped, and in UTF-8 no other
character has the byte of a line end. So the hashed bytes, cut at that byte, are the canonical texts
again, and different lists of units are hashed from different bytes. The digest itself is not opened
here. Its text tells the digest, so that two lists of units with one text are a collision.

## Main definitions

* `Text.newline_notMem_bytes`: which texts have no line end among their bytes.
* `Sha256.Collision`, `Sha256.hex_inj`: what stands behind two equal texts of digests.
* `Json.newline_notMem_chars`: a value is written on one line.
* `Fingerprint.framing_unambiguous`: a stream tells its units, and a digest does but for collisions.
-/
namespace CodeAtlas

/-! ## Bytes of texts -/

namespace Text

/-- The bytes of an array are read off one by one. -/
theorem toList_eq_data (b : ByteArray) : b.toList = b.data.toList := by
  have hloop : ∀ (i : Nat) (read : List UInt8),
      ByteArray.toList.loop b i read = read.reverse ++ b.data.toList.drop i := by
    intro i read
    fun_induction ByteArray.toList.loop b i read with
    | case1 i read hlt ih =>
      have hlength : i < b.data.toList.length := hlt
      have hnext : b.get! i = b.data.toList[i] := getElem!_pos b.data i hlt
      calc ByteArray.toList.loop b (i + 1) (b.get! i :: read)
          = (b.get! i :: read).reverse ++ b.data.toList.drop (i + 1) := ih
        _ = read.reverse ++ b.data.toList[i] :: b.data.toList.drop (i + 1) := by simp [hnext]
        _ = read.reverse ++ b.data.toList.drop i := by rw [List.drop_eq_getElem_cons hlength]
    | case2 i read hle =>
      have hdone : b.data.toList.drop i = [] := List.drop_eq_nil_of_le (Nat.le_of_not_lt hle)
      rw [hdone, List.append_nil]
  exact hloop 0 []

theorem bytes_eq_flatMap (s : String) :
    s.toUTF8.toList = s.toList.flatMap String.utf8EncodeChar := by
  rw [toList_eq_data, String.toUTF8, ← String.utf8Encode_toList, List.utf8Encode,
    List.toList_data_toByteArray]

theorem bytes_append (s t : String) :
    (s ++ t).toUTF8.toList = s.toUTF8.toList ++ t.toUTF8.toList := by
  rw [bytes_eq_flatMap, bytes_eq_flatMap, bytes_eq_flatMap, String.toList_append,
    List.flatMap_append]

theorem bytes_inj {s t : String} : s.toUTF8.toList = t.toUTF8.toList ↔ s = t := by
  rw [toList_eq_data, toList_eq_data, Array.toList_inj, ← String.toByteArray_inj]
  exact ByteArray.ext_iff.symm

@[simp] theorem bytes_empty : "".toUTF8.toList = [] := by
  rw [bytes_eq_flatMap, String.toList_empty, List.flatMap_nil]

theorem bytes_newline : "\n".toUTF8.toList = [10] := by
  rw [bytes_eq_flatMap]
  rfl

/-- Of all characters only the line end has its byte. -/
theorem newline_notMem_utf8EncodeChar {c : Char} (h : c ≠ '\n') :
    10 ∉ String.utf8EncodeChar c := by
  -- a byte of a longer sequence has its highest bit set
  have hhigh : ∀ x k : UInt8, 128 ≤ k.toNat → x ||| k ≠ 10 := by
    intro x k hk hx
    have hor : (x ||| k).toNat = x.toNat ||| k.toNat := UInt8.toNat_or x k
    have hle : k.toNat ≤ x.toNat ||| k.toNat := Nat.right_le_or
    have hten : (10 : UInt8).toNat = 10 := rfl
    rw [hx] at hor
    omega
  have hsize : c.utf8Size = 1 ∨ c.utf8Size = 2 ∨ c.utf8Size = 3 ∨ c.utf8Size = 4 := by
    have hpos := c.utf8Size_pos
    have hle := c.utf8Size_le_four
    omega
  intro hmem
  rcases hsize with hs | hs | hs | hs
  · rw [String.utf8EncodeChar_eq_singleton hs, List.mem_singleton] at hmem
    have hle : c.val.toNat ≤ 127 := Char.utf8Size_eq_one_iff.mp hs
    have hbyte : c.val.toUInt8.toNat = 10 := congrArg UInt8.toNat hmem.symm
    rw [UInt32.toNat_toUInt8] at hbyte
    have hval : c.val.toNat = 10 := by omega
    exact h (Char.ext (UInt32.toNat_inj.mp hval))
  · rw [String.utf8EncodeChar_eq_cons_cons hs] at hmem
    simp [hhigh, eq_comm (a := (10 : UInt8))] at hmem
  · rw [String.utf8EncodeChar_eq_cons_cons_cons hs] at hmem
    simp [hhigh, eq_comm (a := (10 : UInt8))] at hmem
  · rw [String.utf8EncodeChar_eq_cons_cons_cons_cons hs] at hmem
    simp [hhigh, eq_comm (a := (10 : UInt8))] at hmem

/-- A text without a line end has no line end among its bytes. -/
theorem newline_notMem_bytes {s : String} (h : '\n' ∉ s.toList) : 10 ∉ s.toUTF8.toList := by
  rw [bytes_eq_flatMap, List.mem_flatMap]
  rintro ⟨c, hc, hten⟩
  refine newline_notMem_utf8EncodeChar ?_ hten
  rintro rfl
  exact h hc

end Text

/-! ## Digests -/

namespace Sha256

/-- Two messages that have one digest. -/
def Collision (a b : List UInt8) : Prop := a ≠ b ∧ digest a = digest b

theorem digitChar_inj {m n : Nat} (hm : m < 16) (hn : n < 16)
    (h : Nat.digitChar m = Nat.digitChar n) : m = n := by
  have hall : ∀ m n : Fin 16, Nat.digitChar m = Nat.digitChar n → m = n := by decide
  exact congrArg Fin.val (hall ⟨m, hm⟩ ⟨n, hn⟩ h)

theorem wordChars_injective : Function.Injective wordChars := by
  intro v w h
  -- what stands above a digit is known before the digit is looked at
  have hdown : ∀ shift, v.toNat >>> (shift + 4) = w.toNat >>> (shift + 4) →
      Nat.digitChar (v.toNat >>> shift % 16) = Nat.digitChar (w.toNat >>> shift % 16) →
      v.toNat >>> shift = w.toNat >>> shift := by
    intro shift habove hdigit
    have hlow := digitChar_inj (Nat.mod_lt _ (by omega)) (Nat.mod_lt _ (by omega)) hdigit
    rw [Nat.shiftRight_add, Nat.shiftRight_add, Nat.shiftRight_eq_div_pow _ 4,
      Nat.shiftRight_eq_div_pow _ 4] at habove
    omega
  have htop : ∀ u : UInt32, u.toNat >>> 32 = 0 := by
    intro u
    rw [Nat.shiftRight_eq_div_pow]
    exact Nat.div_eq_of_lt u.toNat_lt
  simp only [wordChars, List.map_cons, List.map_nil, List.cons.injEq, and_true] at h
  obtain ⟨h28, h24, h20, h16, h12, h8, h4, h0⟩ := h
  have hall : v.toNat >>> 0 = w.toNat >>> 0 :=
    hdown 0 (hdown 4 (hdown 8 (hdown 12 (hdown 16 (hdown 20 (hdown 24
      (hdown 28 ((htop v).trans (htop w).symm) h28) h24) h20) h16) h12) h8) h4) h0
  exact UInt32.toNat_inj.mp hall

theorem flatMap_wordChars_inj {vs ws : List UInt32} (hlength : vs.length = ws.length)
    (h : vs.flatMap wordChars = ws.flatMap wordChars) : vs = ws := by
  induction vs generalizing ws with
  | nil => exact (List.length_eq_zero_iff.mp hlength.symm).symm
  | cons v vs ih =>
    cases ws with
    | nil => cases hlength
    | cons w ws =>
      rw [List.flatMap_cons, List.flatMap_cons] at h
      obtain ⟨hfirst, hrest⟩ := List.append_inj h rfl
      rw [wordChars_injective hfirst, ih (Nat.succ.inj hlength) hrest]

/-- **The text of a digest tells the digest.** -/
theorem hex_inj {a b : List UInt8} : hex a = hex b ↔ digest a = digest b := by
  constructor
  · intro h
    exact flatMap_wordChars_inj rfl (String.ofList_inj.mp h)
  · intro h
    rw [hex, h, hex]

/-- Two messages with one text of their digests are the same, or they are a collision. -/
theorem hex_eq_iff {a b : List UInt8} : hex a = hex b ↔ a = b ∨ Collision a b := by
  rw [hex_inj, Collision]
  by_cases h : a = b
  · simp [h]
  · simp [h]

end Sha256

/-! ## Values on one line -/

namespace Json

theorem newline_notMem_escaped (c : Char) : '\n' ∉ escaped c := by
  unfold escaped
  split_ifs with hquote hslash hb hf hn hr ht hcontrol
  · decide
  · decide
  · decide
  · decide
  · decide
  · decide
  · decide
  · have hall : ∀ n : Fin 32, '\n' ∉
        ['\\', 'u', '0', '0', Text.hexDigit (n.val / 16), Text.hexDigit (n.val % 16)] := by decide
    exact hall ⟨c.toNat, hcontrol⟩
  · simpa using Ne.symm hn

theorem newline_notMem_stringChars (s : String) : '\n' ∉ stringChars s := by
  simp [stringChars, newline_notMem_escaped]

theorem newline_notMem_toDigits (n : Nat) : '\n' ∉ Nat.toDigits 10 n := by
  intro h
  have hdigit : ('\n' : Char).isDigit = true :=
    Nat.isDigit_of_mem_toDigits (by omega) (by omega) h
  exact absurd hdigit (by decide)

mutual

/-- A value is written on one line. -/
theorem newline_notMem_chars : ∀ j : Json, '\n' ∉ j.chars
  | .bool b => by cases b <;> decide
  | .nat n => newline_notMem_toDigits n
  | .text s => newline_notMem_stringChars s
  | .array [] => by decide
  | .array (x :: xs) => by
    simp [chars, newline_notMem_chars x, newline_notMem_itemsTail xs]
  | .object [] => by decide
  | .object ((k, v) :: ms) => by
    simp [chars, openBrace, newline_notMem_stringChars k, newline_notMem_chars v,
      newline_notMem_membersTail ms]

theorem newline_notMem_itemsTail : ∀ xs : List Json, '\n' ∉ itemsTail xs
  | [] => by decide
  | x :: xs => by
    simp [itemsTail, newline_notMem_chars x, newline_notMem_itemsTail xs]

theorem newline_notMem_membersTail : ∀ ms : List (String × Json), '\n' ∉ membersTail ms
  | [] => by decide
  | (k, v) :: ms => by
    simp [membersTail, newline_notMem_stringChars k, newline_notMem_chars v,
      newline_notMem_membersTail ms]

end

end Json

/-! ## Streams -/

open SourceUnit (framed framed_append framed_injective)

theorem SourceUnit.newline_notMem_canonical (u : SourceUnit) : 10 ∉ u.canonical.toUTF8.toList := by
  refine Text.newline_notMem_bytes ?_
  rw [SourceUnit.canonical, Json.toList_compact]
  exact Json.newline_notMem_chars u.json

/-- The bytes of several canonical texts, cut at the line ends, are the canonical texts. -/
theorem SourceUnit.splitOn_framed (us : List SourceUnit) :
    (framed us).toUTF8.toList.splitOn 10 = us.map (·.canonical.toUTF8.toList) ++ [[]] := by
  induction us with
  | nil =>
    have hnil : framed [] = "" := by simp [framed]
    rw [hnil, Text.bytes_empty, List.splitOn_nil]
    rfl
  | cons u us ih =>
    have hcons : (framed (u :: us)).toUTF8.toList
        = u.canonical.toUTF8.toList ++ 10 :: (framed us).toUTF8.toList := by
      have hbytes : (framed (u :: us)).toUTF8.toList
          = (framed [u]).toUTF8.toList ++ (framed us).toUTF8.toList := by
        rw [← Text.bytes_append, ← framed_append, List.singleton_append]
      have hone : (framed [u]).toUTF8.toList = u.canonical.toUTF8.toList ++ [10] := by
        have hline : framed [u] = u.canonical ++ "\n" := by simp [framed]
        rw [hline, Text.bytes_append, Text.bytes_newline]
      rw [hbytes, hone, List.append_assoc, List.singleton_append]
    rw [hcons, List.splitOn_append_cons_self_of_not_mem u.newline_notMem_canonical, ih]
    rfl

namespace Fingerprint

theorem stream_foldl_update (f : Fingerprint) (us : List SourceUnit) :
    (us.foldl update f).stream = f.stream ++ framed us := by
  induction us generalizing f with
  | nil => simp [framed]
  | cons u us ih =>
    have hcons : framed (u :: us) = framed [u] ++ framed us := framed_append [u] us
    rw [List.foldl_cons, ih, hcons, ← String.append_assoc]
    simp [update, framed, String.append_assoc]

theorem stream_ofUnits (us : List SourceUnit) : (ofUnits us).stream = framed us := by
  rw [ofUnits, stream_foldl_update]
  exact String.empty_append

/-- **The hashed bytes tell the units that they were made of, and their order.** Two lists of units
are hashed from the same bytes if and only if they are the same. The bytes are the canonical texts
of the units, with a byte behind each of them that occurs in none of them. So two lists have one
text of their digests only if they are the same or the hashed bytes are a collision. -/
theorem framing_unambiguous (us vs : List SourceUnit) :
    ((ofUnits us).stream.toUTF8 = (ofUnits vs).stream.toUTF8 ↔ us = vs) ∧
    (ofUnits us).stream.toUTF8.toList.splitOn 10 = us.map (·.canonical.toUTF8.toList) ++ [[]] ∧
    ((ofUnits us).hex = (ofUnits vs).hex ↔ us = vs ∨
      Sha256.Collision (ofUnits us).stream.toUTF8.toList (ofUnits vs).stream.toUTF8.toList) := by
  rw [hex, hex, Sha256.hex_eq_iff, Text.bytes_inj, stream_ofUnits, stream_ofUnits,
    framed_injective.eq_iff]
  refine ⟨?_, SourceUnit.splitOn_framed us, Iff.rfl⟩
  exact String.toByteArray_inj.trans framed_injective.eq_iff

end Fingerprint
end CodeAtlas
