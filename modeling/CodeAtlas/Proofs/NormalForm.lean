import CodeAtlas.Proofs.Grammar
import Mathlib.Data.List.DropRight
import Mathlib.Data.List.TakeWhile

/-!
# Normal forms of method ids

The parameters of a method are free text. They are cut at commas, the blanks around the pieces are
dropped, and so are pieces that hold nothing else. The short name of the method joins what is left.
Behind the type of the method it is an id again, of a method that is told apart from the first by
its id alone: the type, the name and the parameters are the same. So nothing is left to normalise in
it. Parameters are not read as the names of types here.

## Main definitions

* `Parameter`: the texts that are listed as parameters.
* `mem_parameterList`, `parameterList_intercalate`: what is listed, and what is listed again.
* `Element.normalised_rereads`: the method that the normal form of an id names.
-/
namespace CodeAtlas

/-! ## Blanks -/

namespace Text

variable {s : List Char} {c : Char}

theorem trimEnd_eq_rdropWhile (s : List Char) : trimEnd s = s.rdropWhile isBlank := by
  induction s with
  | nil => simp
  | cons c rest ih =>
    rw [trimEnd, ih, List.rdropWhile, List.rdropWhile, List.reverse_cons, List.dropWhile_append]
    cases h : rest.reverse.dropWhile isBlank with
    | nil => by_cases hc : isBlank c <;> simp [hc]
    | cons d kept =>
      have hne : (d :: kept).reverse ≠ [] := by simp
      split
      · contradiction
      · simp

theorem trim_eq_rdropWhile (s : List Char) :
    trim s = (s.dropWhile isBlank).rdropWhile isBlank := trimEnd_eq_rdropWhile _

/-- A trimmed text does not begin with a blank. -/
theorem isBlank_of_head?_trim (h : (trim s).head? = some c) : isBlank c = false := by
  have hprefix : trim s <+: s.dropWhile isBlank := by
    rw [trim_eq_rdropWhile]
    exact List.rdropWhile_prefix isBlank _
  have hhead : (s.dropWhile isBlank).head? = some c := by
    obtain ⟨rest, hrest⟩ := hprefix
    rw [← hrest, List.head?_append, h, Option.some_or]
  have hdrop := List.head?_dropWhile_not isBlank s
  rw [hhead] at hdrop
  exact hdrop

/-- Neither does it end with one. -/
theorem isBlank_of_getLast?_trim (h : (trim s).getLast? = some c) : isBlank c = false := by
  rw [trim_eq_rdropWhile] at h
  have hne : (s.dropWhile isBlank).rdropWhile isBlank ≠ [] := by
    intro hnil
    simp [hnil] at h
  have hlast := List.rdropWhile_last_not isBlank _ hne
  rw [List.getLast?_eq_some_getLast hne, Option.some.injEq] at h
  rw [h] at hlast
  simpa using hlast

/-- A text without blanks at its ends is left as it is. -/
theorem trim_eq_self (hhead : ∀ c, s.head? = some c → isBlank c = false)
    (hlast : ∀ c, s.getLast? = some c → isBlank c = false) : trim s = s := by
  have hdrop : s.dropWhile isBlank = s := by
    rw [List.dropWhile_eq_self_iff]
    intro hpos
    simp [hhead s[0] (by rw [List.head?_eq_getElem?, List.getElem?_eq_getElem hpos])]
  rw [trim_eq_rdropWhile, hdrop, List.rdropWhile_eq_self_iff]
  intro hne
  simp [hlast (s.getLast hne) (List.getLast?_eq_some_getLast hne)]

end Text

/-! ## Parameters -/

/-- A text that stands between two commas of a parameter list, and has no blank around it. -/
structure Parameter (p : List Char) : Prop where
  nonempty : p ≠ []
  comma : ',' ∉ p
  head : ∀ c, p.head? = some c → Text.isBlank c = false
  last : ∀ c, p.getLast? = some c → Text.isBlank c = false

section Parameters
variable {s p : List Char} {ps : List (List Char)} {c : Char}

/-- No piece holds the character at which a text is cut. -/
theorem notMem_of_mem_splitOn (h : p ∈ s.splitOn c) : c ∉ p := by
  induction s generalizing p with
  | nil =>
    simp only [List.splitOn_nil, List.mem_singleton] at h
    simp [h]
  | cons x rest ih =>
    rw [List.splitOn_cons_eq_if_modifyHead] at h
    cases hrest : rest.splitOn c with
    | nil => exact absurd hrest (List.splitOn_ne_nil c rest)
    | cons first others =>
      rw [hrest] at ih h
      have hfirst : c ∉ first := ih List.mem_cons_self
      by_cases hx : x = c
      · simp only [hx, beq_self_eq_true, if_true, List.mem_cons] at h
        rcases h with rfl | h
        · simp
        · exact ih (List.mem_cons.mpr h)
      · simp only [beq_iff_eq, hx, if_false, List.modifyHead_cons, List.mem_cons] at h
        rcases h with rfl | h
        · simpa [hfirst] using Ne.symm hx
        · exact ih (List.mem_cons_of_mem _ h)

/-- What is joined with a character between the pieces holds what the pieces hold, and the character
if there are two pieces at least. -/
theorem mem_intercalate {x : Char} :
    x ∈ [c].intercalate ps ↔ (∃ p ∈ ps, x ∈ p) ∨ x = c ∧ 2 ≤ ps.length := by
  induction ps with
  | nil => simp
  | cons first others ih =>
    cases others with
    | nil => simp
    | cons second others =>
      rw [List.intercalate_cons_cons]
      simp only [List.mem_append, ih, List.mem_cons, List.length_cons]
      grind

/-- All pieces of a text are made of its characters. -/
theorem mem_of_mem_splitOn (h : p ∈ s.splitOn c) {x : Char} (hx : x ∈ p) : x ∈ s := by
  have hjoined : [c].intercalate (s.splitOn c) = s := List.intercalate_splitOn c
  rw [← hjoined, mem_intercalate]
  exact .inl ⟨p, h, hx⟩

/-- What is listed is a parameter, and its characters are those of the text. -/
theorem mem_parameterList (h : p ∈ parameterList s) : Parameter p ∧ ∀ x ∈ p, x ∈ s := by
  rw [parameterList, List.mem_filter, List.mem_map] at h
  obtain ⟨⟨piece, hpiece, rfl⟩, hne⟩ := h
  constructor
  · constructor
    · intro hnil
      simp [hnil] at hne
    · intro hcomma
      exact notMem_of_mem_splitOn hpiece (Text.mem_of_mem_trim hcomma)
    · intro c hc
      exact Text.isBlank_of_head?_trim hc
    · intro c hc
      exact Text.isBlank_of_getLast?_trim hc
  · intro x hx
    exact mem_of_mem_splitOn hpiece (Text.mem_of_mem_trim hx)

theorem Parameter.trim_eq (h : Parameter p) : Text.trim p = p := Text.trim_eq_self h.head h.last

/-- **Parameters that are joined by commas are listed again.** -/
theorem parameterList_intercalate (h : ∀ p ∈ ps, Parameter p) :
    parameterList ([','].intercalate ps) = ps := by
  cases hps : ps with
  | nil => simp [parameterList, List.splitOn_nil]
  | cons first others =>
    have hne : ps ≠ [] := by simp [hps]
    have htrim : ps.map Text.trim = ps := by
      conv_rhs => rw [← List.map_id' ps]
      exact List.map_congr_left fun p hp => (h p hp).trim_eq
    rw [← hps, parameterList, List.splitOn_intercalate ',' (fun p hp => (h p hp).comma) hne]
    rw [htrim, List.filter_eq_self]
    intro p hp
    simpa using (h p hp).nonempty

end Parameters

/-! ## Normal forms -/

/-- The parameters of a text, with commas between them. -/
def normalParameters (text : String) : String :=
  ",".intercalate ((parameterList text.toList).map String.ofList)

variable {id owner name text : String} {e : Element}

theorem toList_normalParameters :
    (normalParameters text).toList = [','].intercalate (parameterList text.toList) := by
  rw [normalParameters, String.toList_intercalate, List.map_map]
  simp [Function.comp_def]

/-- They are the parameters of that text as well. -/
theorem parameterList_normalParameters :
    parameterList (normalParameters text).toList = parameterList text.toList := by
  rw [toList_normalParameters]
  exact parameterList_intercalate fun p hp => (mem_parameterList hp).1

/-- Only commas are put in. -/
theorem mem_normalParameters {c : Char} (h : c ∈ (normalParameters text).toList) :
    c ∈ text.toList ∨ c = ',' := by
  rw [toList_normalParameters, mem_intercalate] at h
  rcases h with ⟨p, hp, hc⟩ | ⟨hc, -⟩
  · exact .inl ((mem_parameterList hp).2 c hc)
  · exact .inr hc

/-- **An id of a method stays one when its parameters are normalised.** -/
theorem MethodId.normal (h : MethodId id owner name text) :
    MethodId (owner ++ "." ++ (name ++ "(" ++ normalParameters text ++ ")")) owner name
      (normalParameters text) where
  dotted := h.dotted
  methodName := h.methodName
  notOpened hmem := by
    have hcases := mem_normalParameters hmem
    simp [h.notOpened] at hcases
  notClosed hmem := by
    have hcases := mem_normalParameters hmem
    simp [h.notClosed] at hcases
  id_eq := by simp only [String.append_assoc]

namespace Element

/-- The parameters of a method; other elements have none. -/
def parameters (e : Element) : List String :=
  match e.shape with
  | .method _ _ parameters => parameters
  | _ => []

/-- **Normalising the id of a method is done once and for all.** What is listed as its parameters is
not empty, holds no comma and no parenthesis, and neither begins nor ends with a blank. The id of its
type, a dot and its short name are the id of a method with the same type, name, parameters and short
name. The id of that method is its own normal form. -/
theorem normalised_rereads (h : read ⟨.method, id⟩ = .ok e) :
    (∀ p ∈ e.parameters, p ≠ "" ∧ (∀ c ∈ p.toList, c ≠ ',' ∧ c ≠ '(' ∧ c ≠ ')') ∧
      (∀ c, p.toList.head? = some c → Text.isBlank c = false) ∧
      ∀ c, p.toList.getLast? = some c → Text.isBlank c = false) ∧
    ∃ owner name normal, e.ownerId? = some owner ∧ e.methodName? = some name ∧
      read ⟨.method, owner ++ "." ++ e.simpleName⟩ = .ok normal ∧
      normal.ownerId? = some owner ∧ normal.methodName? = some name ∧
      normal.parameters = e.parameters ∧ normal.simpleName = e.simpleName ∧
      normal.id = owner ++ "." ++ normal.simpleName := by
  obtain ⟨owner, name, text, hid, hshape⟩ :=
    Shape.read?_method.mp (read_eq_ok_iff_shape.mp h).2
  have hparameters : e.parameters = (parameterList text.toList).map String.ofList := by
    rw [parameters, hshape]
  have hsimple : e.simpleName = name ++ "(" ++ normalParameters text ++ ")" := by
    rw [simpleName, hshape, normalParameters]
  constructor
  · intro p hp
    rw [hparameters, List.mem_map] at hp
    obtain ⟨piece, hpiece, rfl⟩ := hp
    obtain ⟨hpiece, hchars⟩ := mem_parameterList hpiece
    simp only [String.toList_ofList]
    refine ⟨?_, ?_, hpiece.head, hpiece.last⟩
    · intro hempty
      exact hpiece.nonempty (by simpa using congrArg String.toList hempty)
    · intro c hc
      refine ⟨?_, ?_, ?_⟩
      · rintro rfl
        exact hpiece.comma hc
      · rintro rfl
        exact hid.notOpened (hchars _ hc)
      · rintro rfl
        exact hid.notClosed (hchars _ hc)
  · have hread := Shape.read?_method.mpr ⟨owner, name, normalParameters text, hid.normal, rfl⟩
    rw [parameterList_normalParameters, ← hparameters, ← hsimple] at hread
    let normal : Element := ⟨owner ++ "." ++ e.simpleName, .method owner name e.parameters, hread⟩
    have hsame : normal.simpleName = e.simpleName := by
      rw [hsimple, normalParameters, ← hparameters]
      rfl
    refine ⟨owner, name, normal, by rw [ownerId?, hshape], by rw [methodName?, hshape], ?_,
      rfl, rfl, rfl, hsame, by rw [hsame]⟩
    exact read_eq_ok_iff_shape.mpr ⟨rfl, hread⟩

/-- Two parameters with blanks of several kinds around them, and two places with nothing but
blanks. -/
def blankId : String := "p.A.put(\tint ,\u00a0, java.util.Map<K,\u3000V>\n,)"

/-- The three pieces that are left are joined, and read again as they are. -/
theorem normalised_rereads_blanks : ∃ e normal,
    read ⟨.method, blankId⟩ = .ok e ∧ e.parameters = ["int", "java.util.Map<K", "V>"] ∧
    read ⟨.method, "p.A.put(int,java.util.Map<K,V>)"⟩ = .ok normal ∧
    normal.parameters = e.parameters := by
  have hshape : Shape.read? .method blankId
      = some (.method "p.A" "put" ["int", "java.util.Map<K", "V>"]) := by decide +kernel
  let e : Element := ⟨blankId, .method "p.A" "put" ["int", "java.util.Map<K", "V>"], hshape⟩
  have hread : read ⟨.method, blankId⟩ = .ok e := read_eq_ok_iff_shape.mpr ⟨rfl, hshape⟩
  obtain ⟨-, owner, name, normal, howner, -, hnormal, -, -, hparameters, -⟩ :=
    normalised_rereads hread
  obtain rfl : "p.A" = owner := Option.some.inj howner
  exact ⟨e, normal, hread, rfl, hnormal, hparameters⟩

end Element
end CodeAtlas
