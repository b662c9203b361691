import CodeAtlas.Packages
import CodeAtlas.Registry

/-!
# The grammar of ids

Ids are read by cutting them at dots and parentheses. Here their grammar is written down from the
other end, as the ways to put an id together from its parts. Reading accepts what can be put
together, nothing else, and gives the parts back.

There is only one way to take an id apart again. No identifier has a dot or a parenthesis in it, and
a parenthesis comes before anything that is free text. So whatever the parameters of a method look
like, its type ends at the last dot before the first parenthesis.

## Main definitions

* `Identifier`, `Dotted`, `MethodName`: the parts of ids.
* `FieldId`, `MethodId`: ids of members, with what they are made of.
* `Shape.read?_type`, `Shape.read?_field`, `Shape.read?_method`: what is read.
* `Element.read_exact`: which ids name elements, and what is known of these.
-/
namespace CodeAtlas

/-! ## How ids are put together -/

/-- An ASCII letter, an underscore or a dollar sign, and any word characters and dollar signs after
it. -/
def Identifier (n : String) : Prop :=
  ∃ c rest, n.toList = c :: rest ∧
    (('A' ≤ c ∧ c ≤ 'Z') ∨ ('a' ≤ c ∧ c ≤ 'z') ∨ c = '_' ∨ c = '$') ∧
    ∀ x ∈ rest, Text.isWord x = true ∨ x = '$'

/-- At least so many identifiers with dots between them. -/
def Dotted (least : Nat) (id : String) : Prop :=
  ∃ names : List String, least ≤ names.length ∧ (∀ n ∈ names, Identifier n) ∧
    id = ".".intercalate names

/-- The name of a method, a constructor or a static initializer. -/
def MethodName (n : String) : Prop := Identifier n ∨ n = "<init>" ∨ n = "<clinit>"

/-- The id of a field, with its type and its name. -/
structure FieldId (id owner name : String) : Prop where
  dotted : Dotted 1 owner
  identifier : Identifier name
  id_eq : id = owner ++ "." ++ name

/-- The id of a method, with its type, its name and the text of its parameters. -/
structure MethodId (id owner name parameters : String) : Prop where
  dotted : Dotted 1 owner
  methodName : MethodName name
  notOpened : '(' ∉ parameters.toList
  notClosed : ')' ∉ parameters.toList
  id_eq : id = owner ++ "." ++ name ++ "(" ++ parameters ++ ")"

variable {id owner name parameters n : String} {names : List String} {c : Char}

/-! ## Identifiers -/

theorem isIdentifierStart_iff : isIdentifierStart c = true ↔
    ('A' ≤ c ∧ c ≤ 'Z') ∨ ('a' ≤ c ∧ c ≤ 'z') ∨ c = '_' ∨ c = '$' := by
  have hupper : c.isUpper = true ↔ 'A' ≤ c ∧ c ≤ 'Z' := decide_eq_true_iff
  have hlower : c.isLower = true ↔ 'a' ≤ c ∧ c ≤ 'z' :=
    Bool.and_eq_true_iff.trans (and_congr decide_eq_true_iff decide_eq_true_iff)
  have halpha : c.isAlpha = (c.isUpper || c.isLower) := rfl
  simp only [isIdentifierStart, halpha, Bool.or_eq_true, decide_eq_true_eq, hupper, hlower,
    or_assoc]

theorem isIdentifier_iff : isIdentifier n.toList = true ↔ Identifier n := by
  have hpart : ∀ x, isIdentifierPart x = true ↔ Text.isWord x = true ∨ x = '$' := by
    simp [isIdentifierPart]
  cases hn : n.toList with
  | nil => simp [isIdentifier, Identifier, hn]
  | cons c rest =>
    simp only [isIdentifier, Bool.and_eq_true, List.all_eq_true, isIdentifierStart_iff, hpart]
    constructor
    · intro h
      exact ⟨c, rest, hn, h⟩
    · intro h
      obtain ⟨c', rest', hn', h⟩ := h
      obtain ⟨rfl, rfl⟩ := List.cons.inj (hn.symm.trans hn')
      exact h

/-- The characters between the parts of an id. -/
def separators : List Char := ['.', '(', ')']

theorem Identifier.notMem (h : Identifier n) (hc : c ∈ separators) : c ∉ n.toList := by
  have hnone : separators.all (fun c => !isIdentifierStart c && !isIdentifierPart c) = true := by
    decide
  have hno : isIdentifierStart c = false ∧ isIdentifierPart c = false := by
    simpa using List.all_eq_true.mp hnone c hc
  obtain ⟨hstart, hpart⟩ := hno
  have h := isIdentifier_iff.mpr h
  intro hmem
  cases hn : n.toList with
  | nil => simp [hn] at hmem
  | cons first rest =>
    simp only [hn, isIdentifier, Bool.and_eq_true, List.all_eq_true] at h hmem
    rcases List.mem_cons.mp hmem with rfl | hrest
    · simp [h.1] at hstart
    · simp [h.2 c hrest] at hpart

theorem isMethodName_iff : isMethodName n.toList = true ↔ MethodName n := by
  have hinit : n.toList = constructorName ↔ n = "<init>" := by
    rw [← String.toList_inj]; rfl
  have hclinit : n.toList = staticInitializerName ↔ n = "<clinit>" := by
    rw [← String.toList_inj]; rfl
  simp only [isMethodName, MethodName, Bool.or_eq_true, decide_eq_true_eq, isIdentifier_iff, hinit,
    hclinit]
  exact or_comm

theorem MethodName.notMem (h : MethodName n) (hc : c ∈ separators) : c ∉ n.toList := by
  have hinit : separators.all (· ∉ "<init>".toList) = true := by decide
  have hclinit : separators.all (· ∉ "<clinit>".toList) = true := by decide
  rcases h with h | rfl | rfl
  · exact h.notMem hc
  · exact of_decide_eq_true (List.all_eq_true.mp hinit c hc)
  · exact of_decide_eq_true (List.all_eq_true.mp hclinit c hc)

/-! ## Dotted names -/

theorem intercalate_concat (h : names ≠ []) (last : String) :
    ".".intercalate (names ++ [last]) = ".".intercalate names ++ "." ++ last := by
  induction names with
  | nil => exact absurd rfl h
  | cons first rest ih =>
    cases rest with
    | nil => simp [String.intercalate_cons_cons]
    | cons second rest =>
      have ih := ih (List.cons_ne_nil second rest)
      simp only [List.cons_append, String.intercalate_cons_cons, String.append_assoc] at ih ⊢
      rw [ih]

theorem isDotted_iff : isDotted id.toList = true ↔ Dotted 1 id := by
  simp only [isDotted, List.all_eq_true]
  constructor
  · intro h
    refine ⟨(id.toList.splitOn '.').map String.ofList, ?_, ?_, ?_⟩
    · rw [List.length_map]
      exact List.length_pos_iff.mpr (List.splitOn_ne_nil '.' id.toList)
    · intro n hn
      obtain ⟨piece, hpiece, rfl⟩ := List.mem_map.mp hn
      exact isIdentifier_iff.mp (by simpa using h piece hpiece)
    · rw [← String.toList_inj, String.toList_intercalate, List.map_map]
      simp [Function.comp_def, List.intercalate_splitOn]
  · intro h
    obtain ⟨names, hlength, hnames, rfl⟩ := h
    have hsplit : ((".".intercalate names).toList.splitOn '.') = names.map String.toList := by
      rw [String.toList_intercalate]
      refine List.splitOn_intercalate '.' ?_ ?_
      · simpa using fun n hn => (hnames n hn).notMem (c := '.') (by decide)
      · exact List.ne_nil_of_length_pos (by rw [List.length_map]; exact hlength)
    intro piece hpiece
    rw [hsplit] at hpiece
    obtain ⟨n, hn, rfl⟩ := List.mem_map.mp hpiece
    exact isIdentifier_iff.mpr (hnames n hn)

/-- A parenthesis is in no dotted name. -/
theorem Dotted.notMem {least : Nat} (h : Dotted least id) (hc : c ∈ ['(', ')']) :
    c ∉ id.toList := by
  have hdot : c ≠ '.' := by
    rintro rfl
    simp at hc
  have hseparator : c ∈ separators := List.mem_cons_of_mem _ hc
  obtain ⟨names, -, hnames, rfl⟩ := h
  induction names with
  | nil => simp
  | cons first rest ih =>
    have ih := ih fun n hn => hnames n (List.mem_cons_of_mem _ hn)
    have hfirst : c ∉ first.toList := (hnames first List.mem_cons_self).notMem hseparator
    cases rest with
    | nil => simpa using hfirst
    | cons second rest =>
      rw [String.intercalate_cons_cons, String.toList_append, String.toList_append]
      simp only [List.mem_append, not_or]
      exact ⟨⟨hfirst, by simpa using hdot⟩, ih⟩

/-- A longer dotted name is a shorter one with one more identifier behind it. -/
theorem dotted_succ_iff {least : Nat} (hleast : 0 < least) :
    Dotted (least + 1) id ↔
      ∃ owner name, Dotted least owner ∧ Identifier name ∧ id = owner ++ "." ++ name := by
  constructor
  · intro h
    obtain ⟨names, hlength, hnames, rfl⟩ := h
    rcases List.eq_nil_or_concat names with rfl | ⟨front, last, rfl⟩
    · simp at hlength
    · rw [List.concat_eq_append, List.length_append, List.length_singleton] at hlength
      simp only [List.concat_eq_append, List.mem_append, List.mem_singleton] at hnames ⊢
      have hfront : least ≤ front.length := by omega
      refine ⟨".".intercalate front, last, ⟨front, hfront, fun n hn => hnames n (.inl hn), rfl⟩,
        hnames last (.inr rfl), ?_⟩
      exact intercalate_concat (List.ne_nil_of_length_pos (by omega)) last
  · intro h
    obtain ⟨owner, name, ⟨names, hlength, hnames, rfl⟩, hname, rfl⟩ := h
    refine ⟨names ++ [name], by simpa using hlength, fun n hn => ?_, ?_⟩
    · rcases List.mem_append.mp hn with hn | hn
      · exact hnames n hn
      · rwa [List.mem_singleton.mp hn]
    · exact (intercalate_concat (List.ne_nil_of_length_pos (by omega)) name).symm

theorem dotted_two_iff : Dotted 2 id ↔ ∃ owner name, FieldId id owner name := by
  rw [dotted_succ_iff Nat.one_pos]
  constructor
  · intro h
    obtain ⟨owner, name, howner, hname, hid⟩ := h
    exact ⟨owner, name, howner, hname, hid⟩
  · intro h
    obtain ⟨owner, name, h⟩ := h
    exact ⟨owner, name, h.dotted, h.identifier, h.id_eq⟩

/-! ## How ids are read -/

namespace Shape

variable {s inner : List Char} {shape : Shape} {isName : List Char → Bool}

/-- The text up to a closing parenthesis, which comes last and is the only one. -/
theorem enclosed?_eq_some_iff :
    enclosed? s = some inner ↔ s = inner ++ [')'] ∧ '(' ∉ inner ∧ ')' ∉ inner := by
  constructor
  · intro h
    unfold enclosed? at h
    split at h
    next found hcut =>
      by_cases hopen : '(' ∈ found
      · simp [hopen] at h
      · obtain ⟨hs, hclosed⟩ := Text.cutFirst_eq_some.mp hcut
        rw [if_neg hopen, Option.some.injEq] at h
        subst h
        exact ⟨hs, hopen, hclosed⟩
    next => cases h
  · intro h
    obtain ⟨hs, hopen, hclosed⟩ := h
    have hcut : Text.cutFirst ')' s = some (inner, []) := Text.cutFirst_eq_some.mpr ⟨hs, hclosed⟩
    simp [enclosed?, hcut, hopen]

/-- A member has a dotted name and a name without dots. -/
theorem member?_eq_some_iff : member? s isName = some (owner, name) ↔
    s = owner.toList ++ '.' :: name.toList ∧ '.' ∉ name.toList ∧
      Dotted 1 owner ∧ isName name.toList = true := by
  rw [← isDotted_iff]
  constructor
  · intro h
    unfold member? at h
    split at h
    next front back hcut =>
      by_cases hparts : (isDotted front && isName back) = true
      · rw [if_pos hparts, Option.some.injEq, Prod.mk.injEq] at h
        obtain ⟨rfl, rfl⟩ := h
        simpa [and_assoc] using And.intro (Text.cutLast_eq_some.mp hcut) (by simpa using hparts)
      · simp [hparts] at h
    next => cases h
  · intro h
    obtain ⟨hs, hdot, howner, hname⟩ := h
    have hcut : Text.cutLast '.' s = some (owner.toList, name.toList) :=
      Text.cutLast_eq_some.mpr ⟨hs, hdot⟩
    simp [member?, hcut, howner, hname]

theorem read?_type : read? .type id = some shape ↔ Dotted 1 id ∧ shape = .type := by
  rw [← isDotted_iff, read?]
  grind

theorem read?_field : read? .field id = some shape ↔
    ∃ owner name, FieldId id owner name ∧ shape = .field owner name := by
  simp only [read?, Option.map_eq_some_iff, Prod.exists]
  refine exists_congr fun owner => exists_congr fun name => and_congr ?_ eq_comm
  rw [member?_eq_some_iff, isIdentifier_iff]
  constructor
  · intro h
    obtain ⟨hid, -, howner, hname⟩ := h
    exact ⟨howner, hname, by rw [← String.toList_inj, hid]; simp⟩
  · intro h
    exact ⟨by simp [h.id_eq], h.identifier.notMem (by decide), h.dotted, h.identifier⟩

theorem read?_method : read? .method id = some shape ↔
    ∃ owner name parameters, MethodId id owner name parameters ∧
      shape = .method owner name ((parameterList parameters.toList).map String.ofList) := by
  simp only [read?, Option.bind_eq_bind, Option.bind_eq_some_iff, Prod.exists]
  constructor
  · intro h
    obtain ⟨front, rest, hcut, inner, hinner, owner, name, hmember, h⟩ := h
    obtain ⟨hid, -⟩ := Text.cutFirst_eq_some.mp hcut
    obtain ⟨rfl, hopen, hclosed⟩ := enclosed?_eq_some_iff.mp hinner
    obtain ⟨rfl, -, howner, hname⟩ := member?_eq_some_iff.mp hmember
    refine ⟨owner, name, String.ofList inner,
      ⟨howner, isMethodName_iff.mp hname, by simpa using hopen, by simpa using hclosed, ?_⟩, ?_⟩
    · rw [← String.toList_inj, hid]
      simp
    · simpa [eq_comm] using h
  · intro h
    obtain ⟨owner, name, parameters, h, rfl⟩ := h
    -- the parenthesis behind the name is the first one, so it is where the id is cut
    have hfront : '(' ∉ owner.toList ++ '.' :: name.toList := by
      have howner : '(' ∉ owner.toList := h.dotted.notMem (by decide)
      have hname : '(' ∉ name.toList := h.methodName.notMem (by decide)
      simp [howner, hname]
    refine ⟨owner.toList ++ '.' :: name.toList, parameters.toList ++ [')'], ?_,
      parameters.toList, ?_, owner, name, ?_, rfl⟩
    · exact Text.cutFirst_eq_some.mpr ⟨by simp [h.id_eq], hfront⟩
    · exact enclosed?_eq_some_iff.mpr ⟨rfl, h.notOpened, h.notClosed⟩
    · exact member?_eq_some_iff.mpr
        ⟨rfl, h.methodName.notMem (by decide), h.dotted, isMethodName_iff.mpr h.methodName⟩

end Shape

/-! ## The parts are unique -/

theorem FieldId.unique {owner' name' : String} (h : FieldId id owner name)
    (h' : FieldId id owner' name') : owner' = owner ∧ name' = name := by
  have hread := Shape.read?_field.mpr ⟨owner, name, h, rfl⟩
  rw [Shape.read?_field.mpr ⟨owner', name', h', rfl⟩] at hread
  simpa using hread

theorem MethodId.unique {owner' name' parameters' : String} (h : MethodId id owner name parameters)
    (h' : MethodId id owner' name' parameters') :
    owner' = owner ∧ name' = name ∧ parameters' = parameters := by
  have hread := Shape.read?_method.mpr ⟨owner, name, parameters, h, rfl⟩
  rw [Shape.read?_method.mpr ⟨owner', name', parameters', h', rfl⟩] at hread
  obtain ⟨rfl, rfl, -⟩ : owner' = owner ∧ name' = name ∧ _ := by simpa using hread
  have hid := h'.id_eq.symm.trans h.id_eq
  exact ⟨rfl, rfl, by simpa [← String.toList_inj] using hid⟩

/-- No name begins like that of an initializer but these names themselves. -/
theorem MethodName.isPrefixOf_iff (h : MethodName name) :
    (constructorName.isPrefixOf name.toList || staticInitializerName.isPrefixOf name.toList) = true ↔
      name = "<init>" ∨ name = "<clinit>" := by
  have hless : isIdentifierStart '<' = false := by decide
  rcases h with h | rfl | rfl
  · obtain ⟨c, rest, hn, hstart, -⟩ := h
    have hne : '<' ≠ c := by
      rintro rfl
      rw [isIdentifierStart_iff.mpr hstart] at hless
      cases hless
    -- both names of initializers begin with a bracket, which no identifier does
    refine iff_of_false ?_ ?_
    · simp [hn, constructorName, staticInitializerName, hne]
    · rintro (rfl | rfl) <;>
        · obtain ⟨rfl, -⟩ := List.cons.inj hn
          exact hne rfl
  · exact iff_of_true (by decide) (.inl rfl)
  · exact iff_of_true (by decide) (.inr rfl)

/-! ## What is known of members -/

namespace Element

variable {e : Element}

/-- The type that declares a member, in each of the ways to ask for it, in every registry and for
every project. -/
structure DeclaredIn (e t : Element) : Prop where
  id_eq : e.ownerId? = some t.id
  named : read ⟨.type, t.id⟩ = .ok t
  owner_eq : e.owner? = some t
  instance_eq : ∀ r : Registry, ∃ i, (r.owner e).1 = some i ∧ i.element = t
  package_eq : e.package = t.package
  owns_eq : ∀ project : Packages, project.owns e = project.owns t

theorem read_eq_ok_iff_shape {k : Key} :
    read k = .ok e ↔ e.id = k.id ∧ Shape.read? k.category k.id = some e.shape := by
  constructor
  · intro h
    obtain rfl := key_of_read? (read_eq_ok.mp h)
    exact ⟨rfl, e.reads⟩
  · intro h
    obtain ⟨hid, hshape⟩ := h
    have hkey : e.key = k := by rw [key, category, Shape.category_of_read? hshape, hid]
    rw [← hkey]
    exact read_eq_ok.mpr (read?_key e)

/-- A key names an element if and only if its id can be taken apart. -/
theorem exists_read_iff {category : Category} :
    (∃ e, read ⟨category, id⟩ = .ok e) ↔ ∃ shape, Shape.read? category id = some shape := by
  constructor
  · intro h
    obtain ⟨e, h⟩ := h
    exact ⟨e.shape, (read_eq_ok_iff_shape.mp h).2⟩
  · intro h
    obtain ⟨shape, h⟩ := h
    exact ⟨⟨id, shape, by rw [Shape.category_of_read? h]; exact h⟩,
      read_eq_ok_iff_shape.mpr ⟨rfl, h⟩⟩

/-- An element whose type has a dotted name is declared in the type of that name. -/
theorem declaredIn (h : e.ownerId? = some owner) (howner : Dotted 1 owner) :
    ∃ t : Element, t.id = owner ∧ e.DeclaredIn t := by
  let t : Element := ⟨owner, .type, Shape.read?_type.mpr ⟨howner, rfl⟩⟩
  have hread : read? ⟨.type, owner⟩ = some t := read?_key t
  have hnamed : read ⟨.type, owner⟩ = .ok t := read_eq_ok.mpr hread
  have hpackage : e.package = t.package := by rw [package, h]; rfl
  refine ⟨t, rfl, h, hnamed, ?_, fun r => ?_, hpackage, fun project => ?_⟩
  · rw [owner?, h]
    exact hread
  · have hget := r.element_get ⟨.type, owner⟩
    rw [hnamed] at hget
    cases hi : (r.get ⟨.type, owner⟩).1 with
    | error fault => simp [hi, Except.map] at hget
    | ok i =>
      rw [hi] at hget
      exact ⟨i, by simp [Registry.owner, h, hi, Except.toOption], Except.ok.inj hget⟩
  · rw [Packages.owns, hpackage, ← Packages.owns]

/-- A field and its type. -/
theorem field_of_read (h : read ⟨.field, id⟩ = .ok e) : ∃ t name,
    e.DeclaredIn t ∧ e.simpleName = name ∧ FieldId id t.id name := by
  obtain ⟨owner, name, hid, hshape⟩ := Shape.read?_field.mp (read_eq_ok_iff_shape.mp h).2
  have howner : e.ownerId? = some owner := by rw [ownerId?, hshape]
  obtain ⟨t, rfl, ht⟩ := declaredIn howner hid.dotted
  exact ⟨t, name, ht, by rw [simpleName, hshape], hid⟩

/-- A method and its type. -/
theorem method_of_read (h : read ⟨.method, id⟩ = .ok e) : ∃ t name parameters,
    e.DeclaredIn t ∧ e.methodName? = some name ∧ MethodId id t.id name parameters := by
  obtain ⟨owner, name, parameters, hid, hshape⟩ :=
    Shape.read?_method.mp (read_eq_ok_iff_shape.mp h).2
  have howner : e.ownerId? = some owner := by rw [ownerId?, hshape]
  obtain ⟨t, rfl, ht⟩ := declaredIn howner hid.dotted
  exact ⟨t, name, parameters, ht, by rw [methodName?, hshape], hid⟩

/-- **Ids are read by exactly their grammar, and taken apart without loss.** An id names a type if
and only if it is a dotted name, a field if and only if it is a dotted name of two parts at least,
and a method if and only if it is put together from a dotted name, the name of a method and
parameters without parentheses. A member that is read gives back the type and the name that its id
is put together from, and there is no other way to put it together. The type is always there,
whatever has been interned, and the member is in its package, so that a project owns either both of
them or none. A method is an initializer if and only if its name is one of the two in angle
brackets. -/
theorem read_exact (id : String) :
    ((∃ e, read ⟨.type, id⟩ = .ok e) ↔ Dotted 1 id) ∧
    ((∃ e, read ⟨.field, id⟩ = .ok e) ↔ Dotted 2 id) ∧
    ((∃ e, read ⟨.method, id⟩ = .ok e) ↔
      ∃ owner name parameters, MethodId id owner name parameters) ∧
    (∀ e, read ⟨.field, id⟩ = .ok e → ∃ t name,
      e.DeclaredIn t ∧ e.simpleName = name ∧ FieldId id t.id name ∧
      ∀ owner' name', FieldId id owner' name' → owner' = t.id ∧ name' = name) ∧
    (∀ e, read ⟨.method, id⟩ = .ok e → ∃ t name parameters,
      e.DeclaredIn t ∧ e.methodName? = some name ∧ MethodId id t.id name parameters ∧
      (∀ owner' name' parameters', MethodId id owner' name' parameters' →
        owner' = t.id ∧ name' = name ∧ parameters' = parameters) ∧
      (e.isInitializer = true ↔ name = "<init>" ∨ name = "<clinit>")) := by
  refine ⟨?type, ?field, ?method, fun e h => ?fieldParts, fun e h => ?methodParts⟩
  case type => simp [exists_read_iff, Shape.read?_type]
  case field =>
    simp only [exists_read_iff, Shape.read?_field, dotted_two_iff]
    grind
  case method =>
    simp only [exists_read_iff, Shape.read?_method]
    grind
  case fieldParts =>
    obtain ⟨t, name, ht, hname, hid⟩ := field_of_read h
    exact ⟨t, name, ht, hname, hid, fun _ _ => hid.unique⟩
  case methodParts =>
    obtain ⟨t, name, parameters, ht, hname, hid⟩ := method_of_read h
    refine ⟨t, name, parameters, ht, hname, hid, fun _ _ _ => hid.unique, ?_⟩
    rw [← hid.methodName.isPrefixOf_iff, isInitializer, hname]

/-! ## Dots and brackets on both sides of a parenthesis -/

/-- A constructor whose parameters look like the id of another member. -/
def decoyConstructor : Element where
  id := "lib.Café$Entry.<init>(java.util.Map<K, V>, lib.Other.<clinit>)"
  shape := .method "lib.Café$Entry" "<init>" ["java.util.Map<K", "V>", "lib.Other.<clinit>"]
  reads := by decide +kernel

/-- Its type and its name are the ones before the parenthesis, and could be no others. -/
theorem read_exact_decoy : ∃ t parameters,
    read ⟨.method, decoyConstructor.id⟩ = .ok decoyConstructor ∧
    t.id = "lib.Café$Entry" ∧ decoyConstructor.DeclaredIn t ∧
    MethodId decoyConstructor.id "lib.Café$Entry" "<init>" parameters ∧
    (∀ owner' name' parameters', MethodId decoyConstructor.id owner' name' parameters' →
      owner' = "lib.Café$Entry" ∧ name' = "<init>" ∧ parameters' = parameters) ∧
    decoyConstructor.isInitializer = true := by
  have hread : read ⟨.method, decoyConstructor.id⟩ = .ok decoyConstructor :=
    read_eq_ok_iff_shape.mpr ⟨rfl, decoyConstructor.reads⟩
  obtain ⟨-, -, -, -, hparts⟩ := read_exact decoyConstructor.id
  obtain ⟨t, name, parameters, ht, hname, hid, hunique, hinit⟩ := hparts decoyConstructor hread
  obtain rfl : "<init>" = name := Option.some.inj hname
  have howner : "lib.Café$Entry" = t.id := Option.some.inj ht.id_eq
  rw [← howner] at hid hunique
  exact ⟨t, parameters, hread, howner.symm, ht, hid, hunique, hinit.mpr (.inl rfl)⟩

end Element
end CodeAtlas
