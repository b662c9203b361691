import CodeAtlas.Proofs.Hierarchy.Ancestry

/-!
# What a catalogue lists

Types and members are kept in one table, and a type that is listed later writes over what earlier
ones have written: over a type with the same id, and over any member with the same id, whichever
type lists it. So what is told about a type is what the last type with its id gives, and the
modifiers of a member are those of its last listing. Keys of members and keys of types never meet.

## Main definitions

* `TypeEntry.named`, `TypeEntry.members`: what a listed type says, relation by relation and category
  by category.
* `Catalogue.getElem?_type`, `Catalogue.getElem?_member`: what is in the table in the end.
* `Catalogue.listed_exact`: what is told of types and members outside the project.
-/
namespace CodeAtlas

/-! ## The last of a list -/

section Last
variable {α β : Type} {p : α → Bool} {q : β → Bool} {f : α → β} {xs ys : List α} {x : α}

theorem findRev?_append : (xs ++ ys).findRev? p = (ys.findRev? p).or (xs.findRev? p) := by
  simp only [List.findRev?_eq_find?_reverse, List.reverse_append, List.find?_append]

theorem findRev?_cons :
    (x :: xs).findRev? p = (xs.findRev? p).or (if p x then some x else none) := by
  simp only [List.findRev?_eq_find?_reverse, List.reverse_cons, List.find?_append,
    List.find?_singleton]

theorem findRev?_map : (xs.map f).findRev? q = (xs.findRev? (q ∘ f)).map f := by
  simp only [List.findRev?_eq_find?_reverse, ← List.map_reverse, List.find?_map]

theorem findRev?_eq_none : xs.findRev? p = none ↔ ∀ x ∈ xs, ¬ p x = true := by
  simp [List.findRev?_eq_find?_reverse]

end Last

/-! ## What a listed type says -/

/-- The ids that a listed type gives for a relation. Interfaces that an interface names are
extended, and those that a class names are implemented. -/
def TypeEntry.named (t : TypeEntry) (r : Relation) : List String :=
  match r with
  | .declaresType => t.memberTypes
  | .declaresMethod => t.methods.map (·.id)
  | .declaresField => t.fields.map (·.id)
  | .extendsClass => t.superclass.toList
  | .implementsInterface => if t.isInterface then [] else t.interfaces
  | .extendsInterfaces => if t.isInterface then t.interfaces else []
  | _ => []

/-- The members of a category that a type lists. -/
def TypeEntry.members (t : TypeEntry) : Category → List MemberEntry
  | .type => []
  | .method => t.methods
  | .field => t.fields

/-- What a listed member declares: its modifiers alone. -/
def MemberEntry.declaration (m : MemberEntry) : Declaration := { modifiers := m.modifiers }

/-- The six relations between a type and what it declares or extends. -/
theorem Relation.isDeclarative_iff {r : Relation} :
    r.isDeclarative = true ↔ r ∈ [declaresType, declaresMethod, declaresField, extendsClass,
      implementsInterface, extendsInterfaces] := by
  obtain ⟨link, reversed⟩ := r
  cases link <;> cases reversed <;> decide

/-- The ids that a type gives become keys of the category that the relation leads to. -/
theorem TypeEntry.related_declaration {t : TypeEntry} {r : Relation} (hr : r.isDeclarative = true) :
    t.declaration.related r = (t.named r).map (⟨r.range, ·⟩) := by
  have hmem := Relation.isDeclarative_iff.mp hr
  simp only [List.mem_cons, List.not_mem_nil, or_false] at hmem
  rcases hmem with rfl | rfl | rfl | rfl | rfl | rfl
  · rfl
  · simp [Declaration.related, named, declaration, Relation.range, Link.target]
  · simp [Declaration.related, named, declaration, Relation.range, Link.target]
  · cases hs : t.superclass <;>
      simp [Declaration.related, named, declaration, Relation.range, Link.target, hs]
  · by_cases hi : t.isInterface <;>
      simp [Declaration.related, named, declaration, Relation.range, Link.target, hi]
  · by_cases hi : t.isInterface <;>
      simp [Declaration.related, named, declaration, Relation.range, Link.target, hi]

namespace Catalogue

variable {c : Catalogue} {t : TypeEntry} {types : List TypeEntry} {id : String}
  {category other : Category} {members : List MemberEntry}

/-! ## One type -/

/-- Of the entries under a key that are written into a table, the last one stays. -/
theorem getElem?_foldl_insert (entries : List (Key × Declaration))
    (table : Std.ExtTreeMap Key Declaration) (k : Key) :
    (entries.foldl (fun table (k, d) => table.insert k d) table)[k]?
      = ((entries.findRev? (·.1 = k)).map (·.2)).or table[k]? := by
  induction entries generalizing table with
  | nil => simp [List.findRev?]
  | cons entry entries ih =>
    obtain ⟨key, d⟩ := entry
    rw [List.foldl_cons, ih, findRev?_cons, Std.ExtTreeMap.getElem?_insert]
    by_cases hk : key = k
    · cases entries.findRev? (·.1 = k) <;> simp [hk]
    · cases entries.findRev? (·.1 = k) <;> simp [hk, Std.LawfulEqCmp.compare_eq_iff_eq]

/-- Under a key there are members of its category only. -/
theorem findRev?_members :
    ((members.map fun m => ((⟨category, m.id⟩ : Key), m.declaration)).findRev?
        (·.1 = ⟨other, id⟩)).map (·.2)
      = if category = other then (members.findRev? (·.id = id)).map (·.declaration) else none := by
  rw [findRev?_map]
  by_cases hc : category = other
  · simp [hc, Function.comp_def]
  · simp [hc, Function.comp_def]

theorem findRev?_declarations : (t.declarations.findRev? (·.1 = ⟨category, id⟩)).map (·.2)
    = (if category = .type ∧ t.id = id then some t.declaration else none).or
        (((t.members category).findRev? (·.id = id)).map (·.declaration)) := by
  have hsplit : t.declarations = t.methods.map (fun m => (⟨.method, m.id⟩, m.declaration)) ++
      t.fields.map (fun f => (⟨.field, f.id⟩, f.declaration)) ++
      [(⟨.type, t.id⟩, t.declaration)] := rfl
  rw [hsplit, findRev?_append, findRev?_append, Option.map_or, Option.map_or, findRev?_members,
    findRev?_members]
  cases category with
  | type => by_cases hid : t.id = id <;> simp [List.findRev?, TypeEntry.members, hid]
  | method => simp [List.findRev?, TypeEntry.members]
  | field => simp [List.findRev?, TypeEntry.members]

/-- A type that is listed writes its own entry and those of its members. -/
theorem getElem?_insert : (c.insert t).table[(⟨category, id⟩ : Key)]?
    = ((if category = .type ∧ t.id = id then some t.declaration else none).or
        (((t.members category).findRev? (·.id = id)).map (·.declaration))).or
          c.table[(⟨category, id⟩ : Key)]? := by
  rw [insert, getElem?_foldl_insert, findRev?_declarations]

/-! ## All types -/

theorem getElem?_foldl_type : (types.foldl insert c).table[(⟨.type, id⟩ : Key)]?
    = ((types.findRev? (·.id = id)).map (·.declaration)).or c.table[(⟨.type, id⟩ : Key)]? := by
  induction types generalizing c with
  | nil => simp [List.findRev?]
  | cons t types ih =>
    rw [List.foldl_cons, ih, getElem?_insert, findRev?_cons]
    cases types.findRev? (·.id = id) with
    | some last => simp
    | none => by_cases hid : t.id = id <;> simp [TypeEntry.members, hid]

theorem getElem?_foldl_member (hc : category ≠ .type) :
    (types.foldl insert c).table[(⟨category, id⟩ : Key)]?
      = (((types.flatMap (·.members category)).findRev? (·.id = id)).map (·.declaration)).or
          c.table[(⟨category, id⟩ : Key)]? := by
  induction types generalizing c with
  | nil => simp
  | cons t types ih =>
    rw [List.foldl_cons, ih, getElem?_insert, List.flatMap_cons, findRev?_append, Option.map_or]
    simp [hc, Option.or_assoc]

/-- Under the id of a type stands what the last type with that id lists. -/
theorem getElem?_type : (ofList types).table[(⟨.type, id⟩ : Key)]?
    = (types.findRev? (·.id = id)).map (·.declaration) := by
  rw [ofList, getElem?_foldl_type]
  simp

/-- Under the id of a member stands its last listing, whichever type it is in. -/
theorem getElem?_member (hc : category ≠ .type) : (ofList types).table[(⟨category, id⟩ : Key)]?
    = ((types.flatMap (·.members category)).findRev? (·.id = id)).map (·.declaration) := by
  rw [ofList, getElem?_foldl_member hc]
  simp

end Catalogue

namespace Library

variable {types : List TypeEntry} {c e m : Element} {r : Relation}

/-! ## What is told -/

theorem key_of_isType (h : c.isType = true) : c.key = ⟨.type, c.id⟩ := by
  have hcategory : c.category = .type := by simpa [Element.isType] using h
  rw [Element.key, hcategory]

theorem range_catalogue (hc : c.isType = true) : (catalogue (.ofList types)).range c r
    = match types.findRev? (·.id = c.id) with
      | some t => .ofList ((t.declaration.related r).filterMap Element.read?)
      | none => ∅ := by
  rw [range, declaration?, key_of_isType hc, Catalogue.getElem?_type]
  cases types.findRev? (·.id = c.id) <;> rfl

/-- The elements that keys of one category name are those with the ids of the keys. -/
theorem mem_filterMap_read? {ids : List String} {category : Category} :
    e ∈ (ids.map (⟨category, ·⟩)).filterMap Element.read? ↔ e.category = category ∧ e.id ∈ ids := by
  rw [List.mem_filterMap]
  constructor
  · intro h
    obtain ⟨k, hk, hread⟩ := h
    obtain ⟨id, hid, rfl⟩ := List.mem_map.mp hk
    have hkey : (⟨e.category, e.id⟩ : Key) = ⟨category, id⟩ := Element.key_of_read? hread
    obtain ⟨rfl, rfl⟩ := Key.mk.inj hkey
    exact ⟨rfl, hid⟩
  · intro h
    obtain ⟨rfl, hid⟩ := h
    exact ⟨e.key, List.mem_map.mpr ⟨e.id, hid, rfl⟩, Element.read?_key e⟩

/-- What the last type with an id gives for a relation is what is told. -/
theorem mem_range_of_last {t : TypeEntry} (hc : c.isType = true) (hr : r.isDeclarative = true)
    (ht : types.findRev? (·.id = c.id) = some t) :
    e ∈ (catalogue (.ofList types)).range c r ↔ e.category = r.range ∧ e.id ∈ t.named r := by
  rw [range_catalogue hc, ht, ElementSet.mem_ofList, TypeEntry.related_declaration hr,
    mem_filterMap_read?]

theorem range_of_unlisted (hc : c.isType = true) (hnone : ∀ t ∈ types, t.id ≠ c.id) :
    (catalogue (.ofList types)).range c r = ∅ := by
  have hlast : types.findRev? (·.id = c.id) = none :=
    findRev?_eq_none.mpr fun t ht => by simpa using hnone t ht
  rw [range_catalogue hc, hlast]

/-- The modifiers of a member are those of its last listing. -/
theorem modifiers_of_last {listing : MemberEntry} (hm : m.isType = false)
    (h : (types.flatMap (·.members m.category)).findRev? (·.id = m.id) = some listing) :
    Library.modifiers (.catalogue (.ofList types)) m = .ok listing.modifiers := by
  have hmember : m.category ≠ .type := by simpa [Element.isType] using hm
  rw [modifiers_catalogue, Element.key, Catalogue.getElem?_member hmember, h]
  rfl

theorem modifiers_of_unlisted (hm : m.isType = false)
    (h : (types.flatMap (·.members m.category)).findRev? (·.id = m.id) = none) :
    Library.modifiers (.catalogue (.ofList types)) m
      = .error (.conversion m.key.text .undeclared) := by
  have hmember : m.category ≠ .type := by simpa [Element.isType] using hm
  have hget : (Catalogue.ofList types).table[m.key]? = none := by
    rw [Element.key, Catalogue.getElem?_member hmember, h]
    rfl
  rw [modifiers_catalogue, hget]

end Library

namespace Catalogue

/-- **What is told of the outside is what was listed last.** Types are listed one after the other,
in whatever way their ids and members meet and whether or not these are ids of elements. The
question what a type outside the project declares or extends is always answered, and whatever is
recorded is of no consequence for the answer: it holds the elements whose ids the last type with
that id gives, and nothing if there is no such type. The declared modifiers of a member are those of
its last listing in any type, and they are refused if and only if no type lists it. -/
theorem listed_exact (types : List TypeEntry) :
    (∀ (project : Packages) (c : Element), c.isType = true → project.owns c = false →
      ∀ r ∈ [Relation.declaresType, .declaresMethod, .declaresField, .extendsClass,
        .implementsInterface, .extendsInterfaces], ∃ listed : ElementSet,
        (∀ store, View.range? ⟨⟨project, .catalogue (.ofList types)⟩, store⟩ c r = .ok listed) ∧
        (∀ t, types.findRev? (·.id = c.id) = some t →
          ∀ e, e ∈ listed ↔ e.category = r.range ∧ e.id ∈ t.named r) ∧
        ((∀ t ∈ types, t.id ≠ c.id) → listed = ∅)) ∧
    ∀ m : Element, m.isType = false →
      (∀ listing, (types.flatMap (·.members m.category)).findRev? (·.id = m.id) = some listing →
        Library.modifiers (.catalogue (.ofList types)) m = .ok listing.modifiers) ∧
      ((∃ fault, Library.modifiers (.catalogue (.ofList types)) m = .error fault) ↔
        ∀ t ∈ types, ∀ listing ∈ t.members m.category, listing.id ≠ m.id) := by
  constructor
  · intro project c hc hout r hmem
    have hr : r.isDeclarative = true := Relation.isDeclarative_iff.mpr hmem
    refine ⟨(Library.catalogue (.ofList types)).range c r, fun store => ?_,
      fun t ht e => Library.mem_range_of_last hc hr ht, Library.range_of_unlisted hc⟩
    have hforeign : View.isForeign ⟨⟨project, .catalogue (.ofList types)⟩, store⟩ c r = true := by
      simp [View.isForeign, hc, hout, hr]
    rw [View.range?, if_pos hforeign]
  · intro m hm
    refine ⟨fun listing h => Library.modifiers_of_last hm h, ?_⟩
    have hnone : (types.flatMap (·.members m.category)).findRev? (·.id = m.id) = none ↔
        ∀ t ∈ types, ∀ listing ∈ t.members m.category, listing.id ≠ m.id := by
      simp only [findRev?_eq_none, List.mem_flatMap, decide_eq_true_eq]
      grind
    rw [← hnone]
    constructor
    · intro h
      obtain ⟨fault, hfault⟩ := h
      cases hlast : (types.flatMap (·.members m.category)).findRev? (·.id = m.id) with
      | none => rfl
      | some listing =>
        rw [Library.modifiers_of_last hm hlast] at hfault
        cases hfault
    · intro h
      exact ⟨_, Library.modifiers_of_unlisted hm h⟩

/-! ## A type that is listed twice -/

/-- A class that comes back as an interface, with other members. Some of the ids are none, and
another type lists a member of the class. -/
def revisedTypes : List TypeEntry := [
  { id := "lib.L", interfaces := ["lib.I"], methods := [⟨"lib.L.size()", ⟨0x1⟩⟩] },
  { id := "lib.M", methods := [⟨"lib.L.size()", ⟨0x401⟩⟩] },
  { id := "lib.L", isInterface := true, interfaces := ["lib.J", "not a class"],
    methods := [⟨"lib.L.bad", ⟨0x1⟩⟩, ⟨"lib.L.get()", ⟨0x401⟩⟩] }]

/-- The type that is listed twice. -/
def revisedType : Element := ⟨"lib.L", .type, by decide +kernel⟩

/-- The interface that it extends in the end. -/
def lastInterface : Element := ⟨"lib.J", .type, by decide +kernel⟩

/-- The member that its last listing is without. -/
def droppedMethod : Element := ⟨"lib.L.size()", .method "lib.L" "size" [], by decide +kernel⟩

/-- Whatever is recorded, the type extends one interface and implements none. The method has the
modifiers of its listing in the other type. -/
theorem listed_exact_twice :
    (∃ listed : ElementSet, (∀ store, View.range? ⟨⟨.ofList [], .catalogue (.ofList revisedTypes)⟩,
      store⟩ revisedType .extendsInterfaces = .ok listed) ∧
      ∀ e, e ∈ listed ↔ e.category = .type ∧ e.id ∈ ["lib.J", "not a class"]) ∧
    (∃ listed : ElementSet, (∀ store, View.range? ⟨⟨.ofList [], .catalogue (.ofList revisedTypes)⟩,
      store⟩ lastInterface .extendsInterfaces = .ok listed) ∧ listed = ∅) ∧
    Library.modifiers (.catalogue (.ofList revisedTypes)) droppedMethod = .ok ⟨0x401⟩ := by
  obtain ⟨hrange, hmodifiers⟩ := listed_exact revisedTypes
  obtain ⟨listed, hlisted, hlast, -⟩ := hrange (.ofList []) revisedType (by decide +kernel)
    (by decide +kernel) .extendsInterfaces (by decide +kernel)
  obtain ⟨none, hnone, -, hempty⟩ := hrange (.ofList []) lastInterface (by decide +kernel)
    (by decide +kernel) .extendsInterfaces (by decide +kernel)
  obtain ⟨hmember, -⟩ := hmodifiers droppedMethod (by decide +kernel)
  exact ⟨⟨listed, hlisted, hlast _ rfl⟩, ⟨none, hnone, hempty (by decide +kernel)⟩, hmember _ rfl⟩

end Catalogue
end CodeAtlas
