import CodeAtlas.Fingerprint
import CodeAtlas.Proofs.Json.ReadBack

/-!
# Canonical texts of units

The canonical text of a unit is read back as the unit, so different units have different canonical
texts. In a stream of canonical texts each one ends where its value does, and only the line end
behind it is left. No string can hold a line end that is not escaped, but that is not even needed:
whatever a unit holds, its text is a value, and a value is read to its end and no further. So a
stream tells which units it was made of, and in which order.

## Main definitions

* `Json.Fields.Holds`: members that give the fields of a record in their order.
* `SourceUnit.decode_reading`, `SourceUnit.read_canonical`: a unit is read back.
* `SourceUnit.framed`, `SourceUnit.framed_injective`: the stream of several units.
-/
namespace CodeAtlas

/-! ## Records -/

namespace Json

/-- The members of an object give the fields of a record in their order, each once. Of the fields
that may be left out some may be missing. -/
inductive Fields.Holds : {ts : List Type} → Fields ts → List (Option String × Reading) →
    Values ts → Prop
  | nil : Holds .nil [] ()
  | required {α : Type} {ts : List Type} {name : String} {decode : Decode α} {rest : Fields ts}
      {members : List (Option String × Reading)} {value : Reading} {a : α} {values : Values ts}
      (hvalue : decode value = .ok a) (hnew : ∀ m ∈ members, m.1 ≠ some name)
      (hrest : Holds rest members values) :
      Holds (.required name decode rest) ((some name, value) :: members) (a, values)
  | optional {α : Type} {ts : List Type} {name : String} {absent : α} {decode : Decode α}
      {rest : Fields ts} {members : List (Option String × Reading)} {value : Reading} {a : α}
      {values : Values ts}
      (hvalue : decode value = .ok a) (hnew : ∀ m ∈ members, m.1 ≠ some name)
      (hrest : Holds rest members values) :
      Holds (.optional name absent decode rest) ((some name, value) :: members) (a, values)
  | absent {α : Type} {ts : List Type} {name : String} {absent : α} {decode : Decode α}
      {rest : Fields ts} {members : List (Option String × Reading)} {values : Values ts}
      (hnew : ∀ m ∈ members, m.1 ≠ some name) (hrest : Holds rest members values) :
      Holds (.optional name absent decode rest) members (absent, values)

variable {α : Type} {ts : List Type} {name : String} {decode : Decode α} {absent a : α}
  {rest fields : Fields ts} {members : List (Option String × Reading)} {closed : Bool}
  {draft : Draft ts} {slot : Option α} {value : Reading} {values : Values ts}

namespace Fields

theorem place_required (hvalue : decode value = .ok a) :
    (Fields.required name decode rest).place name value (none, draft) = .ok (some a, draft) := by
  refine (if_pos rfl).trans ?_
  rw [fill, hvalue]
  rfl

theorem place_optional (hvalue : decode value = .ok a) :
    (Fields.optional name absent decode rest).place name value (none, draft)
      = .ok (some a, draft) := by
  refine (if_pos rfl).trans ?_
  rw [fill, hvalue]
  rfl

/-- Members of other names are of no consequence for a field that has been met. -/
theorem ofMembers_required (h : ∀ m ∈ members, m.1 ≠ some name) :
    (Fields.required name decode rest).ofMembers members closed (some a, draft)
      = (rest.ofMembers members closed draft).map (a, ·) := by
  induction members generalizing draft with
  | nil => cases closed <;> rfl
  | cons m members ih =>
    obtain ⟨hm, hmembers⟩ := List.forall_mem_cons.mp h
    obtain ⟨_ | key, value⟩ := m
    · rfl
    · have hplace : (Fields.required name decode rest).place key value (some a, draft)
          = (rest.place key value draft).map (some a, ·) :=
        if_neg fun hkey => hm (congrArg some hkey)
      refine (congrArg (· >>= _) hplace).trans ?_
      rw [ofMembers]
      cases rest.place key value draft with
      | error problem => rfl
      | ok draft => exact ih hmembers

theorem ofMembers_optional (h : ∀ m ∈ members, m.1 ≠ some name) :
    (Fields.optional name absent decode rest).ofMembers members closed (slot, draft)
      = (rest.ofMembers members closed draft).map (slot.getD absent, ·) := by
  induction members generalizing draft with
  | nil => cases closed <;> rfl
  | cons m members ih =>
    obtain ⟨hm, hmembers⟩ := List.forall_mem_cons.mp h
    obtain ⟨_ | key, value⟩ := m
    · rfl
    · have hplace : (Fields.optional name absent decode rest).place key value (slot, draft)
          = (rest.place key value draft).map (slot, ·) :=
        if_neg fun hkey => hm (congrArg some hkey)
      refine (congrArg (· >>= _) hplace).trans ?_
      rw [ofMembers]
      cases rest.place key value draft with
      | error problem => rfl
      | ok draft => exact ih hmembers

theorem Holds.ofMembers_eq (h : fields.Holds members values) :
    fields.ofMembers members true (.empty ts) = .ok values := by
  induction h with
  | nil => rfl
  | required hvalue hnew hrest ih =>
    refine (congrArg (· >>= _) (place_required hvalue)).trans ?_
    exact (ofMembers_required hnew).trans (congrArg (Except.map _) ih)
  | optional hvalue hnew hrest ih =>
    refine (congrArg (· >>= _) (place_optional hvalue)).trans ?_
    exact (ofMembers_optional hnew).trans (congrArg (Except.map _) ih)
  | absent hnew hrest ih =>
    exact (ofMembers_optional hnew).trans (congrArg (Except.map _) ih)

end Fields

/-- **A record is decoded from an object that gives its fields.** -/
theorem Decode.record_eq_ok {kind : String} (h : fields.Holds members values) :
    Decode.record kind fields (.object members true) = .ok values :=
  h.ofMembers_eq

theorem Decode.list_reading {f : α → Json} (h : ∀ a, decode (f a).reading = .ok a) (as : List α) :
    Decode.list decode (Json.array (as.map f)).reading = .ok as := by
  have hitems : (itemReadings (as.map f)).mapM decode = .ok as := by
    induction as with
    | nil => rfl
    | cons a as ih =>
      rw [List.map_cons, itemReadings, List.mapM_cons, h, ih]
      rfl
  rw [reading, Decode.list, hitems]
  rfl

end Json

/-! ## Units -/

open Json (Decode Fields Reading memberReadings wordLimit)

theorem Category.decode_name (c : Category) : decode (.string (some c.name)) = .ok c := by
  cases c <;> rfl

theorem Relation.decode_name (r : Relation) : decode (.string (some r.name)) = .ok r := by
  obtain ⟨link, reversed⟩ := r
  cases link <;> cases reversed <;> rfl

theorem Modifiers.decode_reading (m : Modifiers) : decode m.json.reading = .ok m := by
  have hsize : m.bits.toNat < UInt32.size := m.bits.toNat_lt
  have hword : m.bits.toNat < wordLimit := by
    rw [wordLimit]
    rw [UInt32.size] at hsize
    omega
  simp [json, Json.reading, decode, Decode.word, Json.Numeral.quantity?, Json.ofDigits_digits,
    hword, hsize, Except.map]

theorem Key.decode_reading (k : Key) : decode k.json.reading = .ok k := by
  have hrecord : Decode.record "struct ElementKey"
      (.required "category" Category.decode <| .required "id" Decode.text .nil) k.json.reading
        = .ok (k.category, k.id, ()) := by
    refine Decode.record_eq_ok ?_
    refine .required (Category.decode_name k.category) (by simp [memberReadings]) ?_
    exact .required rfl (by simp [memberReadings]) .nil
  rw [decode, hrecord]
  rfl

theorem ElementFact.decode_reading (f : ElementFact) : decode f.json.reading = .ok f := by
  have hrecord : Decode.record "struct ElementFact"
      (.required "category" Category.decode <| .required "id" Decode.text <|
        .optional "modifiers" {} Modifiers.decode .nil) f.json.reading
        = .ok (f.category, f.id, f.modifiers, ()) := by
    refine Decode.record_eq_ok ?_
    refine .required (Category.decode_name f.category) (by simp [memberReadings]) ?_
    refine .required rfl (by simp [memberReadings]) ?_
    exact .optional (Modifiers.decode_reading f.modifiers) (by simp [memberReadings]) .nil
  rw [decode, hrecord]
  rfl

theorem RelationFact.decode_reading (f : RelationFact) : decode f.json.reading = .ok f := by
  have hrecord : Decode.record "struct RelationFact"
      (.required "domain" Key.decode <| .required "relation" Relation.decode <|
        .required "range" Key.decode <| .optional "transpose" true Decode.flag .nil) f.json.reading
        = .ok (f.domain, f.relation, f.range, f.transpose, ()) := by
    refine Decode.record_eq_ok ?_
    refine .required (Key.decode_reading f.domain) (by simp [memberReadings]) ?_
    refine .required (Relation.decode_name f.relation) (by simp [memberReadings]) ?_
    refine .required (Key.decode_reading f.range) (by simp [memberReadings]) ?_
    exact .optional rfl (by simp [memberReadings]) .nil
  rw [decode, hrecord]
  rfl

namespace SourceUnit

/-- **A unit is read back from what it is written as.** -/
theorem decode_reading (u : SourceUnit) : decode u.json.reading = .ok u := by
  have hlists : Fields.Holds
      (.optional "elements" [] (Decode.list ElementFact.decode) <|
        .optional "relations" [] (Decode.list RelationFact.decode) .nil)
      (memberReadings [("elements", .array (u.elements.map ElementFact.json)),
        ("relations", .array (u.relations.map RelationFact.json))])
      (u.elements, u.relations, ()) := by
    have helements := Decode.list_reading ElementFact.decode_reading u.elements
    have hrelations := Decode.list_reading RelationFact.decode_reading u.relations
    refine .optional helements (by simp [memberReadings]) ?_
    exact .optional hrelations (by simp [memberReadings]) .nil
  have hrecord : Decode.record "struct UnitFacts"
      (.required "path" Decode.text <| .optional "package" none Decode.textOrNull <|
        .optional "elements" [] (Decode.list ElementFact.decode) <|
        .optional "relations" [] (Decode.list RelationFact.decode) .nil) u.json.reading
        = .ok (u.path, u.package, u.elements, u.relations, ()) := by
    unfold json
    refine Decode.record_eq_ok ?_
    cases u.package with
    | none =>
      refine .required rfl (by simp [memberReadings]) ?_
      exact .absent (by simp [memberReadings]) hlists
    | some package =>
      refine .required rfl (by simp [memberReadings]) ?_
      exact .optional rfl (by simp [memberReadings]) hlists
  rw [decode, hrecord]
  rfl

/-- **Reading undoes writing.** The canonical text of a unit is read as the unit, whatever strings
and lists the unit holds, with or without a package, and wherever the text comes from. -/
theorem read_canonical (origin : String) (u : SourceUnit) : read origin u.canonical = .ok u := by
  have hdocument : Json.Document.read u.canonical = ⟨u.json.reading, true⟩ :=
    Json.Document.read_compact u.json
  have hrun : Decode.run decode u.canonical = .ok u := by
    rw [Decode.run, hdocument]
    exact congrArg (· >>= _) u.decode_reading
  rw [read, hrun]

/-- A line end cannot be taken for a part of a number. -/
theorem delimits_newline (s : List Char) : Json.Delimits ('\n' :: s) := by
  simp [Json.Delimits]

/-- Where two streams start with a canonical text and a line end, they start with the same unit. -/
theorem eq_of_chars_append {u v : SourceUnit} {s t : List Char}
    (h : u.json.chars ++ '\n' :: s = v.json.chars ++ '\n' :: t) : u = v ∧ s = t := by
  obtain ⟨hreading, hrest⟩ :=
    Json.reading_eq_of_chars_append (delimits_newline s) (delimits_newline t) h
  have hu := u.decode_reading
  rw [hreading, v.decode_reading] at hu
  exact ⟨(Except.ok.inj hu).symm, (List.cons.inj hrest).2⟩

/-! ## Streams -/

/-- The canonical texts of several units, each with a line end behind it. -/
def framed (us : List SourceUnit) : String := String.join (us.map fun u => u.canonical ++ "\n")

theorem toList_framed (us : List SourceUnit) :
    (framed us).toList = us.flatMap fun u => u.json.chars ++ ['\n'] := by
  simp [framed, List.flatMap_map, canonical]

theorem framed_append (us vs : List SourceUnit) : framed (us ++ vs) = framed us ++ framed vs := by
  rw [← String.toList_inj, String.toList_append, toList_framed, toList_framed, toList_framed,
    List.flatMap_append]

/-- **A stream tells the units that it was made of, and their order.** -/
theorem framed_injective : Function.Injective framed := by
  intro us vs h
  replace h := congrArg String.toList h
  rw [toList_framed, toList_framed] at h
  induction us generalizing vs with
  | nil =>
    cases vs with
    | nil => rfl
    | cons v vs => simp at h
  | cons u us ih =>
    cases vs with
    | nil => simp at h
    | cons v vs =>
      simp only [List.flatMap_cons, List.append_assoc, List.cons_append, List.nil_append] at h
      obtain ⟨rfl, hrest⟩ := eq_of_chars_append h
      rw [ih hrest]

end SourceUnit
end CodeAtlas
