import CodeAtlas.Library.Basic

/-!
# Catalogue documents

A catalogue is written as one JSON object that lists types. Whatever a type leaves out is empty,
even its id; a member must have an id.

## Main definitions

* `TypeEntry.read`: one listed type.
* `Catalogue.read`: a whole document.
-/
namespace CodeAtlas

open Json

/-- The fields of a member. -/
def MemberEntry.fields : Fields [String, Modifiers] :=
  .required "id" Decode.text <| .optional "modifiers" {} Modifiers.decode .nil

/-- A member of a listed type. -/
def MemberEntry.decode : Decode MemberEntry := fun r => do
  let (id, modifiers, ()) ← Decode.record "struct LibraryMember" fields r
  return { id, modifiers }

/-- The fields of a listed type. -/
def TypeEntry.fieldList :
    Fields [String, Modifiers, Bool, Option String, List String, List String, List MemberEntry,
      List MemberEntry] :=
  .optional "id" "" Decode.text <|
  .optional "modifiers" {} Modifiers.decode <|
  .optional "interface" false Decode.flag <|
  .optional "superclass" none Decode.textOrNull <|
  .optional "interfaces" [] (Decode.list Decode.text) <|
  .optional "member_types" [] (Decode.list Decode.text) <|
  .optional "methods" [] (Decode.list MemberEntry.decode) <|
  .optional "fields" [] (Decode.list MemberEntry.decode) .nil

/-- A listed type. -/
def TypeEntry.decode : Decode TypeEntry := fun r => do
  let (id, modifiers, isInterface, superclass, interfaces, memberTypes, methods, fields, ()) ←
    Decode.record "struct LibraryType" fieldList r
  return { id, modifiers, isInterface, superclass, interfaces, memberTypes, methods, fields }

/-- A listed type from its text. -/
def TypeEntry.read (text : String) : Except Problem TypeEntry := decode.run text

/-- The listed types of a document. -/
def Catalogue.decode : Decode (List TypeEntry) := fun r => do
  let (types, ()) ← Decode.record "struct LibraryFile"
    (.optional "types" [] (Decode.list TypeEntry.decode) .nil) r
  return types

/-- The catalogue that a document lists, or the problem with the document. -/
def Catalogue.read (text : String) : Except Problem Catalogue :=
  (decode.run text).map Catalogue.ofList

end CodeAtlas
