import UtilityClass.Json.Decode
import UtilityClass.Json.Value
import UtilityClass.Snapshot.Basic

/-!
# Snapshots as JSON

A snapshot is written with its fields in a fixed order, without white space and
without a limit that is absent.  It is read from any layout of the fields, and
fields that have a default may be left out, but unknown and repeated ones are
refused.
-/

namespace UtilityClass

open Json (Value Node Fault Decoder)

namespace VariantKind

/-- The name of a kind. -/
def name : VariantKind → String
  | static => "static"
  | functional => "functional"
  | compound => "compound"

/-- All kinds. -/
def all : List VariantKind := [static, functional, compound]

/-- The kind of that name. -/
def ofName? (text : Text) : Option VariantKind :=
  all.find? fun kind => kind.name.toList = text

/-- Writes a kind as its name. -/
def toJson (kind : VariantKind) : Value :=
  .string kind.name.toList

/-- Reads a kind. -/
def decoder : Decoder VariantKind :=
  .name ofName? (all.map name)

end VariantKind

namespace UtilityLists

/-- Writes the lists of utilities. -/
def toJson (lists : UtilityLists) : Value :=
  .object
    [Value.field "static" (.array (lists.statics.map .string)),
      Value.field "functional" (.array (lists.functionals.map .string))]

/-- The lists read so far. -/
structure Draft where
  statics : Option (List Text) := none
  functionals : Option (List Text) := none

/-- The fields of the lists.  A missing list is empty. -/
def shape : Decoder.Shape Draft UtilityLists where
  wanted := "struct UtilitySnapshot"
  fields :=
    [{ name := "static"
       isSet := (·.statics.isSome)
       fill := fun node draft =>
        (Decoder.list .text node).map fun names => { draft with statics := some names } },
      { name := "functional"
        isSet := (·.functionals.isSome)
        fill := fun node draft =>
          (Decoder.list .text node).map fun names => { draft with functionals := some names } }]
  finish := fun draft => .ok ⟨draft.statics.getD [], draft.functionals.getD []⟩

/-- Reads the lists of utilities. -/
def decoder : Decoder UtilityLists :=
  .record shape {}

end UtilityLists

namespace VariantRow

/-- Writes a row. -/
def toJson (row : VariantRow) : Value :=
  .object
    [Value.field "name" (.string row.name), Value.field "kind" row.kind.toJson,
      Value.field "compounds" (.bool row.compounds)]

/-- The fields of a row read so far. -/
structure Draft where
  name : Option Text := none
  kind : Option VariantKind := none
  compounds : Option Bool := none

/-- The fields of a row.  A row without the last one compounds. -/
def shape : Decoder.Shape Draft VariantRow where
  wanted := "struct VariantSnapshot"
  fields :=
    [{ name := "name"
       isSet := (·.name.isSome)
       fill := fun node draft =>
        (Decoder.text node).map fun name => { draft with name := some name } },
      { name := "kind"
        isSet := (·.kind.isSome)
        fill := fun node draft =>
          (VariantKind.decoder node).map fun kind => { draft with kind := some kind } },
      { name := "compounds"
        isSet := (·.compounds.isSome)
        fill := fun node draft =>
          (Decoder.bool node).map fun compounds => { draft with compounds := some compounds } }]
  finish := fun draft =>
    match draft.name, draft.kind with
    | none, _ => .error "name"
    | some _, none => .error "kind"
    | some name, some kind => .ok ⟨name, kind, draft.compounds.getD true⟩

/-- Reads a row. -/
def decoder : Decoder VariantRow :=
  .record shape {}

end VariantRow

namespace Snapshot

/-- Writes a snapshot. -/
def toJson (snapshot : Snapshot) : Value :=
  .object
    ([Value.field "utilities" snapshot.utilities.toJson,
        Value.field "variants" (.array (snapshot.variants.map VariantRow.toJson))] ++
      match snapshot.maxVariantDepth with
      | none => []
      | some depth => [Value.field "maxVariantDepth" (.natural depth)])

/-- The fields of a snapshot read so far. -/
structure Draft where
  utilities : Option UtilityLists := none
  variants : Option (List VariantRow) := none
  maxVariantDepth : Option (Option Nat) := none

/-- The fields of a snapshot.  Missing ones are empty. -/
def shape : Decoder.Shape Draft Snapshot where
  wanted := "struct RegistrySnapshot"
  fields :=
    [{ name := "utilities"
       isSet := (·.utilities.isSome)
       fill := fun node draft =>
        (UtilityLists.decoder node).map fun lists => { draft with utilities := some lists } },
      { name := "variants"
        isSet := (·.variants.isSome)
        fill := fun node draft =>
          (Decoder.list VariantRow.decoder node).map fun rows =>
            { draft with variants := some rows } },
      { name := "maxVariantDepth"
        isSet := (·.maxVariantDepth.isSome)
        fill := fun node draft =>
          (Decoder.optionalNatural "usize" node).map fun depth =>
            { draft with maxVariantDepth := some depth } }]
  finish := fun draft =>
    .ok ⟨draft.utilities.getD {}, draft.variants.getD [], draft.maxVariantDepth.getD none⟩

/-- Reads a snapshot. -/
def decoder : Decoder Snapshot :=
  .record shape {}

/-- The text of a snapshot. -/
def write (snapshot : Snapshot) : Text :=
  snapshot.toJson.write

/-- Reads the text of a snapshot. -/
def read (source : Text) : Except Fault Snapshot :=
  decoder.ofText source

end Snapshot

end UtilityClass
