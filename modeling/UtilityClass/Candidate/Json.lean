import UtilityClass.Candidate.Basic
import UtilityClass.Json.Value

/-!
# Candidates as JSON

Every value of the data model is written as an object with its kind first.  All
fields of a kind are always there.  Options without a value are `null`.
-/

namespace UtilityClass

open Json (Value)

/-- An object that names its kind first. -/
def tagged (kind : String) (fields : List (Text × Value)) : Value :=
  .object (Value.field "kind" (.string kind.toList) :: fields)

def optionalJson {α : Type} (write : α → Value) : Option α → Value
  | none => .null
  | some value => write value

def Modifier.toJson : Modifier → Value
  | named value => tagged "named" [Value.field "value" (.string value)]
  | arbitrary content =>
    tagged "arbitrary"
      [Value.field "value" (.string content.value),
        Value.field "dashedIdent" (.optionalString content.dashedIdent)]

def UtilityValue.toJson : UtilityValue → Value
  | named value fraction =>
    tagged "named"
      [Value.field "value" (.string value), Value.field "fraction" (.optionalString fraction)]
  | arbitrary dataType content =>
    tagged "arbitrary"
      [Value.field "dataType" (.optionalString dataType),
        Value.field "value" (.string content.value),
        Value.field "dashedIdent" (.optionalString content.dashedIdent)]

def VariantValue.toJson : VariantValue → Value
  | named value => tagged "named" [Value.field "value" (.string value)]
  | arbitrary value => tagged "arbitrary" [Value.field "value" (.string value)]

def Variant.toJson : Variant → Value
  | arbitrary selector compounds =>
    tagged "arbitrary"
      [Value.field "selector" (.string selector), Value.field "compounds" (.bool compounds)]
  | static root compounds =>
    tagged "static"
      [Value.field "root" (.string root), Value.field "compounds" (.bool compounds)]
  | functional root value modifier compounds =>
    tagged "functional"
      [Value.field "root" (.string root),
        Value.field "value" (optionalJson VariantValue.toJson value),
        Value.field "modifier" (optionalJson Modifier.toJson modifier),
        Value.field "compounds" (.bool compounds)]
  | compound root modifier inner compounds =>
    tagged "compound"
      [Value.field "root" (.string root),
        Value.field "modifier" (optionalJson Modifier.toJson modifier),
        Value.field "variant" inner.toJson,
        Value.field "compounds" (.bool compounds)]

def Candidate.toJson (candidate : Candidate) : Value :=
  let variants := Value.field "variants" (.array (candidate.variants.map Variant.toJson))
  let important := Value.field "important" (.bool candidate.important)
  match candidate.utility with
  | .property name value modifier =>
    tagged "arbitrary"
      [Value.field "property" (.string name), Value.field "value" (.string value),
        Value.field "modifier" (optionalJson Modifier.toJson modifier), variants, important]
  | .static root negative =>
    tagged "static"
      [Value.field "root" (.string root), variants, Value.field "negative" (.bool negative),
        important]
  | .functional root value modifier negative =>
    tagged "functional"
      [Value.field "root" (.string root),
        Value.field "value" (optionalJson UtilityValue.toJson value),
        Value.field "modifier" (optionalJson Modifier.toJson modifier), variants,
        Value.field "negative" (.bool negative), important]

end UtilityClass
