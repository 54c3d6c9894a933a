import UtilityClass.Variant.Layer

/-!
# Reading variants

A token is read layer by layer.  Each layer uses up one of the levels that the
design's limit leaves, so the number of levels left bounds the reading, and a
token that needs one more is nested too deeply.  The design's own readings are
asked for each token but the outermost one of `readVariantAt`.
-/

namespace UtilityClass

namespace Design

/-- Completes a compound variant around the reading of its nested token. -/
def wrap (token root : Text) (modifier : Option Modifier) (compounds : Bool)
    (nested : Traced Variant) : Traced Variant :=
  (nested.orRecord (.variant token .nestedInvalid)).andThen fun inner =>
    if inner.compounds then .accept (.compound root modifier inner compounds)
    else .reject (.variant token .nestedNotCompounding)

/-- Reads a token by the common rules, with so many levels left, which `depth`
compound variants stand around. -/
def readVariantWithin (design : Design) : (levels depth : Nat) → (token : Text) → Traced Variant
  | 0, _, token => .reject (.variant token .tooDeep)
  | levels + 1, depth, token =>
    match design.readLayer token with
    | .error fault => .reject (.variant token fault)
    | .ok (.complete variant) => .accept variant
    | .ok (.wrapping root modifier compounds nested) =>
      wrap token root modifier compounds <|
        match design.override nested (depth + 1) with
        | some reading => reading
        | none => design.readVariantWithin levels (depth + 1) nested

/-- Reads a token by the common rules, when `depth` compound variants stand
around it.  Depths and limits have no greatest number.  One that counts them in
64 bits differs in one place only: a compound variant at depth `2 ^ 64 - 1`
under that same limit, where the level of its nested token cannot be counted.
What happens there is not modelled. -/
def readVariantAt (design : Design) (depth : Nat) (token : Text) : Traced Variant :=
  design.readVariantWithin (design.maxVariantDepth + 1 - depth) depth token

/-- Reads a token that no compound variant stands around. -/
def readVariant (design : Design) (token : Text) : Traced Variant :=
  match design.override token 0 with
  | some reading => reading
  | none => design.readVariantAt 0 token

end Design

end UtilityClass
