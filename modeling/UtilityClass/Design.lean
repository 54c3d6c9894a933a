import UtilityClass.Candidate.Basic
import UtilityClass.Rejection

/-!
# Designs

A design answers which utilities and variants exist.  It may also read some
variant tokens in a way of its own, at every level of nesting.
-/

namespace UtilityClass

/-- The limit on nested compound variants when none is set. -/
def defaultDepth : Nat := 32

/-- What a reader of class names may ask. -/
structure Design where
  hasUtility : UtilityKind → Text → Bool
  hasVariant : Text → Bool
  /-- What a registered variant takes after its root. -/
  variantKind : Text → Option VariantKind
  /-- Whether a compound variant may wrap this one. -/
  variantCompounds : Text → Bool
  /-- How many compound variants may stand around a variant.  The number is not
  bounded here, so there is always one more level to count. -/
  maxVariantDepth : Nat := defaultDepth
  /-- The design's own reading of a token that so many compound variants stand
  around.  Without one the token is read by the common rules. -/
  override : Text → Nat → Option (Traced Variant) := fun _ _ => none

end UtilityClass
