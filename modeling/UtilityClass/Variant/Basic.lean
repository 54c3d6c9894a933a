import UtilityClass.Modifier

/-!
# Variants

A variant is a condition on a utility, such as `hover`, `aria-checked` or
`group-focus`.  A compound variant wraps another one, and only variants that
compound may be wrapped.
-/

namespace UtilityClass

/-- What a registered variant takes after its root. -/
inductive VariantKind where
  /-- Nothing, as in `hover`. -/
  | static
  /-- A value, as in `aria-checked`. -/
  | functional
  /-- Another variant, as in `group-hover`. -/
  | compound
  deriving DecidableEq

inductive VariantValue where
  /-- A bare word, kept as it is written. -/
  | named (value : Text)
  /-- The decoded text of a pair of brackets. -/
  | arbitrary (value : Text)
  deriving DecidableEq

/-- A condition on a utility.  Each one says whether a compound variant may
wrap it. -/
inductive Variant where
  | arbitrary (selector : Text) (compounds : Bool)
  | static (root : Text) (compounds : Bool)
  | functional (root : Text) (value : Option VariantValue) (modifier : Option Modifier)
      (compounds : Bool)
  | compound (root : Text) (modifier : Option Modifier) (inner : Variant) (compounds : Bool)
  deriving DecidableEq

namespace Variant

def compounds : Variant → Bool
  | arbitrary _ compounds | static _ compounds | functional _ _ _ compounds
  | compound _ _ _ compounds => compounds

/-- The registered root.  A selector has none. -/
def root? : Variant → Option Text
  | arbitrary _ _ => none
  | static root _ | functional root _ _ _ | compound root _ _ _ => some root

/-- How many compound variants stand around the innermost one. -/
def layers : Variant → Nat
  | arbitrary _ _ | static _ _ | functional _ _ _ _ => 0
  | compound _ _ inner _ => inner.layers + 1

end Variant

end UtilityClass
