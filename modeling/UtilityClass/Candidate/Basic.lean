import UtilityClass.Variant.Basic

/-!
# Candidates

A candidate is one class name: a utility under a chain of variants.  The
utility is a property with its value, a root alone, or a root with a value.
-/

namespace UtilityClass

/-- Which table a utility is registered in. -/
inductive UtilityKind where
  /-- Used without a value, as `underline`. -/
  | static
  /-- Taking a value, as `bg`. -/
  | functional
  deriving DecidableEq

inductive UtilityValue where
  /-- A bare word.  With a bare modifier it may also be a fraction, as in
  `w-1/2`: the last dash-separated part of the word over the modifier. -/
  | named (value : Text) (fraction : Option Text)
  /-- A text in brackets, after the type hint that may precede it. -/
  | arbitrary (dataType : Option Text) (content : ArbitraryText)
  deriving DecidableEq

/-- What a class name does, without its conditions. -/
inductive Utility where
  /-- A property with a value, as `[color:red]`. -/
  | property (name value : Text) (modifier : Option Modifier)
  /-- A root alone, as `underline`. -/
  | static (root : Text) (negative : Bool)
  /-- A root with a value, as `bg-red-500`, or without, as `bg`. -/
  | functional (root : Text) (value : Option UtilityValue) (modifier : Option Modifier)
      (negative : Bool)
  deriving DecidableEq

namespace Utility

/-- Whether a minus precedes the utility.  A property never has one. -/
def isNegative : Utility → Bool
  | property _ _ _ => false
  | static _ negative | functional _ _ _ negative => negative

/-- The modifier.  A root alone has none. -/
def modifier? : Utility → Option Modifier
  | static _ _ => none
  | property _ _ modifier | functional _ _ modifier _ => modifier

end Utility

structure Candidate where
  utility : Utility
  /-- The variants, from the one next to the utility outward. -/
  variants : List Variant
  important : Bool
  deriving DecidableEq

end UtilityClass
