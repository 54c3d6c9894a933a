import UtilityClass.Design
import UtilityClass.Vocabulary.Table

/-!
# Vocabularies

A vocabulary holds the names a styling language registers: utilities used
alone, utilities that take a value, and variants with what they take and
whether they compound.  It is built up by registering names, a later variant
taking the place of an earlier one of the same name, and answers as a design.
-/

namespace UtilityClass

structure VariantEntry where
  kind : VariantKind
  compounds : Bool
  deriving DecidableEq

/-- The registered names and the limit on nested compound variants. -/
structure Vocabulary where
  statics : Table Unit := .empty
  functionals : Table Unit := .empty
  variants : Table VariantEntry := .empty
  maxVariantDepth : Nat := defaultDepth
  deriving DecidableEq

namespace Vocabulary

def addStatic (vocabulary : Vocabulary) (name : Text) : Vocabulary :=
  { vocabulary with statics := vocabulary.statics.insert name () }

def addFunctional (vocabulary : Vocabulary) (name : Text) : Vocabulary :=
  { vocabulary with functionals := vocabulary.functionals.insert name () }

def addVariant (vocabulary : Vocabulary) (name : Text) (kind : VariantKind)
    (compounds : Bool) : Vocabulary :=
  { vocabulary with variants := vocabulary.variants.insert name ⟨kind, compounds⟩ }

def limitDepth (vocabulary : Vocabulary) (depth : Nat) : Vocabulary :=
  { vocabulary with maxVariantDepth := depth }

def hasUtility (vocabulary : Vocabulary) : UtilityKind → Text → Bool
  | .static, name => vocabulary.statics.contains name
  | .functional, name => vocabulary.functionals.contains name

def hasVariant (vocabulary : Vocabulary) (name : Text) : Bool :=
  vocabulary.variants.contains name

def variantKind (vocabulary : Vocabulary) (name : Text) : Option VariantKind :=
  (vocabulary.variants.get? name).map (·.kind)

def variantCompounds (vocabulary : Vocabulary) (name : Text) : Bool :=
  (vocabulary.variants.get? name).any (·.compounds)

/-- The number of registered utilities, counted once for each table. -/
def utilityCount (vocabulary : Vocabulary) : Nat :=
  vocabulary.statics.size + vocabulary.functionals.size

def variantCount (vocabulary : Vocabulary) : Nat :=
  vocabulary.variants.size

/-- The design that knows exactly the registered names. -/
def design (vocabulary : Vocabulary) : Design where
  hasUtility := vocabulary.hasUtility
  hasVariant := vocabulary.hasVariant
  variantKind := vocabulary.variantKind
  variantCompounds := vocabulary.variantCompounds
  maxVariantDepth := vocabulary.maxVariantDepth

end Vocabulary

end UtilityClass
