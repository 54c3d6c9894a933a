import UtilityClass.Vocabulary.Basic

/-!
# Stock variants

The variants that the styling language provides by itself.
-/

namespace UtilityClass

/-- Pseudo-classes.  They only add a selector, so they compound. -/
def pseudoClasses : List String :=
  ["force", "first", "last", "only", "odd", "even", "first-of-type", "last-of-type",
    "only-of-type", "visited", "target", "open", "default", "checked", "indeterminate",
    "placeholder-shown", "autofill", "optional", "required", "valid", "invalid", "in-range",
    "out-of-range", "read-only", "empty", "focus-within", "hover", "focus", "focus-visible",
    "active", "enabled", "disabled"]

/-- Children, pseudo-elements, directions, media conditions and breakpoints.  They
do not compound. -/
def standaloneVariants : List String :=
  ["*", "first-letter", "first-line", "marker", "selection", "file", "placeholder", "backdrop",
    "before", "after", "ltr", "rtl", "motion-safe", "motion-reduce", "dark", "starting", "print",
    "portrait", "landscape", "contrast-more", "contrast-less", "forced-colors", "sm", "md", "lg",
    "xl", "2xl"]

/-- Variants that take a value and add a selector with it, so they compound. -/
def selectorVariants : List String :=
  ["aria", "data", "nth", "nth-last", "nth-of-type", "nth-last-of-type"]

/-- Variants that take the value of a feature, media or container query. -/
def queryVariants : List String :=
  ["supports", "min", "max", "@", "@min", "@max"]

def compoundVariants : List String :=
  ["group", "peer", "has", "not", "in"]

namespace Vocabulary

def addVariants (vocabulary : Vocabulary) (names : List String) (kind : VariantKind)
    (compounds : Bool) : Vocabulary :=
  names.foldl (fun grown name => grown.addVariant name.toList kind compounds) vocabulary

def addStock (vocabulary : Vocabulary) : Vocabulary :=
  (((vocabulary.addVariants pseudoClasses .static true).addVariants
      standaloneVariants .static false).addVariants
      selectorVariants .functional true).addVariants
      queryVariants .functional false |>.addVariants compoundVariants .compound true

end Vocabulary

end UtilityClass
