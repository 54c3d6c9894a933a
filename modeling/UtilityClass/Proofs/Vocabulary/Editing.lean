import UtilityClass.Proofs.Vocabulary.Table
import UtilityClass.Vocabulary.Stock

/-!
# Edits of a vocabulary

A vocabulary is built up by edits, one after the other.  The tables do not see
each other: each one ends up as the pairs that the edits enter into it, and the
limit as the last one that is set.
-/

namespace UtilityClass

/-- One change of a vocabulary. -/
inductive Edit where
  | static (name : Text)
  | functional (name : Text)
  | variant (name : Text) (entry : VariantEntry)
  /-- Registers the stock variants. -/
  | stock
  | limit (depth : Nat)

/-- The pairs that a row of names with one entry enters. -/
def sharing {Entry : Type} (entry : Entry) (names : List Text) : List (Text × Entry) :=
  names.map fun name => (name, entry)

/-- The stock variants as they are entered. -/
def stockPairs : List (Text × VariantEntry) :=
  sharing ⟨.static, true⟩ (pseudoClasses.map String.toList) ++
    sharing ⟨.static, false⟩ (standaloneVariants.map String.toList) ++
    sharing ⟨.functional, true⟩ (selectorVariants.map String.toList) ++
    sharing ⟨.functional, false⟩ (queryVariants.map String.toList) ++
    sharing ⟨.compound, true⟩ (compoundVariants.map String.toList)

namespace Edit

def apply (vocabulary : Vocabulary) : Edit → Vocabulary
  | static name => vocabulary.addStatic name
  | functional name => vocabulary.addFunctional name
  | variant name entry => vocabulary.addVariant name entry.kind entry.compounds
  | stock => vocabulary.addStock
  | limit depth => vocabulary.limitDepth depth

def staticPairs : Edit → List (Text × Unit)
  | static name => [(name, ())]
  | functional _ | variant _ _ | stock | limit _ => []

def functionalPairs : Edit → List (Text × Unit)
  | functional name => [(name, ())]
  | static _ | variant _ _ | stock | limit _ => []

def variantPairs : Edit → List (Text × VariantEntry)
  | variant name entry => [(name, entry)]
  | stock => stockPairs
  | static _ | functional _ | limit _ => []

def depth? : Edit → Option Nat
  | limit depth => some depth
  | static _ | functional _ | variant _ _ | stock => none

end Edit

namespace Vocabulary

def edit (vocabulary : Vocabulary) (edits : List Edit) : Vocabulary :=
  edits.foldl Edit.apply vocabulary

theorem addVariants_eq (vocabulary : Vocabulary) (names : List String) (kind : VariantKind)
    (compounds : Bool) :
    vocabulary.addVariants names kind compounds =
      { vocabulary with
        variants :=
          vocabulary.variants.enter (sharing ⟨kind, compounds⟩ (names.map String.toList)) } := by
  induction names generalizing vocabulary with
  | nil => rfl
  | cons name names induction =>
      have step : vocabulary.addVariants (name :: names) kind compounds =
          (vocabulary.addVariant name.toList kind compounds).addVariants names kind compounds :=
        rfl
      rw [step, induction]
      rfl

theorem addStock_eq (vocabulary : Vocabulary) :
    vocabulary.addStock =
      { vocabulary with variants := vocabulary.variants.enter stockPairs } := by
  simp only [addStock, addVariants_eq, stockPairs, Table.enter_append]

theorem apply_eq (vocabulary : Vocabulary) (edit : Edit) :
    edit.apply vocabulary =
      ⟨vocabulary.statics.enter edit.staticPairs,
        vocabulary.functionals.enter edit.functionalPairs,
        vocabulary.variants.enter edit.variantPairs,
        edit.depth?.getD vocabulary.maxVariantDepth⟩ := by
  cases edit with
  | static name => rfl
  | functional name => rfl
  | variant name entry => rfl
  | stock => exact addStock_eq vocabulary
  | limit depth => rfl

/-- What a history leaves behind, table by table. -/
theorem edit_eq (vocabulary : Vocabulary) (edits : List Edit) :
    vocabulary.edit edits =
      ⟨vocabulary.statics.enter (edits.flatMap Edit.staticPairs),
        vocabulary.functionals.enter (edits.flatMap Edit.functionalPairs),
        vocabulary.variants.enter (edits.flatMap Edit.variantPairs),
        (edits.filterMap Edit.depth?).getLast?.getD vocabulary.maxVariantDepth⟩ := by
  induction edits generalizing vocabulary with
  | nil => rfl
  | cons edit edits induction =>
      have step : vocabulary.edit (edit :: edits) = (edit.apply vocabulary).edit edits := rfl
      rw [step, induction, apply_eq]
      simp only [List.flatMap_cons, Table.enter_append, List.filterMap_cons]
      cases edit.depth? with
      | none => rfl
      | some depth => simp [List.getLast?_cons]

end Vocabulary

end UtilityClass
