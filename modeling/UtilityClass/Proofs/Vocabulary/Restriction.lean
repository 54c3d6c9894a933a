import Mathlib.Data.List.Infix
import UtilityClass.Proofs.Candidate.Agreement
import UtilityClass.Proofs.Vocabulary.Table
import UtilityClass.Vocabulary.Basic

/-!
# Names that do not occur

A name that is no part of a text has no part in reading it.  A vocabulary may
lose all such names at once, and the text is read as before.
-/

namespace UtilityClass

namespace Table

variable {Entry : Type}

/-- Drops the names that a test does not keep. -/
def restrict (keep : Text → Bool) (table : Table Entry) : Table Entry :=
  ⟨table.entries.filter fun pair => keep pair.1, table.increasing.filter _⟩

theorem lookup_filter_name (keep : Text → Bool) (name : Text) (list : List (Text × Entry)) :
    (list.filter fun pair => keep pair.1).lookup name =
      if keep name then list.lookup name else none := by
  induction list with
  | nil => simp
  | cons head rest induction =>
      obtain ⟨first, entry⟩ := head
      rw [List.filter_cons, lookup_cons_eq_ite]
      by_cases same : name = first
      · subst same
        by_cases kept : keep name = true
        · simp [kept]
        · simp [kept, induction]
      · rw [if_neg same]
        split
        next kept => rw [lookup_cons_eq_ite, if_neg same, induction]
        next dropped => exact induction

@[simp] theorem get?_restrict (keep : Text → Bool) (table : Table Entry) (name : Text) :
    (table.restrict keep).get? name = if keep name then table.get? name else none :=
  lookup_filter_name keep name table.entries

end Table

namespace Vocabulary

/-- Drops the utilities and variants whose names a test does not keep. -/
def restrict (keep : Text → Bool) (vocabulary : Vocabulary) : Vocabulary :=
  { vocabulary with
    statics := vocabulary.statics.restrict keep
    functionals := vocabulary.functionals.restrict keep
    variants := vocabulary.variants.restrict keep }

/-- Only names that occur in a text count within it. -/
theorem restrict_agreesWithin {keep : Text → Bool} {text : Text}
    (keeps : ∀ name, name <:+: text → keep name = true) (vocabulary : Vocabulary) :
    (vocabulary.restrict keep).design.AgreesWithin vocabulary.design text where
  hasUtility kind name inText := by
    cases kind with
    | static => simp [design, hasUtility, restrict, Table.contains, keeps name inText]
    | functional => simp [design, hasUtility, restrict, Table.contains, keeps name inText]
  hasVariant name inText := by
    simp [design, hasVariant, restrict, Table.contains, keeps name inText]
  variantKind name inText := by
    simp [design, variantKind, restrict, keeps name inText]
  variantCompounds name inText := by
    simp [design, variantCompounds, restrict, keeps name inText]
  override _ _ _ := rfl
  maxVariantDepth := rfl

/-- Reading is local to the names that occur in the text.  Without the others a
vocabulary gives the same candidate and the same variants at every depth, and
the same records of what was rejected. -/
theorem readings_are_local (vocabulary : Vocabulary) (text : Text) :
    let occurring := vocabulary.restrict fun name => decide (name <:+: text)
    occurring.design.readCandidate text = vocabulary.design.readCandidate text ∧
      ∀ depth, occurring.design.readVariantAt depth text =
        vocabulary.design.readVariantAt depth text := by
  intro occurring
  have agrees : occurring.design.AgreesWithin vocabulary.design text := by
    apply restrict_agreesWithin
    intro name inText
    exact decide_eq_true inText
  exact ⟨agrees.readCandidate_eq, agrees.readVariantAt_eq⟩

end Vocabulary

end UtilityClass
