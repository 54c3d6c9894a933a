import UtilityClass.Vocabulary.Basic

/-!
# Snapshots

A snapshot lists the contents of a vocabulary for exchange.  Unlike a
vocabulary it keeps the order and the repetitions it was written with.
-/

namespace UtilityClass

/-- The names of the utilities, by kind. -/
structure UtilityLists where
  statics : List Text := []
  functionals : List Text := []
  deriving DecidableEq

/-- One declared variant. -/
structure VariantRow where
  name : Text
  kind : VariantKind
  compounds : Bool := true
  deriving DecidableEq

/-- The declared names, and the limit on nested compound variants if one is
given. -/
structure Snapshot where
  utilities : UtilityLists := {}
  variants : List VariantRow := []
  maxVariantDepth : Option Nat := none
  deriving DecidableEq

/-- The entry a row declares. -/
def VariantRow.entry (row : VariantRow) : VariantEntry :=
  ⟨row.kind, row.compounds⟩

/-- Lists the contents of a vocabulary, each table in increasing order of names. -/
def Vocabulary.snapshot (vocabulary : Vocabulary) : Snapshot where
  utilities := ⟨vocabulary.statics.names, vocabulary.functionals.names⟩
  variants := vocabulary.variants.entries.map fun (name, entry) =>
    ⟨name, entry.kind, entry.compounds⟩
  maxVariantDepth := some vocabulary.maxVariantDepth

end UtilityClass
