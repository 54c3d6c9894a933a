import UtilityClass.Proofs.Vocabulary.Reloading

/-!
# What an export tells

However a vocabulary was built up, its snapshot is a normal form.  It lists
what the edits registered last, in increasing order, it accounts for every
answer, and vocabularies that answer alike export the same.
-/

namespace UtilityClass

namespace Table

variable {Entry : Type} {table : Table Entry} {pairs : List (Text × Entry)} {name : Text}

theorem mem_names_iff : name ∈ table.names ↔ ∃ entry, table.get? name = some entry := by
  simp [names, holds_entries table name]

theorem names_increasing (table : Table Entry) : table.names.Pairwise (· < ·) :=
  List.pairwise_map.mpr table.increasing

theorem names_nodup (table : Table Entry) : table.names.Nodup :=
  List.pairwise_map.mpr (fst_ne_of_increasing table.increasing)

theorem mem_names_enter_iff : name ∈ (empty.enter pairs).names ↔ name ∈ pairs.map Prod.fst := by
  rw [mem_names_iff, ← Option.isSome_iff_exists, get?_enter, get?_empty, Option.or_none,
    List.lookup_isSome_iff]
  simp

theorem contains_eq_true_iff : table.contains name = true ↔ name ∈ table.names := by
  rw [contains, Option.isSome_iff_exists, mem_names_iff]

theorem eq_of_contains_eq {first second : Table Unit}
    (same : ∀ name, first.contains name = second.contains name) : first = second := by
  apply ext_get?
  intro name
  have sameHere := same name
  unfold contains at sameHere
  cases found : first.get? name with
  | none =>
      rw [found, Option.isSome_none, eq_comm, Option.isSome_eq_false_iff] at sameHere
      exact (Option.isNone_iff_eq_none.mp sameHere).symm
  | some entry =>
      rw [found, Option.isSome_some, eq_comm] at sameHere
      obtain ⟨other, otherFound⟩ := Option.isSome_iff_exists.mp sameHere
      exact otherFound.symm

theorem functional_of_nodup (distinct : (pairs.map Prod.fst).Nodup) : Functional pairs := by
  have different : pairs.Pairwise fun first second => first.1 ≠ second.1 :=
    List.pairwise_map.mp distinct
  intro first firstMember second secondMember sameName
  have found := (lookup_eq_some_iff_mem different).mpr firstMember
  have foundAgain := (lookup_eq_some_iff_mem different).mpr secondMember
  rw [← sameName, found] at foundAgain
  exact Option.some.inj foundAgain

theorem lookup_reverse_eq_some_iff (functional : Functional pairs) {entry : Entry} :
    pairs.reverse.lookup name = some entry ↔ (name, entry) ∈ pairs := by
  rw [← holds_enter functional, get?_enter, get?_empty, Option.or_none]

theorem lookup_reverse_eq_none_iff :
    pairs.reverse.lookup name = none ↔ ∀ entry, (name, entry) ∉ pairs := by
  rw [List.lookup_eq_none_iff]
  constructor
  · intro absent entry member
    exact absurd (absent _ (List.mem_reverse.mpr member)) (by simp)
  · rintro absent ⟨other, entry⟩ member
    have different : name ≠ other := by
      rintro rfl
      exact absent entry (List.mem_reverse.mp member)
    simpa using different

end Table

theorem stockPairs_functional : Table.Functional stockPairs := by
  apply Table.functional_of_nodup
  have distinct : (pseudoClasses ++ standaloneVariants ++ selectorVariants ++ queryVariants ++
      compoundVariants).Nodup := by decide +kernel
  have asTexts := distinct.map fun _ _ => String.toList_injective
  simpa [stockPairs, sharing, Function.comp_def] using asTexts

namespace Edit

/-- The edit registers a variant of this name with this entry. -/
def Registers (edit : Edit) (name : Text) (entry : VariantEntry) : Prop :=
  (name, entry) ∈ edit.variantPairs

/-- Some edit registers the variant with this entry, and none after it registers
a variant of this name. -/
def LastRegisters (edits : List Edit) (name : Text) (entry : VariantEntry) : Prop :=
  ∃ before edit after, edits = before ++ edit :: after ∧ edit.Registers name entry ∧
    ∀ later ∈ after, ∀ other, ¬later.Registers name other

variable {edits : List Edit} {name : Text} {entry : VariantEntry}

theorem mem_flatMap_staticPairs_iff :
    (name, ()) ∈ edits.flatMap staticPairs ↔ static name ∈ edits := by
  have registers (edit : Edit) : (name, ()) ∈ edit.staticPairs ↔ edit = static name := by
    cases edit <;> simp [staticPairs, eq_comm]
  simp only [List.mem_flatMap, registers, exists_eq_right]

theorem mem_flatMap_functionalPairs_iff :
    (name, ()) ∈ edits.flatMap functionalPairs ↔ functional name ∈ edits := by
  have registers (edit : Edit) : (name, ()) ∈ edit.functionalPairs ↔ edit = functional name := by
    cases edit <;> simp [functionalPairs, eq_comm]
  simp only [List.mem_flatMap, registers, exists_eq_right]

theorem variantPairs_functional (edit : Edit) : Table.Functional edit.variantPairs := by
  cases edit with
  | stock => exact stockPairs_functional
  | variant name entry => simp [variantPairs, Table.Functional]
  | static name => simp [variantPairs, Table.Functional]
  | functional name => simp [variantPairs, Table.Functional]
  | limit depth => simp [variantPairs, Table.Functional]

theorem lastRegisters_cons_iff {edit : Edit} :
    LastRegisters (edit :: edits) name entry ↔
      LastRegisters edits name entry ∨
        edit.Registers name entry ∧ ∀ later ∈ edits, ∀ other, ¬later.Registers name other := by
  constructor
  · rintro ⟨before, last, after, split, registers, final⟩
    cases before with
    | nil =>
        obtain ⟨rfl, rfl⟩ := List.cons_eq_cons.mp split
        exact .inr ⟨registers, final⟩
    | cons first before =>
        obtain ⟨_, rest⟩ := List.cons_eq_cons.mp split
        exact .inl ⟨before, last, after, rest, registers, final⟩
  · rintro (⟨before, last, after, rfl, registers, final⟩ | ⟨registers, final⟩)
    · exact ⟨edit :: before, last, after, rfl, registers, final⟩
    · exact ⟨[], edit, edits, rfl, registers, final⟩

theorem lookup_eq_some_iff_lastRegisters :
    (edits.flatMap variantPairs).reverse.lookup name = some entry ↔
      LastRegisters edits name entry := by
  -- The induction is on the edits, of which the later ones count first.
  induction edits with
  | nil => simp [LastRegisters]
  | cons edit edits induction =>
      have none_iff : (edits.flatMap variantPairs).reverse.lookup name = none ↔
          ∀ later ∈ edits, ∀ other, ¬later.Registers name other := by
        rw [Table.lookup_reverse_eq_none_iff]
        simp only [List.mem_flatMap, not_exists, not_and, Registers]
        exact ⟨fun absent later member other => absent other later member,
          fun absent other later member => absent later member other⟩
      rw [List.flatMap_cons, List.reverse_append, List.lookup_append, Option.or_eq_some_iff,
        induction, none_iff, lastRegisters_cons_iff,
        Table.lookup_reverse_eq_some_iff edit.variantPairs_functional]
      exact or_congr_right and_comm

end Edit

namespace Snapshot

/-- The snapshot lists what the edits registered. -/
structure Lists (snapshot : Snapshot) (edits : List Edit) : Prop where
  statics_increasing : snapshot.utilities.statics.Pairwise (· < ·)
  mem_statics : ∀ name, name ∈ snapshot.utilities.statics ↔ Edit.static name ∈ edits
  functionals_increasing : snapshot.utilities.functionals.Pairwise (· < ·)
  mem_functionals : ∀ name, name ∈ snapshot.utilities.functionals ↔ Edit.functional name ∈ edits
  variants_increasing : (snapshot.variants.map (·.name)).Pairwise (· < ·)
  mem_variants : ∀ row, row ∈ snapshot.variants ↔ Edit.LastRegisters edits row.name row.entry
  depth : snapshot.maxVariantDepth = some ((edits.filterMap Edit.depth?).getLast?.getD 32)

/-- The snapshot accounts for every answer of the vocabulary. -/
structure Explains (snapshot : Snapshot) (vocabulary : Vocabulary) : Prop where
  utilityCount : vocabulary.utilityCount =
    snapshot.utilities.statics.length + snapshot.utilities.functionals.length
  variantCount : vocabulary.variantCount = snapshot.variants.length
  hasStatic : ∀ name,
    vocabulary.hasUtility .static name = true ↔ name ∈ snapshot.utilities.statics
  hasFunctional : ∀ name,
    vocabulary.hasUtility .functional name = true ↔ name ∈ snapshot.utilities.functionals
  hasVariant : ∀ name,
    vocabulary.hasVariant name = true ↔ ∃ row ∈ snapshot.variants, row.name = name
  variantKind : ∀ name kind, vocabulary.variantKind name = some kind ↔
    ∃ row ∈ snapshot.variants, row.name = name ∧ row.kind = kind
  variantCompounds : ∀ name, vocabulary.variantCompounds name = true ↔
    ∃ row ∈ snapshot.variants, row.name = name ∧ row.compounds = true

end Snapshot

namespace Vocabulary

/-- Two vocabularies give the same answer to every question. -/
structure AnswersAlike (first second : Vocabulary) : Prop where
  hasUtility : ∀ kind name, first.hasUtility kind name = second.hasUtility kind name
  hasVariant : ∀ name, first.hasVariant name = second.hasVariant name
  variantKind : ∀ name, first.variantKind name = second.variantKind name
  variantCompounds : ∀ name, first.variantCompounds name = second.variantCompounds name
  maxVariantDepth : first.maxVariantDepth = second.maxVariantDepth

variable {vocabulary : Vocabulary} {name : Text}

theorem mem_rows_iff {row : VariantRow} :
    row ∈ vocabulary.snapshot.variants ↔
      vocabulary.variants.get? row.name = some row.entry := by
  rw [Table.holds_entries, ← pairs_snapshot]
  exact ⟨List.mem_map_of_mem, VariantRow.mem_of_pair_mem⟩

theorem get?_variants_edit (edits : List Edit) {entry : VariantEntry} :
    (edit {} edits).variants.get? name = some entry ↔ Edit.LastRegisters edits name entry := by
  rw [edit_eq, Table.get?_enter, Table.get?_empty, Option.or_none,
    Edit.lookup_eq_some_iff_lastRegisters]

theorem mem_names_enter_iff {pairs : List (Text × Unit)} :
    name ∈ (Table.empty.enter pairs).names ↔ (name, ()) ∈ pairs := by
  simp [Table.mem_names_enter_iff, Unique.exists_iff]

theorem snapshot_edit_lists (edits : List Edit) : (edit {} edits).snapshot.Lists edits where
  statics_increasing := Table.names_increasing _
  mem_statics name := by
    rw [edit_eq, ← Edit.mem_flatMap_staticPairs_iff, ← mem_names_enter_iff]
    rfl
  functionals_increasing := Table.names_increasing _
  mem_functionals name := by
    rw [edit_eq, ← Edit.mem_flatMap_functionalPairs_iff, ← mem_names_enter_iff]
    rfl
  variants_increasing := by
    rw [names_snapshot]
    exact Table.names_increasing _
  mem_variants row := by rw [mem_rows_iff, get?_variants_edit]
  depth := by rw [edit_eq]; rfl

theorem exists_row_iff {holds : VariantEntry → Prop} :
    (∃ row ∈ vocabulary.snapshot.variants, row.name = name ∧ holds row.entry) ↔
      ∃ entry, vocabulary.variants.get? name = some entry ∧ holds entry := by
  constructor
  · rintro ⟨row, member, rfl, rowHolds⟩
    exact ⟨row.entry, mem_rows_iff.mp member, rowHolds⟩
  · rintro ⟨entry, found, entryHolds⟩
    exact ⟨⟨name, entry.kind, entry.compounds⟩, mem_rows_iff.mpr found, rfl, entryHolds⟩

theorem snapshot_explains (vocabulary : Vocabulary) : vocabulary.snapshot.Explains vocabulary where
  utilityCount := by simp [utilityCount, snapshot, Table.size, Table.names]
  variantCount := by simp [variantCount, snapshot, Table.size]
  hasStatic _ := Table.contains_eq_true_iff
  hasFunctional _ := Table.contains_eq_true_iff
  hasVariant name := by
    rw [hasVariant, Table.contains_eq_true_iff]
    show name ∈ vocabulary.namesIn .variant ↔ _
    rw [← names_snapshot, List.mem_map]
  variantKind name kind := by
    rw [variantKind, Option.map_eq_some_iff]
    exact exists_row_iff.symm
  variantCompounds name := by
    rw [variantCompounds, Option.any_eq_true]
    exact exists_row_iff.symm

/-- Answers determine a vocabulary. -/
theorem eq_of_answersAlike {first second : Vocabulary} (alike : first.AnswersAlike second) :
    first = second := by
  have statics : first.statics = second.statics :=
    Table.eq_of_contains_eq (alike.hasUtility .static)
  have functionals : first.functionals = second.functionals :=
    Table.eq_of_contains_eq (alike.hasUtility .functional)
  have variants : first.variants = second.variants := by
    apply Table.ext_get?
    intro name
    have sameKind := alike.variantKind name
    have sameCompounds := alike.variantCompounds name
    unfold variantKind at sameKind
    unfold variantCompounds at sameCompounds
    cases found : first.variants.get? name with
    | none => simpa [found, eq_comm] using sameKind
    | some entry =>
        rw [found, Option.map_some, eq_comm, Option.map_eq_some_iff] at sameKind
        obtain ⟨other, otherFound, kind⟩ := sameKind
        rw [found, otherFound] at sameCompounds
        have compounds : entry.compounds = other.compounds := sameCompounds
        obtain ⟨_, _⟩ := entry
        obtain ⟨_, _⟩ := other
        rw [otherFound, Option.some.injEq, VariantEntry.mk.injEq]
        exact ⟨kind.symm, compounds⟩
  obtain ⟨_, _, _, _⟩ := first
  obtain ⟨_, _, _, _⟩ := second
  rw [Vocabulary.mk.injEq]
  exact ⟨statics, functionals, variants, alike.maxVariantDepth⟩

/-- A vocabulary that is built up by edits exports a normal form.  Each name
that was registered stands in it once, in increasing order, a variant as it was
registered last, and the limit is the last one that was set.  The export
accounts for all counts and answers, so it is the same as that of another run
exactly when the answers are. -/
theorem builder_runs_are_canonical (edits : List Edit) :
    (edit {} edits).snapshot.Lists edits ∧
      (edit {} edits).snapshot.Explains (edit {} edits) ∧
      ∀ others, (edit {} edits).snapshot = (edit {} others).snapshot ↔
        (edit {} edits).AnswersAlike (edit {} others) := by
  refine ⟨snapshot_edit_lists edits, snapshot_explains _, fun others => ⟨?_, ?_⟩⟩
  · intro same
    have vocabularies := congrArg Snapshot.vocabulary same
    rw [vocabulary_snapshot, vocabulary_snapshot] at vocabularies
    rw [vocabularies]
    exact ⟨fun _ _ => rfl, fun _ => rfl, fun _ => rfl, fun _ => rfl, rfl⟩
  · intro alike
    rw [eq_of_answersAlike alike]

end Vocabulary

end UtilityClass
