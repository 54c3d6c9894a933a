import UtilityClass.Proofs.Vocabulary.Loading

/-!
# Exporting and loading again

The snapshot of a vocabulary lists each name once, so nothing in it conflicts
and nothing is noted.  What can be wrong with it is only what registering
allows and loading does not: a blank name, or a limit of zero.
-/

namespace UtilityClass

theorem VariantRow.notesOf_eq_nil {earlier rows : List VariantRow}
    (distinct : (earlier ++ rows).Nodup) : notesOf earlier rows = [] := by
  induction rows generalizing earlier with
  | nil => rfl
  | cons row rows induction =>
      have new : row ∉ earlier := by
        intro member
        exact (List.nodup_append.mp distinct).2.2 row member row (by simp) rfl
      have rest : notesOf (earlier ++ [row]) rows = [] := induction (by simpa using distinct)
      simp [notesOf, VariantRow.notes, new, rest]

theorem VariantRow.faults_eq_nameFaults {earlier rows : List VariantRow}
    (agree : ∀ row ∈ rows, ∀ other ∈ earlier ++ rows,
      other.name = row.name → other.entry = row.entry) :
    faults earlier rows = NameTable.faults .variant (rows.map (·.name)) := by
  induction rows generalizing earlier with
  | nil => rfl
  | cons row rows induction =>
      obtain ⟨rowAgrees, restAgree⟩ := List.forall_mem_cons.mp agree
      have rest := @induction (earlier ++ [row]) (by simpa using restAgree)
      rw [faults, rest]
      by_cases blank : row.name.isBlank = true
      · simp [fault?_of_blank blank, NameTable.faults, blank]
      · have sound : row.fault? earlier = none := by
          apply fault?_eq_none_iff.mpr
          refine ⟨by simpa using blank, ?_⟩
          intro other member
          exact rowAgrees other (List.mem_append_left _ member)
        simp [sound, NameTable.faults, blank]

theorem NameTable.head?_faults (table : NameTable) (names : List Text) :
    (table.faults names).head? =
      if names.any Text.isBlank then some (.blankName table) else none := by
  induction names with
  | nil => rfl
  | cons name names induction =>
      unfold faults at induction ⊢
      by_cases blank : name.isBlank = true
      · simp [blank]
      · simpa [blank] using induction

namespace Vocabulary

/-- The names that a table of the vocabulary lists. -/
def namesIn (vocabulary : Vocabulary) : NameTable → List Text
  | .static => vocabulary.statics.names
  | .functional => vocabulary.functionals.names
  | .variant => vocabulary.variants.names

/-- The first table that lists a blank name. -/
def firstBlank? (vocabulary : Vocabulary) : Option NameTable :=
  [NameTable.static, .functional, .variant].find? fun table =>
    (vocabulary.namesIn table).any Text.isBlank

/-- What loading the snapshot of the vocabulary fails with, if it fails. -/
def reloadFault? (vocabulary : Vocabulary) : Option LoadError :=
  match vocabulary.firstBlank? with
  | some table => some (.blankName table)
  | none => if vocabulary.maxVariantDepth = 0 then some .zeroDepth else none

theorem pairs_snapshot (vocabulary : Vocabulary) :
    vocabulary.snapshot.variants.map VariantRow.pair = vocabulary.variants.entries := by
  simp [snapshot, Function.comp_def, VariantRow.pair, VariantRow.entry]

theorem names_snapshot (vocabulary : Vocabulary) :
    vocabulary.snapshot.variants.map (·.name) = vocabulary.namesIn .variant := by
  simp [snapshot, Function.comp_def, namesIn, Table.names]

theorem sharing_names (table : Table Unit) : sharing () table.names = table.entries := by
  simp [sharing, Table.names, Function.comp_def]

theorem vocabulary_snapshot (vocabulary : Vocabulary) :
    vocabulary.snapshot.vocabulary = vocabulary := by
  rw [Snapshot.vocabulary, pairs_snapshot]
  simp only [snapshot, sharing_names, Table.enter_entries, Option.getD_some]

theorem rows_agree_snapshot (vocabulary : Vocabulary) :
    ∀ row ∈ vocabulary.snapshot.variants, ∀ other ∈ vocabulary.snapshot.variants,
      other.name = row.name → other.entry = row.entry := by
  intro row member other otherMember sameName
  have functional := (Table.holds_entries vocabulary.variants).functional
  rw [← pairs_snapshot] at functional
  exact functional _ (List.mem_map_of_mem otherMember) _ (List.mem_map_of_mem member) sameName

theorem rows_nodup_snapshot (vocabulary : Vocabulary) : vocabulary.snapshot.variants.Nodup := by
  have distinct := Table.fst_ne_of_increasing vocabulary.variants.increasing
  rw [← pairs_snapshot, List.pairwise_map] at distinct
  apply distinct.imp
  intro first second different same
  exact different (congrArg VariantRow.name same)

theorem head?_faults_snapshot (vocabulary : Vocabulary) :
    vocabulary.snapshot.faults.head? = vocabulary.reloadFault? := by
  have rows : VariantRow.faults [] vocabulary.snapshot.variants =
      NameTable.faults .variant (vocabulary.namesIn .variant) := by
    rw [VariantRow.faults_eq_nameFaults (rows_agree_snapshot vocabulary), names_snapshot]
  have statics : vocabulary.snapshot.utilities.statics = vocabulary.namesIn .static := rfl
  have functionals : vocabulary.snapshot.utilities.functionals =
      vocabulary.namesIn .functional := rfl
  have depth : vocabulary.snapshot.maxVariantDepth = some vocabulary.maxVariantDepth := rfl
  simp only [Snapshot.faults, rows, statics, functionals, depth, List.head?_append,
    NameTable.head?_faults, reloadFault?, firstBlank?, List.find?_cons, List.find?_nil]
  cases (vocabulary.namesIn .static).any Text.isBlank with
  | true => rfl
  | false =>
      cases (vocabulary.namesIn .functional).any Text.isBlank with
      | true => rfl
      | false =>
          cases (vocabulary.namesIn .variant).any Text.isBlank with
          | true => rfl
          | false => by_cases zero : vocabulary.maxVariantDepth = 0 <;> simp [zero]

theorem firstBlank?_eq_none_iff {vocabulary : Vocabulary} :
    vocabulary.firstBlank? = none ↔
      ∀ table, ∀ name ∈ vocabulary.namesIn table, name.isBlank = false := by
  constructor
  · intro none table
    have checked : table ∈ [NameTable.static, .functional, .variant] := by cases table <;> simp
    simpa using List.find?_eq_none.mp none table checked
  · intro named
    apply List.find?_eq_none.mpr
    intro table _
    simpa using named table

theorem reloadFault?_eq_none_iff {vocabulary : Vocabulary} :
    vocabulary.reloadFault? = none ↔
      (∀ table, ∀ name ∈ vocabulary.namesIn table, name.isBlank = false) ∧
        0 < vocabulary.maxVariantDepth := by
  rw [← firstBlank?_eq_none_iff, Nat.pos_iff_ne_zero]
  unfold reloadFault?
  cases vocabulary.firstBlank? with
  | some table => simp
  | none => simp

theorem ofSnapshot_notes_of_consistent {snapshot : Snapshot} (consistent : snapshot.Consistent) :
    (ofSnapshot snapshot).notes =
      VariantRow.notesOf [] snapshot.variants ++
        [.loaded snapshot.vocabulary.statics.size snapshot.vocabulary.functionals.size
          snapshot.vocabulary.variants.size] := by
  have faultless := faults_eq_nil_iff_consistent.mpr consistent
  have utilities : snapshot.utilityFaults = [] := by
    rw [faults_eq, List.append_eq_nil_iff] at faultless
    exact faultless.1
  rw [ofSnapshot_notes_eq, if_pos utilities, if_pos faultless]

theorem ofSnapshot_snapshot_outcome_eq_ok_iff {vocabulary reloaded : Vocabulary} :
    (ofSnapshot vocabulary.snapshot).outcome = .ok reloaded ↔
      vocabulary.reloadFault? = none ∧ reloaded = vocabulary := by
  rw [ofSnapshot_outcome_eq, LoadError.verdict_eq_ok_iff, vocabulary_snapshot,
    ← head?_faults_snapshot, List.head?_eq_none_iff]

/-- The snapshot of a vocabulary can be loaded again if no name is blank and
some compound variant is allowed.  It gives the vocabulary back and nothing is
noted but its size.  Otherwise the first table with a blank name is at fault,
and the limit when there is none. -/
theorem exported_snapshot_reloads (vocabulary : Vocabulary) :
    ((∃ reloaded, (ofSnapshot vocabulary.snapshot).outcome = .ok reloaded) ↔
        (∀ table, ∀ name ∈ vocabulary.namesIn table, name.isBlank = false) ∧
          0 < vocabulary.maxVariantDepth) ∧
      (∀ reloaded, (ofSnapshot vocabulary.snapshot).outcome = .ok reloaded →
        reloaded = vocabulary ∧ reloaded.snapshot = vocabulary.snapshot ∧
          (ofSnapshot vocabulary.snapshot).notes =
            [.loaded vocabulary.statics.size vocabulary.functionals.size
              vocabulary.variants.size]) ∧
      ∀ fault, (ofSnapshot vocabulary.snapshot).outcome = .error fault →
        fault =
          match vocabulary.firstBlank? with
          | some table => .blankName table
          | none => .zeroDepth := by
  refine ⟨?_, ?_, ?_⟩
  · simp only [ofSnapshot_snapshot_outcome_eq_ok_iff, ← reloadFault?_eq_none_iff,
      exists_eq_right]
  · intro reloaded loaded
    obtain ⟨faultless, rfl⟩ := ofSnapshot_snapshot_outcome_eq_ok_iff.mp loaded
    have consistent := (ofSnapshot_outcome_eq_ok_iff.mp loaded).1
    have distinct : ([] ++ reloaded.snapshot.variants).Nodup := rows_nodup_snapshot reloaded
    refine ⟨rfl, rfl, ?_⟩
    rw [ofSnapshot_notes_of_consistent consistent, vocabulary_snapshot,
      VariantRow.notesOf_eq_nil distinct, List.nil_append]
  · intro fault failed
    rw [ofSnapshot_outcome_eq, LoadError.verdict_eq_error_iff, head?_faults_snapshot] at failed
    unfold reloadFault? at failed
    cases blank : vocabulary.firstBlank? with
    | some table =>
        rw [blank] at failed
        exact (Option.some.inj failed).symm
    | none =>
        simp only [blank, Option.ite_none_right_eq_some, Option.some.injEq] at failed
        exact failed.2.symm

/-- A vocabulary that comes back although its names were registered out of
order and twice, and one with two faults. -/
theorem exported_snapshot_reloads_out_of_order :
    let vocabulary := ((({} : Vocabulary).addStatic "w".toList).addStatic "flex".toList
      |>.addVariant "hover".toList .functional false).addVariant "hover".toList .static true
    let broken := (vocabulary.addFunctional "\u3000 ".toList).limitDepth 0
    let fault := LoadError.blankName .functional
    (∃ reloaded, (ofSnapshot vocabulary.snapshot).outcome = .ok reloaded ∧
        reloaded = vocabulary ∧ reloaded.snapshot = vocabulary.snapshot ∧
        (ofSnapshot vocabulary.snapshot).notes = [.loaded 2 0 1]) ∧
      (ofSnapshot broken.snapshot).outcome = .error fault ∧
      fault =
        match broken.firstBlank? with
        | some table => .blankName table
        | none => .zeroDepth := by
  intro vocabulary broken fault
  obtain ⟨loads, givesBack, _⟩ := exported_snapshot_reloads vocabulary
  obtain ⟨_, _, fails⟩ := exported_snapshot_reloads broken
  have named : ∀ table, ∀ name ∈ vocabulary.namesIn table, name.isBlank = false :=
    firstBlank?_eq_none_iff.mp rfl
  obtain ⟨reloaded, loaded⟩ := loads.mpr ⟨named, by decide⟩
  have failed : (ofSnapshot broken.snapshot).outcome = .error fault := rfl
  exact ⟨⟨reloaded, loaded, givesBack reloaded loaded⟩, failed, fails fault failed⟩

end Vocabulary

end UtilityClass
