import Mathlib.Data.Finset.Card
import Mathlib.Data.List.Infix
import UtilityClass.Proofs.Vocabulary.Export

/-!
# What is noted while loading

Each row that is loaded either enters a name in the table or is noted as a
repetition, so the notes account for all rows of a snapshot that is loaded.
What is noted does not depend on the table: a row is a repetition when the same
row stands before it.
-/

namespace UtilityClass

theorem Table.size_enter {Entry : Type} (pairs : List (Text × Entry)) :
    (empty.enter pairs).size = (pairs.map Prod.fst).toFinset.card := by
  have sameNames : (empty.enter pairs).names.toFinset = (pairs.map Prod.fst).toFinset := by
    ext name
    rw [List.mem_toFinset, List.mem_toFinset, mem_names_enter_iff]
  rw [← sameNames, List.toFinset_card_of_nodup (names_nodup _), names, List.length_map, size]

namespace Snapshot

/-- The rows that are loaded, each with the rows before it: those in front of
the first row at fault, and none at all when a utility is at fault. -/
def loadedRows (snapshot : Snapshot) : List (List VariantRow × VariantRow) :=
  if snapshot.utilityFaults = [] then
    (snapshot.variants.inits.zip snapshot.variants).takeWhile fun (earlier, row) =>
      row.fault? earlier = none
  else []

/-- The loaded rows that declare an earlier row again, with its name, kind and flag. -/
def repeatedRows (snapshot : Snapshot) : List VariantRow :=
  (snapshot.loadedRows.filter fun (earlier, row) => row ∈ earlier).map Prod.snd

/-- What is noted when everything is loaded: how many different names there are. -/
def total (snapshot : Snapshot) : LoadNote :=
  .loaded snapshot.utilities.statics.toFinset.card snapshot.utilities.functionals.toFinset.card
    (snapshot.variants.map (·.name)).toFinset.card

theorem total_eq (snapshot : Snapshot) :
    snapshot.total =
      .loaded snapshot.vocabulary.statics.size snapshot.vocabulary.functionals.size
        snapshot.vocabulary.variants.size := by
  have names (list : List Text) : (sharing () list).map Prod.fst = list := by
    simp [sharing, Function.comp_def]
  simp only [total, vocabulary, Table.size_enter, names, List.map_map]
  rfl

end Snapshot

namespace VariantRow

theorem notesOf_eq (earlier rows : List VariantRow) :
    notesOf earlier rows =
      ((((rows.inits.map (earlier ++ ·)).zip rows).takeWhile
          fun (before, row) => row.fault? before = none).filter
          fun (before, row) => row ∈ before).map
        fun (_, row) => .repeatedVariant row.name := by
  induction rows generalizing earlier with
  | nil => rfl
  | cons row rows induction =>
      have later : (rows.inits.map (row :: ·)).map (earlier ++ ·) =
          rows.inits.map ((earlier ++ [row]) ++ ·) := by
        simp [Function.comp_def]
      rw [List.inits_cons, List.map_cons, List.append_nil, List.zip_cons_cons, later,
        List.takeWhile_cons, notesOf]
      cases sound : row.fault? earlier with
      | some fault => simp [sound]
      | none =>
          by_cases repeated : row ∈ earlier
          · simp [sound, repeated, induction, notes]
          · simp [sound, repeated, induction, notes]

theorem exists_row_of_mem_faults {earlier rows : List VariantRow} {fault : LoadError}
    (member : fault ∈ faults earlier rows) :
    ∃ (row : VariantRow) (before : List VariantRow), row.fault? before = some fault := by
  induction rows generalizing earlier with
  | nil => exact absurd member List.not_mem_nil
  | cons row rows induction =>
      rw [faults, List.mem_append, Option.mem_toList] at member
      rcases member with here | later
      · exact ⟨row, earlier, here⟩
      · exact induction later

theorem eq_variant_of_fault? {earlier : List VariantRow} {row : VariantRow} {table : NameTable}
    (fault : row.fault? earlier = some (.blankName table)) : table = .variant := by
  unfold fault? at fault
  split at fault
  next => simpa using fault.symm
  next => simp at fault

end VariantRow

namespace Vocabulary

/-- A row that is loaded either makes the table longer or is noted. -/
theorem loadRow_accounts {entered next : Table VariantEntry} {row : VariantRow}
    (loaded : (loadRow entered row).outcome = .ok next) :
    (loadRow entered row).notes.length + next.size = entered.size + 1 := by
  unfold loadRow at loaded ⊢
  split at loaded
  next blank => nomatch loaded
  next named =>
    rw [if_neg named]
    cases known : entered.get? row.name with
    | none =>
        obtain rfl : entered.insert row.name row.entry = next := by
          simpa [known, Loading.succeed] using loaded
        simp [Loading.succeed, Table.size_insert_of_new row.entry known]
    | some earlier =>
        by_cases alike : earlier = row.entry
        · obtain rfl : entered = next := by simpa [known, alike] using loaded
          simp [alike, Nat.add_comm]
        · simp [known, alike, Loading.fail] at loaded

theorem loadRows_accounts {entered final : Table VariantEntry} {rows : List VariantRow}
    (loaded : (loadRows entered rows).outcome = .ok final) :
    (loadRows entered rows).notes.length + final.size = entered.size + rows.length := by
  induction rows generalizing entered with
  | nil =>
      obtain rfl : entered = final := by simpa [loadRows, Loading.succeed] using loaded
      simp [loadRows, Loading.succeed]
  | cons row rows induction =>
      rw [loadRows] at loaded ⊢
      cases first : (loadRow entered row).outcome with
      | error fault => simp [Loading.andThen, first] at loaded
      | ok next =>
          simp only [Loading.andThen, first] at loaded ⊢
          have here := loadRow_accounts first
          have later := induction loaded
          rw [List.length_append, List.length_cons]
          omega

theorem repeatedRows_of_faulty {snapshot : Snapshot} (faulty : snapshot.utilityFaults ≠ []) :
    snapshot.repeatedRows = [] := by
  rw [Snapshot.repeatedRows, Snapshot.loadedRows, if_neg faulty]
  rfl

theorem notesOf_variants_eq {snapshot : Snapshot} (sound : snapshot.utilityFaults = []) :
    VariantRow.notesOf [] snapshot.variants =
      snapshot.repeatedRows.map fun row => .repeatedVariant row.name := by
  rw [Snapshot.repeatedRows, Snapshot.loadedRows, if_pos sound, VariantRow.notesOf_eq,
    List.map_map]
  simp only [List.nil_append, List.map_id_fun', id_eq]
  rfl

/-- The repetitions are noted, and the total when nothing is at fault. -/
theorem ofSnapshot_notes_eq_repetitions (snapshot : Snapshot) :
    (ofSnapshot snapshot).notes =
      (snapshot.repeatedRows.map fun row => .repeatedVariant row.name) ++
        if snapshot.faults = [] then [snapshot.total] else [] := by
  rw [ofSnapshot_notes_eq, Snapshot.total_eq]
  by_cases utilities : snapshot.utilityFaults = []
  · rw [if_pos utilities, notesOf_variants_eq utilities]
  · simp [utilities, repeatedRows_of_faulty utilities, faults_eq]

theorem countP_warning_notes (snapshot : Snapshot) :
    (ofSnapshot snapshot).notes.countP (fun note => note.severity = .warning) =
      snapshot.repeatedRows.length := by
  rw [ofSnapshot_notes_eq_repetitions, List.countP_append, List.countP_map]
  by_cases faultless : snapshot.faults = []
  · simp [faultless, Function.comp_def, LoadNote.severity, Snapshot.total]
  · simp [faultless, Function.comp_def, LoadNote.severity]

theorem repeatedRows_accounts {snapshot : Snapshot} (faultless : snapshot.faults = []) :
    snapshot.repeatedRows.length + snapshot.vocabulary.variants.size =
      snapshot.variants.length := by
  rw [faults_eq, List.append_eq_nil_iff, List.append_eq_nil_iff] at faultless
  obtain ⟨utilities, rows, _⟩ := faultless
  have loaded := loadRows_eq holds_empty snapshot.variants
  rw [rows, notesOf_variants_eq utilities] at loaded
  have accounts := loadRows_accounts (congrArg Loading.outcome loaded)
  rw [loaded, List.length_map] at accounts
  exact accounts.trans (Nat.zero_add _)

theorem utilityFaults_ne_nil {snapshot : Snapshot} {table : NameTable}
    (utility : table ≠ .variant) (first : snapshot.faults.head? = some (.blankName table)) :
    snapshot.utilityFaults ≠ [] := by
  intro sound
  have member := List.mem_of_head? first
  rw [faults_eq, sound, List.nil_append, List.mem_append] at member
  rcases member with ofRow | ofDepth
  · obtain ⟨row, before, fault⟩ := VariantRow.exists_row_of_mem_faults ofRow
    exact utility (VariantRow.eq_variant_of_fault? fault)
  · simp at ofDepth

/-- Loading warns of each row that repeats an earlier one, in order and up to
the first fault, and says how much there is once everything is loaded.  So each
row of a loaded snapshot is entered or warned of, and nothing is noted when the
name of a utility is at fault. -/
theorem loading_notes_account_for_rows (snapshot : Snapshot) :
    ((ofSnapshot snapshot).notes.map fun note => (note.severity, note)) =
        (snapshot.repeatedRows.map fun row => (.warning, .repeatedVariant row.name)) ++
          (match (ofSnapshot snapshot).outcome with
          | .ok _ => [(.debug, snapshot.total)]
          | .error _ => []) ∧
      (∀ vocabulary, (ofSnapshot snapshot).outcome = .ok vocabulary →
        (ofSnapshot snapshot).notes.countP (fun note => note.severity = .warning) +
          vocabulary.variantCount = snapshot.variants.length) ∧
      ∀ table, table ≠ .variant →
        (ofSnapshot snapshot).outcome = .error (.blankName table) →
        (ofSnapshot snapshot).notes = [] := by
  refine ⟨?_, ?_, ?_⟩
  · rw [ofSnapshot_notes_eq_repetitions, ofSnapshot_outcome_eq]
    cases snapshot.faults with
    | nil => simp [LoadError.verdict, LoadNote.severity, Snapshot.total]
    | cons fault faults => simp [LoadError.verdict, LoadNote.severity]
  · intro vocabulary loaded
    obtain ⟨consistent, rfl⟩ := ofSnapshot_outcome_eq_ok_iff.mp loaded
    rw [countP_warning_notes]
    exact repeatedRows_accounts (faults_eq_nil_iff_consistent.mpr consistent)
  · intro table utility failed
    rw [ofSnapshot_outcome_eq, LoadError.verdict_eq_error_iff] at failed
    rw [ofSnapshot_notes_eq, if_neg (utilityFaults_ne_nil utility failed)]

/-- A snapshot with a row that comes three times, one with a conflict between
repetitions, and one with a blank utility. -/
theorem loading_notes_account_for_rows_hover :
    let hover : VariantRow := ⟨"hover".toList, .static, true⟩
    let group : VariantRow := ⟨"group".toList, .compound, true⟩
    let lists : UtilityLists := ⟨["flex".toList, "flex".toList], ["bg".toList]⟩
    let snapshot : Snapshot := ⟨lists, [hover, group, hover, hover], none⟩
    let broken : Snapshot :=
      ⟨lists, [hover, hover, { hover with kind := .functional }, hover], none⟩
    let unnamed : Snapshot := ⟨⟨[], ["\u3000".toList]⟩, [hover, hover], none⟩
    snapshot.repeatedRows = [hover, hover] ∧ snapshot.total = .loaded 1 1 2 ∧
      (ofSnapshot snapshot).outcome = .ok snapshot.vocabulary ∧
      (ofSnapshot snapshot).notes.countP (fun note => note.severity = .warning) +
        snapshot.vocabulary.variantCount = 4 ∧
      broken.repeatedRows = [hover] ∧
      ((ofSnapshot broken).notes.map fun note => (note.severity, note)) =
        [(.warning, .repeatedVariant hover.name)] ∧
      (ofSnapshot unnamed).outcome = .error (.blankName .functional) ∧
      (ofSnapshot unnamed).notes = [] := by
  intro hover group lists snapshot broken unnamed
  have loaded : (ofSnapshot snapshot).outcome = .ok snapshot.vocabulary := rfl
  have failed : (ofSnapshot unnamed).outcome = .error (.blankName .functional) := rfl
  obtain ⟨_, accounts, _⟩ := loading_notes_account_for_rows snapshot
  obtain ⟨warns, _, _⟩ := loading_notes_account_for_rows broken
  obtain ⟨_, _, silent⟩ := loading_notes_account_for_rows unnamed
  exact ⟨by decide, by decide, loaded, accounts _ loaded, by decide, warns, failed,
    silent _ (by simp) failed⟩

end Vocabulary

end UtilityClass
