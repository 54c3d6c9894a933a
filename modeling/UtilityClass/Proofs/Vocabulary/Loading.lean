import UtilityClass.Proofs.Vocabulary.Editing
import UtilityClass.Vocabulary.Loading

/-!
# What loading accepts

The faults of a snapshot can be listed without any table: each row is compared
with all the rows before it.  Loading stops at the first fault of this list,
and without one it ends up with what the rows register, in whatever order they
are registered.
-/

namespace UtilityClass

/-- The value, unless there is a fault.  The first fault counts. -/
def LoadError.verdict {α : Type} (value : α) : List LoadError → Except LoadError α
  | [] => .ok value
  | fault :: _ => .error fault

/-- The faults of names that are entered in a table of utilities. -/
def NameTable.faults (table : NameTable) (names : List Text) : List LoadError :=
  (names.filter Text.isBlank).map fun _ => .blankName table

namespace VariantRow

def pair (row : VariantRow) : Text × VariantEntry := (row.name, row.entry)

/-- What is wrong with a row that follows others: it has no name, or one of the
others declares the same name differently. -/
def fault? (earlier : List VariantRow) (row : VariantRow) : Option LoadError :=
  if row.name.isBlank then some (.blankName .variant)
  else if earlier.any fun other => other.name = row.name ∧ other.entry ≠ row.entry then
    some (.conflictingVariant row.name)
  else none

/-- The faults of rows, each of which follows all the rows before it. -/
def faults (earlier : List VariantRow) : List VariantRow → List LoadError
  | [] => []
  | row :: rows => (row.fault? earlier).toList ++ faults (earlier ++ [row]) rows

/-- What is noted about a row that follows others. -/
def notes (earlier : List VariantRow) (row : VariantRow) : List LoadNote :=
  if row ∈ earlier then [.repeatedVariant row.name] else []

/-- What is noted about rows up to the first fault. -/
def notesOf (earlier : List VariantRow) : List VariantRow → List LoadNote
  | [] => []
  | row :: rows =>
    if (row.fault? earlier).isSome then []
    else row.notes earlier ++ notesOf (earlier ++ [row]) rows

end VariantRow

namespace Snapshot

/-- What is wrong with the names of the utilities. -/
def utilityFaults (snapshot : Snapshot) : List LoadError :=
  NameTable.faults .static snapshot.utilities.statics ++
    NameTable.faults .functional snapshot.utilities.functionals

/-- Everything that is wrong with a snapshot, in the order of the checks. -/
def faults (snapshot : Snapshot) : List LoadError :=
  NameTable.faults .static snapshot.utilities.statics ++
    NameTable.faults .functional snapshot.utilities.functionals ++
    VariantRow.faults [] snapshot.variants ++
    if snapshot.maxVariantDepth = some 0 then [.zeroDepth] else []

/-- The edits that register the rows of a snapshot. -/
def edits (snapshot : Snapshot) : List Edit :=
  snapshot.utilities.statics.map .static ++ snapshot.utilities.functionals.map .functional ++
    snapshot.variants.map fun row => .variant row.name row.entry

/-- All names are there, rows of one name declare the same, and some compound
variant is allowed. -/
structure Consistent (snapshot : Snapshot) : Prop where
  statics_named : ∀ name ∈ snapshot.utilities.statics, name.isBlank = false
  functionals_named : ∀ name ∈ snapshot.utilities.functionals, name.isBlank = false
  variants_named : ∀ row ∈ snapshot.variants, row.name.isBlank = false
  variants_agree : ∀ first ∈ snapshot.variants, ∀ second ∈ snapshot.variants,
    first.name = second.name → first.kind = second.kind ∧ first.compounds = second.compounds
  depth_ne_zero : snapshot.maxVariantDepth ≠ some 0

end Snapshot

namespace LoadError

variable {α β : Type}

theorem verdict_eq_ok_iff {value found : α} {faults : List LoadError} :
    verdict value faults = .ok found ↔ faults = [] ∧ found = value := by
  cases faults with
  | nil => simp [verdict, eq_comm]
  | cons fault faults => simp [verdict]

theorem verdict_eq_error_iff {value : α} {faults : List LoadError} {fault : LoadError} :
    verdict value faults = .error fault ↔ faults.head? = some fault := by
  cases faults with
  | nil => simp [verdict]
  | cons first faults => simp [verdict]

theorem andThen_outcome_eq_verdict {first : Loading α} {next : α → Loading β} {value : α}
    {result : β} {faults more : List LoadError} (start : first.outcome = verdict value faults)
    (later : (next value).outcome = verdict result more) :
    (first.andThen next).outcome = verdict result (faults ++ more) := by
  cases faults with
  | nil =>
      have started : first.outcome = .ok value := start
      simp only [Loading.andThen, started, List.nil_append]
      exact later
  | cons fault faults =>
      have failed : first.outcome = .error fault := start
      simp only [Loading.andThen, failed]
      rfl

theorem andThen_notes_of_verdict (value : α) (faults : List LoadError) (notes : List LoadNote)
    (next : α → Loading β) :
    (Loading.andThen ⟨verdict value faults, notes⟩ next).notes =
      notes ++ if faults = [] then (next value).notes else [] := by
  cases faults with
  | nil => rfl
  | cons fault faults => simp [verdict, Loading.andThen]

end LoadError

open LoadError (verdict)

namespace VariantRow

theorem fault?_of_blank {row : VariantRow} (blank : row.name.isBlank = true)
    (earlier : List VariantRow) : row.fault? earlier = some (.blankName .variant) := by
  simp [fault?, blank]

theorem fault?_of_conflict {earlier : List VariantRow} {row other : VariantRow}
    (named : row.name.isBlank = false) (member : other ∈ earlier)
    (sameName : other.name = row.name) (different : other.entry ≠ row.entry) :
    row.fault? earlier = some (.conflictingVariant row.name) := by
  have conflict : (earlier.any fun other =>
      other.name = row.name ∧ other.entry ≠ row.entry) = true := by
    simp only [List.any_eq_true, decide_eq_true_eq]
    exact ⟨other, member, sameName, different⟩
  simp only [fault?, named, conflict, Bool.false_eq_true, if_false, if_true]

theorem fault?_eq_none_iff {earlier : List VariantRow} {row : VariantRow} :
    row.fault? earlier = none ↔
      row.name.isBlank = false ∧
        ∀ other ∈ earlier, other.name = row.name → other.entry = row.entry := by
  unfold fault?
  by_cases blank : row.name.isBlank = true
  · simp [blank]
  · simp [blank]

theorem faults_eq_nil_iff {earlier rows : List VariantRow} :
    faults earlier rows = [] ↔
      (∀ row ∈ rows, row.name.isBlank = false) ∧
        ∀ row ∈ rows, ∀ other ∈ earlier ++ rows,
          other.name = row.name → other.entry = row.entry := by
  induction rows generalizing earlier with
  | nil => simp [faults]
  | cons row rows induction =>
      have step : faults earlier (row :: rows) = [] ↔
          row.fault? earlier = none ∧ faults (earlier ++ [row]) rows = [] := by
        simp [faults]
      rw [step, fault?_eq_none_iff, induction, List.append_assoc, List.singleton_append]
      constructor
      · intro ⟨⟨named, agrees⟩, restNamed, restAgree⟩
        refine ⟨List.forall_mem_cons.mpr ⟨named, restNamed⟩, ?_⟩
        refine List.forall_mem_cons.mpr ⟨?_, restAgree⟩
        intro other member sameName
        rcases List.mem_append.mp member with inEarlier | inRows
        · exact agrees other inEarlier sameName
        · rcases List.mem_cons.mp inRows with rfl | inRest
          · rfl
          · -- A later row is compared with this one when its own turn comes.
            exact (restAgree other inRest row (by simp) sameName.symm).symm
      · intro ⟨named, agree⟩
        obtain ⟨rowNamed, restNamed⟩ := List.forall_mem_cons.mp named
        obtain ⟨rowAgrees, restAgree⟩ := List.forall_mem_cons.mp agree
        refine ⟨⟨rowNamed, ?_⟩, restNamed, restAgree⟩
        intro other inEarlier
        exact rowAgrees other (List.mem_append_left _ inEarlier)

theorem mem_of_pair_mem {rows : List VariantRow} {row : VariantRow}
    (member : row.pair ∈ rows.map pair) : row ∈ rows := by
  obtain ⟨other, otherMember, same⟩ := List.mem_map.mp member
  obtain ⟨name, kind, compounds⟩ := row
  obtain ⟨otherName, otherKind, otherCompounds⟩ := other
  simp only [pair, entry, Prod.mk.injEq, VariantEntry.mk.injEq] at same
  obtain ⟨rfl, rfl, rfl⟩ := same
  exact otherMember

end VariantRow

namespace Vocabulary

theorem loadNames_eq (table : NameTable) (entered : Table Unit) (names : List Text) :
    loadNames table entered names =
      ⟨verdict (entered.enter (sharing () names)) (table.faults names), []⟩ := by
  induction names generalizing entered with
  | nil => rfl
  | cons name names induction =>
      rw [loadNames]
      by_cases blank : name.isBlank = true
      · simp [blank, NameTable.faults, verdict, Loading.fail]
      · rw [if_neg blank, induction]
        simp [blank, NameTable.faults, sharing]

theorem get?_eq_some_entry_iff {entered : Table VariantEntry} {earlier : List VariantRow}
    (holds : entered.Holds (earlier.map VariantRow.pair)) {row : VariantRow} :
    entered.get? row.name = some row.entry ↔ row ∈ earlier := by
  rw [holds]
  exact ⟨VariantRow.mem_of_pair_mem, List.mem_map_of_mem⟩

theorem fault?_eq_none_of_unknown {entered : Table VariantEntry} {earlier : List VariantRow}
    (holds : entered.Holds (earlier.map VariantRow.pair)) {row : VariantRow}
    (named : row.name.isBlank = false) (unknown : entered.get? row.name = none) :
    row.fault? earlier = none := by
  apply VariantRow.fault?_eq_none_iff.mpr
  refine ⟨named, ?_⟩
  intro other member sameName
  have answer : entered.get? other.name = some other.entry :=
    (get?_eq_some_entry_iff holds).mpr member
  rw [sameName, unknown] at answer
  exact absurd answer (by simp)

theorem fault?_eq_of_known {entered : Table VariantEntry} {earlier : List VariantRow}
    (holds : entered.Holds (earlier.map VariantRow.pair)) {row : VariantRow}
    (named : row.name.isBlank = false) {known : VariantEntry}
    (found : entered.get? row.name = some known) :
    row.fault? earlier =
      if known = row.entry then none else some (.conflictingVariant row.name) := by
  split
  next alike =>
    apply VariantRow.fault?_eq_none_iff.mpr
    refine ⟨named, ?_⟩
    intro other member sameName
    have answer : entered.get? other.name = some other.entry :=
      (get?_eq_some_entry_iff holds).mpr member
    rw [sameName, found, alike] at answer
    exact (Option.some.inj answer).symm
  next different =>
    obtain ⟨other, member, same⟩ := List.mem_map.mp ((holds _ _).mp found)
    obtain ⟨sameName, rfl⟩ := Prod.mk.inj same
    exact VariantRow.fault?_of_conflict named member sameName different

theorem loadRow_eq {entered : Table VariantEntry} {earlier : List VariantRow}
    (holds : entered.Holds (earlier.map VariantRow.pair)) (row : VariantRow) :
    loadRow entered row =
      match row.fault? earlier with
      | some fault => .fail fault
      | none => ⟨.ok (entered.insert row.name row.entry), row.notes earlier⟩ := by
  unfold loadRow
  by_cases blank : row.name.isBlank = true
  · rw [if_pos blank, VariantRow.fault?_of_blank blank]
  have named : row.name.isBlank = false := by simpa using blank
  rw [if_neg blank]
  cases found : entered.get? row.name with
  | none =>
      have new : row ∉ earlier := by
        rw [← get?_eq_some_entry_iff holds, found]
        simp
      rw [fault?_eq_none_of_unknown holds named found, VariantRow.notes, if_neg new]
      rfl
  | some known =>
      rw [fault?_eq_of_known holds named found]
      by_cases alike : known = row.entry
      · subst alike
        have repeated : row ∈ earlier := (get?_eq_some_entry_iff holds).mp found
        rw [VariantRow.notes, if_pos repeated, Table.insert_eq_self found]
        simp
      · simp [alike]

theorem holds_insert_row {entered : Table VariantEntry} {earlier : List VariantRow}
    (holds : entered.Holds (earlier.map VariantRow.pair)) {row : VariantRow}
    (sound : row.fault? earlier = none) :
    (entered.insert row.name row.entry).Holds ((earlier ++ [row]).map VariantRow.pair) := by
  obtain ⟨_, agrees⟩ := VariantRow.fault?_eq_none_iff.mp sound
  rw [List.map_append]
  apply holds.insert
  intro pair member sameName
  obtain ⟨other, otherMember, rfl⟩ := List.mem_map.mp member
  exact agrees other otherMember sameName

/-- A table that holds the rows before it says all that counts of them. -/
theorem loadRows_eq {entered : Table VariantEntry} {earlier : List VariantRow}
    (holds : entered.Holds (earlier.map VariantRow.pair)) (rows : List VariantRow) :
    loadRows entered rows =
      ⟨verdict (entered.enter (rows.map VariantRow.pair)) (VariantRow.faults earlier rows),
        VariantRow.notesOf earlier rows⟩ := by
  induction rows generalizing entered earlier with
  | nil => rfl
  | cons row rows induction =>
      rw [loadRows, loadRow_eq holds]
      cases sound : row.fault? earlier with
      | some fault =>
          simp [Loading.fail, Loading.andThen, VariantRow.faults, VariantRow.notesOf, sound,
            verdict]
      | none =>
          have next := induction (holds_insert_row holds sound)
          simp only [Loading.andThen, next, VariantRow.faults, VariantRow.notesOf, sound,
            Option.toList_none, List.nil_append, Option.isSome_none, Bool.false_eq_true,
            if_false]
          rfl

theorem loadDepth_eq (depth : Option Nat) :
    loadDepth depth =
      ⟨verdict (depth.getD defaultDepth) (if depth = some 0 then [.zeroDepth] else []), []⟩ := by
  cases depth with
  | none => rfl
  | some depth =>
      cases depth with
      | zero => rfl
      | succ depth => rfl

end Vocabulary

/-- The vocabulary that the rows of a snapshot register under its limit. -/
def Snapshot.vocabulary (snapshot : Snapshot) : Vocabulary where
  statics := Table.empty.enter (sharing () snapshot.utilities.statics)
  functionals := Table.empty.enter (sharing () snapshot.utilities.functionals)
  variants := Table.empty.enter (snapshot.variants.map VariantRow.pair)
  maxVariantDepth := snapshot.maxVariantDepth.getD defaultDepth

namespace Vocabulary

theorem holds_empty : (Table.empty : Table VariantEntry).Holds (List.map VariantRow.pair []) := by
  intro name entry
  simp

theorem ofSnapshot_outcome_eq (snapshot : Snapshot) :
    (ofSnapshot snapshot).outcome = verdict snapshot.vocabulary snapshot.faults := by
  have statics := congrArg Loading.outcome
    (loadNames_eq .static .empty snapshot.utilities.statics)
  have functionals := congrArg Loading.outcome
    (loadNames_eq .functional .empty snapshot.utilities.functionals)
  have variants := congrArg Loading.outcome (loadRows_eq holds_empty snapshot.variants)
  have depth := congrArg Loading.outcome (loadDepth_eq snapshot.maxVariantDepth)
  simp only [Snapshot.faults, List.append_assoc]
  apply LoadError.andThen_outcome_eq_verdict statics
  apply LoadError.andThen_outcome_eq_verdict functionals
  apply LoadError.andThen_outcome_eq_verdict variants
  rw [← List.append_nil (if snapshot.maxVariantDepth = some 0 then _ else _)]
  apply LoadError.andThen_outcome_eq_verdict depth
  rfl

theorem faults_eq (snapshot : Snapshot) :
    snapshot.faults = snapshot.utilityFaults ++ (VariantRow.faults [] snapshot.variants ++
      if snapshot.maxVariantDepth = some 0 then [.zeroDepth] else []) := by
  rw [Snapshot.faults, Snapshot.utilityFaults, List.append_assoc]

/-- Nothing is noted until the rows are loaded, and the sizes only when nothing is at fault. -/
theorem ofSnapshot_notes_eq (snapshot : Snapshot) :
    (ofSnapshot snapshot).notes =
      if snapshot.utilityFaults = [] then
        VariantRow.notesOf [] snapshot.variants ++
          if snapshot.faults = [] then
            [.loaded snapshot.vocabulary.statics.size snapshot.vocabulary.functionals.size
              snapshot.vocabulary.variants.size]
          else []
      else [] := by
  simp only [ofSnapshot, loadNames_eq, loadRows_eq holds_empty, loadDepth_eq,
    LoadError.andThen_notes_of_verdict, List.nil_append, faults_eq, List.append_eq_nil_iff]
  by_cases utilities : snapshot.utilityFaults = []
  · obtain ⟨statics, functionals⟩ := List.append_eq_nil_iff.mp utilities
    simp only [utilities, statics, functionals, if_true, true_and]
    by_cases rows : VariantRow.faults [] snapshot.variants = []
    · simp only [rows, if_true, true_and]
      rfl
    · simp only [rows, if_false, false_and]
  · rw [if_neg utilities]
    rw [Snapshot.utilityFaults, List.append_eq_nil_iff, not_and_or] at utilities
    rcases utilities with statics | functionals
    · simp only [statics, if_false]
    · simp only [functionals, if_false, ite_self]

theorem nameFaults_eq_nil_iff {table : NameTable} {names : List Text} :
    table.faults names = [] ↔ ∀ name ∈ names, name.isBlank = false := by
  simp [NameTable.faults]

theorem entry_eq_iff {first second : VariantRow} :
    first.entry = second.entry ↔
      first.kind = second.kind ∧ first.compounds = second.compounds := by
  simp [VariantRow.entry]

theorem faults_eq_nil_iff_consistent {snapshot : Snapshot} :
    snapshot.faults = [] ↔ snapshot.Consistent := by
  simp only [Snapshot.faults, List.append_eq_nil_iff, nameFaults_eq_nil_iff,
    VariantRow.faults_eq_nil_iff, List.nil_append]
  constructor
  · intro ⟨⟨⟨statics, functionals⟩, named, agree⟩, depth⟩
    refine ⟨statics, functionals, named, ?_, by simpa using depth⟩
    intro first firstMember second secondMember sameName
    exact entry_eq_iff.mp (agree second secondMember first firstMember sameName)
  · intro consistent
    refine ⟨⟨⟨consistent.statics_named, consistent.functionals_named⟩,
      consistent.variants_named, ?_⟩, by simpa using consistent.depth_ne_zero⟩
    intro row member other otherMember sameName
    exact entry_eq_iff.mpr (consistent.variants_agree other otherMember row member sameName)

theorem ofSnapshot_outcome_eq_ok_iff {snapshot : Snapshot} {vocabulary : Vocabulary} :
    (ofSnapshot snapshot).outcome = .ok vocabulary ↔
      snapshot.Consistent ∧ vocabulary = snapshot.vocabulary := by
  rw [ofSnapshot_outcome_eq, LoadError.verdict_eq_ok_iff, faults_eq_nil_iff_consistent]

theorem flatMap_nothing {α β : Type} (list : List α) :
    list.flatMap (fun _ => ([] : List β)) = [] :=
  List.flatMap_eq_nil_iff.mpr fun _ _ => rfl

theorem staticPairs_edits (snapshot : Snapshot) :
    snapshot.edits.flatMap Edit.staticPairs = sharing () snapshot.utilities.statics := by
  rw [sharing, List.map_eq_flatMap]
  simp [Snapshot.edits, List.flatMap_map, Edit.staticPairs]

theorem functionalPairs_edits (snapshot : Snapshot) :
    snapshot.edits.flatMap Edit.functionalPairs = sharing () snapshot.utilities.functionals := by
  rw [sharing, List.map_eq_flatMap]
  simp [Snapshot.edits, List.flatMap_map, Edit.functionalPairs, flatMap_nothing]

theorem variantPairs_edits (snapshot : Snapshot) :
    snapshot.edits.flatMap Edit.variantPairs = snapshot.variants.map VariantRow.pair := by
  rw [List.map_eq_flatMap]
  simp [Snapshot.edits, List.flatMap_map, Edit.variantPairs, VariantRow.pair, flatMap_nothing]

/-- Rows that do not disagree register the same in any order. -/
theorem edit_perm_eq {snapshot : Snapshot} (consistent : snapshot.Consistent)
    {edits : List Edit} (permuted : edits.Perm snapshot.edits) :
    (edit {} edits).limitDepth (snapshot.maxVariantDepth.getD defaultDepth) =
      snapshot.vocabulary := by
  have units (pairs : List (Text × Unit)) : Table.Functional pairs := fun _ _ _ _ _ => rfl
  have variantsFunctional : Table.Functional (snapshot.variants.map VariantRow.pair) := by
    intro first firstMember second secondMember sameName
    obtain ⟨row, member, rfl⟩ := List.mem_map.mp firstMember
    obtain ⟨other, otherMember, rfl⟩ := List.mem_map.mp secondMember
    exact entry_eq_iff.mpr (consistent.variants_agree row member other otherMember sameName)
  have statics : (edits.flatMap Edit.staticPairs).Perm
      (sharing () snapshot.utilities.statics) := by
    rw [← staticPairs_edits]
    exact permuted.flatMap_right Edit.staticPairs
  have functionals : (edits.flatMap Edit.functionalPairs).Perm
      (sharing () snapshot.utilities.functionals) := by
    rw [← functionalPairs_edits]
    exact permuted.flatMap_right Edit.functionalPairs
  have variants : (edits.flatMap Edit.variantPairs).Perm
      (snapshot.variants.map VariantRow.pair) := by
    rw [← variantPairs_edits]
    exact permuted.flatMap_right Edit.variantPairs
  rw [edit_eq, limitDepth, Snapshot.vocabulary, Table.enter_perm (units _) statics,
    Table.enter_perm (units _) functionals, Table.enter_perm variantsFunctional variants]

/-- Exactly the consistent snapshots are loaded.  A loaded vocabulary is what
the rows of the snapshot register in any order, under the limit of the snapshot.
The error of any other snapshot is the first of its faults. -/
theorem loading_accepts_consistent_snapshots (snapshot : Snapshot) :
    ((∃ vocabulary, (ofSnapshot snapshot).outcome = .ok vocabulary) ↔ snapshot.Consistent) ∧
      (∀ vocabulary edits, (ofSnapshot snapshot).outcome = .ok vocabulary →
        edits.Perm snapshot.edits →
        vocabulary = (edit {} edits).limitDepth (snapshot.maxVariantDepth.getD 32)) ∧
      ∀ fault, (ofSnapshot snapshot).outcome = .error fault ↔
        snapshot.faults.head? = some fault := by
  refine ⟨?_, ?_, ?_⟩
  · simp [ofSnapshot_outcome_eq_ok_iff]
  · intro vocabulary edits loaded permuted
    obtain ⟨consistent, rfl⟩ := ofSnapshot_outcome_eq_ok_iff.mp loaded
    exact (edit_perm_eq consistent permuted).symm
  · intro fault
    rw [ofSnapshot_outcome_eq, LoadError.verdict_eq_error_iff]

/-- A snapshot that declares `hover` twice is loaded as its rows register from
the last to the first.  Another declaration of `hover` is the fault that is
found ahead of the blank name after it.  A utility whose name is nothing but
white space is found ahead of both. -/
theorem loading_accepts_consistent_snapshots_repeated_row :
    let hover : VariantRow := ⟨"hover".toList, .static, true⟩
    let group : VariantRow := ⟨"group".toList, .compound, true⟩
    let lists : UtilityLists := ⟨["flex".toList], ["bg".toList, "w".toList]⟩
    let snapshot : Snapshot := ⟨lists, [hover, group, hover], none⟩
    let broken : Snapshot :=
      ⟨lists, [hover, { hover with compounds := false }, { group with name := [' '] }], some 0⟩
    let unnamed : Snapshot :=
      { broken with utilities := { lists with functionals := ["bg".toList, "\u3000\t".toList] } }
    snapshot.Consistent ∧
      (ofSnapshot snapshot).outcome =
        .ok ((edit {} snapshot.edits.reverse).limitDepth 32) ∧
      (ofSnapshot broken).outcome = .error (.conflictingVariant "hover".toList) ∧
      (ofSnapshot unnamed).outcome = .error (.blankName .functional) ∧
      ¬ unnamed.Consistent := by
  intro hover group lists snapshot broken unnamed
  have loaded : (ofSnapshot snapshot).outcome = .ok snapshot.vocabulary := rfl
  obtain ⟨accepts, registers, _⟩ := loading_accepts_consistent_snapshots snapshot
  obtain ⟨_, _, fails⟩ := loading_accepts_consistent_snapshots broken
  obtain ⟨acceptsUnnamed, _, failsUnnamed⟩ := loading_accepts_consistent_snapshots unnamed
  have registered := registers snapshot.vocabulary snapshot.edits.reverse loaded
    (List.reverse_perm _)
  have blank : (ofSnapshot unnamed).outcome = .error (.blankName .functional) :=
    (failsUnnamed _).mpr rfl
  refine ⟨accepts.mp ⟨_, loaded⟩, ?_, (fails _).mpr rfl, blank, ?_⟩
  · rw [loaded, registered]
    rfl
  · rw [← acceptsUnnamed, blank]
    rintro ⟨_, found⟩
    cases found

end Vocabulary

end UtilityClass
