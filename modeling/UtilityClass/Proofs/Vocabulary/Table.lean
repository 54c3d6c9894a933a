import Mathlib.Data.List.Sort
import UtilityClass.Vocabulary.Table

/-!
# What a table holds

A table is determined by what it answers for each name.  Entering a list of
pairs leaves the last entry of each name, so when no two pairs disagree their
order and their repetitions do not count.
-/

namespace UtilityClass.Table

variable {Entry : Type}

/-- Enters pairs one after the other. -/
def enter (table : Table Entry) (pairs : List (Text × Entry)) : Table Entry :=
  pairs.foldl (fun entered pair => entered.insert pair.1 pair.2) table

/-- No name stands for two entries. -/
def Functional (pairs : List (Text × Entry)) : Prop :=
  ∀ first ∈ pairs, ∀ second ∈ pairs, first.1 = second.1 → first.2 = second.2

/-- The table answers with the pairs of a list and with nothing else. -/
def Holds (table : Table Entry) (pairs : List (Text × Entry)) : Prop :=
  ∀ name entry, table.get? name = some entry ↔ (name, entry) ∈ pairs

theorem lookup_cons_eq_ite (name other : Text) (entry : Entry) (list : List (Text × Entry)) :
    ((name, entry) :: list).lookup other =
      if other = name then some entry else list.lookup other := by
  rw [List.lookup_cons]
  by_cases same : other = name
  · simp [same]
  · rw [if_neg same, beq_eq_false_iff_ne.mpr same]

theorem lookup_insertInto (name other : Text) (entry : Entry) (list : List (Text × Entry)) :
    (insertInto name entry list).lookup other =
      if other = name then some entry else list.lookup other := by
  induction list with
  | nil => simp [insertInto, lookup_cons_eq_ite]
  | cons head rest induction =>
      obtain ⟨first, kept⟩ := head
      rw [insertInto]
      split
      next before => rw [lookup_cons_eq_ite]
      next notBefore =>
        split
        next found =>
          subst found
          simp only [lookup_cons_eq_ite]
          split <;> rfl
        next different =>
          rw [lookup_cons_eq_ite, lookup_cons_eq_ite, induction]
          split
          next atFirst =>
            have otherwise : other ≠ name := fun same => different (same.symm.trans atFirst)
            rw [if_neg otherwise]
          next => rfl

@[simp] theorem get?_empty (name : Text) : (empty : Table Entry).get? name = none := rfl

@[simp] theorem get?_insert (table : Table Entry) (name other : Text) (entry : Entry) :
    (table.insert name entry).get? other =
      if other = name then some entry else table.get? other :=
  lookup_insertInto name other entry table.entries

theorem fst_ne_of_increasing {list : List (Text × Entry)}
    (increasing : list.Pairwise fun first second => first.1 < second.1) :
    list.Pairwise fun first second => first.1 ≠ second.1 := by
  apply increasing.imp
  intro first second before same
  rw [same] at before
  exact List.lt_irrefl _ before

theorem lookup_eq_some_iff_mem {list : List (Text × Entry)}
    (distinct : list.Pairwise fun first second => first.1 ≠ second.1) {name : Text}
    {entry : Entry} : list.lookup name = some entry ↔ (name, entry) ∈ list := by
  rw [List.lookup_eq_some_iff]
  constructor
  · rintro ⟨before, after, rfl, _⟩
    simp
  · intro member
    obtain ⟨before, after, rfl⟩ := List.append_of_mem member
    refine ⟨before, after, rfl, ?_⟩
    intro pair earlier
    have different := (List.pairwise_append.mp distinct).2.2 pair earlier (name, entry) (by simp)
    simpa using Ne.symm different

theorem holds_entries (table : Table Entry) : table.Holds table.entries := fun _ _ =>
  lookup_eq_some_iff_mem (fst_ne_of_increasing table.increasing)

theorem ext_get? {first second : Table Entry}
    (same : ∀ name, first.get? name = second.get? name) : first = second := by
  have sameMembers : ∀ pair, pair ∈ first.entries ↔ pair ∈ second.entries := by
    intro pair
    rw [← holds_entries first, ← holds_entries second, same]
  have irreflexive : Std.Irrefl fun first second : Text × Entry => first.1 < second.1 :=
    ⟨fun pair => List.lt_irrefl pair.1⟩
  have antisymmetric : Std.Antisymm fun first second : Text × Entry => first.1 < second.1 :=
    ⟨fun _ _ before after => absurd after (List.lt_asymm before)⟩
  have sameEntries : first.entries = second.entries :=
    first.increasing.eq_of_mem_iff second.increasing sameMembers
  cases first
  cases second
  simpa using sameEntries

theorem Holds.functional {table : Table Entry} {pairs : List (Text × Entry)}
    (holds : table.Holds pairs) : Functional pairs := by
  intro first firstMember second secondMember sameName
  have answer : table.get? first.1 = some first.2 := (holds _ _).mpr firstMember
  have otherAnswer : table.get? second.1 = some second.2 := (holds _ _).mpr secondMember
  rw [← sameName, answer] at otherAnswer
  exact Option.some.inj otherAnswer

/-- What a table holds determines it, in whatever order it is listed. -/
theorem Holds.eq {first second : Table Entry} {pairs others : List (Text × Entry)}
    (firstHolds : first.Holds pairs) (secondHolds : second.Holds others)
    (sameMembers : ∀ pair, pair ∈ pairs ↔ pair ∈ others) : first = second := by
  apply ext_get?
  intro name
  apply Option.ext
  intro entry
  rw [firstHolds, secondHolds]
  exact sameMembers (name, entry)

@[simp] theorem enter_nil (table : Table Entry) : table.enter [] = table := rfl

@[simp] theorem enter_cons (table : Table Entry) (pair : Text × Entry)
    (pairs : List (Text × Entry)) :
    table.enter (pair :: pairs) = (table.insert pair.1 pair.2).enter pairs := rfl

@[simp] theorem enter_append (table : Table Entry) (first second : List (Text × Entry)) :
    table.enter (first ++ second) = (table.enter first).enter second :=
  List.foldl_append

theorem get?_enter (table : Table Entry) (pairs : List (Text × Entry)) (name : Text) :
    (table.enter pairs).get? name = (pairs.reverse.lookup name).or (table.get? name) := by
  induction pairs generalizing table with
  | nil => simp
  | cons pair pairs induction =>
      obtain ⟨entered, entry⟩ := pair
      rw [enter_cons, induction, List.reverse_cons, List.lookup_append, Option.or_assoc]
      rw [lookup_cons_eq_ite, List.lookup_nil, get?_insert]
      split <;> simp

theorem holds_enter {pairs : List (Text × Entry)} (functional : Functional pairs) :
    (empty.enter pairs).Holds pairs := by
  intro name entry
  rw [get?_enter, get?_empty, Option.or_none]
  constructor
  · intro found
    obtain ⟨before, after, split, _⟩ := List.lookup_eq_some_iff.mp found
    rw [← List.mem_reverse, split]
    simp
  · intro member
    have present : (pairs.reverse.lookup name).isSome = true := by
      apply List.lookup_isSome_iff.mpr
      exact ⟨(name, entry), List.mem_reverse.mpr member, by simp⟩
    obtain ⟨last, found⟩ := Option.isSome_iff_exists.mp present
    obtain ⟨before, after, split, _⟩ := List.lookup_eq_some_iff.mp found
    have lastMember : (name, last) ∈ pairs := by
      rw [← List.mem_reverse, split]
      simp
    have sameEntry : last = entry := functional _ lastMember _ member rfl
    rw [found, sameEntry]

/-- Pairs that do not disagree may be entered in any order. -/
theorem enter_perm {pairs others : List (Text × Entry)} (functional : Functional pairs)
    (permuted : others.Perm pairs) : empty.enter others = empty.enter pairs := by
  have otherFunctional : Functional others := by
    intro first firstMember second secondMember
    exact functional first (permuted.mem_iff.mp firstMember) second
      (permuted.mem_iff.mp secondMember)
  apply (holds_enter otherFunctional).eq (holds_enter functional)
  intro pair
  exact permuted.mem_iff

theorem enter_entries (table : Table Entry) : empty.enter table.entries = table := by
  have functional : Functional table.entries := (holds_entries table).functional
  apply (holds_enter functional).eq (holds_entries table)
  intro pair
  exact Iff.rfl

theorem insert_eq_self {table : Table Entry} {name : Text} {entry : Entry}
    (found : table.get? name = some entry) : table.insert name entry = table := by
  apply ext_get?
  intro other
  rw [get?_insert]
  split
  next same => rw [same, found]
  next => rfl

theorem length_insertInto {name : Text} (entry : Entry) {list : List (Text × Entry)}
    (new : list.lookup name = none) :
    (insertInto name entry list).length = list.length + 1 := by
  induction list with
  | nil => rfl
  | cons head rest induction =>
      obtain ⟨other, kept⟩ := head
      rw [lookup_cons_eq_ite] at new
      split at new
      next same => exact absurd new (by simp)
      next different =>
        rw [insertInto, if_neg different]
        split
        next before => rfl
        next after => rw [List.length_cons, induction new, List.length_cons]

theorem size_insert_of_new {table : Table Entry} {name : Text} (entry : Entry)
    (new : table.get? name = none) : (table.insert name entry).size = table.size + 1 :=
  length_insertInto entry new

theorem Holds.insert {table : Table Entry} {pairs : List (Text × Entry)}
    (holds : table.Holds pairs) {name : Text} {entry : Entry}
    (agrees : ∀ pair ∈ pairs, pair.1 = name → pair.2 = entry) :
    (table.insert name entry).Holds (pairs ++ [(name, entry)]) := by
  intro other found
  rw [get?_insert]
  by_cases same : other = name
  · subst same
    simp only [if_true, Option.some.injEq, List.mem_append, List.mem_singleton, Prod.mk.injEq,
      true_and]
    constructor
    · intro equal
      exact .inr equal.symm
    · rintro (member | equal)
      · exact (agrees _ member rfl).symm
      · exact equal.symm
  · simp [same, holds other found]

end UtilityClass.Table
