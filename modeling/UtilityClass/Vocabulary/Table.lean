import UtilityClass.Text.Basic

/-!
# Tables by name

A table maps names to entries.  It lists each name once, in increasing order of
code points, so equal contents are equal tables, whatever order they were put
in.
-/

namespace UtilityClass

/-- A finite map from names, listed in increasing order. -/
structure Table (Entry : Type) where
  entries : List (Text × Entry)
  increasing : entries.Pairwise fun first second => first.1 < second.1

namespace Table

variable {Entry : Type}

instance [DecidableEq Entry] : DecidableEq (Table Entry) := fun first second =>
  if same : first.entries = second.entries then
    isTrue (by cases first; cases second; simpa using same)
  else isFalse fun equal => same (congrArg entries equal)

def empty : Table Entry := ⟨[], .nil⟩

/-- Puts an entry at its place in a list of increasing names, instead of the one
that has the same name. -/
def insertInto (name : Text) (entry : Entry) : List (Text × Entry) → List (Text × Entry)
  | [] => [(name, entry)]
  | (other, kept) :: rest =>
    if name < other then (name, entry) :: (other, kept) :: rest
    else if name = other then (name, entry) :: rest
    else (other, kept) :: insertInto name entry rest

theorem mem_insertInto {name : Text} {entry : Entry} {pair : Text × Entry}
    {list : List (Text × Entry)} (member : pair ∈ insertInto name entry list) :
    pair = (name, entry) ∨ pair ∈ list := by
  induction list with
  | nil => simpa [insertInto] using member
  | cons head rest induction =>
    obtain ⟨other, kept⟩ := head
    simp only [insertInto] at member
    split at member
    · simpa using member
    · split at member
      · rcases List.mem_cons.mp member with same | inRest
        · exact .inl same
        · exact .inr (List.mem_cons_of_mem _ inRest)
      · rcases List.mem_cons.mp member with same | inRest
        · exact .inr (by simp [same])
        · exact (induction inRest).imp id (List.mem_cons_of_mem _)

theorem insertInto_increasing (name : Text) (entry : Entry) {list : List (Text × Entry)}
    (increasing : list.Pairwise fun first second => first.1 < second.1) :
    (insertInto name entry list).Pairwise fun first second => first.1 < second.1 := by
  induction list with
  | nil => simp [insertInto]
  | cons head rest induction =>
    obtain ⟨other, kept⟩ := head
    obtain ⟨least, restIncreasing⟩ := List.pairwise_cons.mp increasing
    simp only [insertInto]
    split
    next before =>
      refine List.pairwise_cons.mpr ⟨fun pair member => ?_, increasing⟩
      rcases List.mem_cons.mp member with same | inRest
      · simpa [same] using before
      · exact List.lt_trans before (least pair inRest)
    next notBefore =>
      split
      next same =>
        refine List.pairwise_cons.mpr ⟨fun pair member => ?_, restIncreasing⟩
        simpa [same] using least pair member
      next different =>
        refine List.pairwise_cons.mpr
          ⟨fun pair member => ?_, induction restIncreasing⟩
        rcases mem_insertInto member with same | inRest
        · have after : other < name := Decidable.byContradiction fun notAfter =>
            different (List.le_antisymm (List.not_lt.mp notAfter) (List.not_lt.mp notBefore))
          simpa [same] using after
        · exact least pair inRest

/-- Enters a name, instead of any earlier entry of the same name. -/
def insert (name : Text) (entry : Entry) (table : Table Entry) : Table Entry :=
  ⟨insertInto name entry table.entries, insertInto_increasing name entry table.increasing⟩

def get? (table : Table Entry) (name : Text) : Option Entry :=
  table.entries.lookup name

def contains (table : Table Entry) (name : Text) : Bool :=
  (table.get? name).isSome

def names (table : Table Entry) : List Text :=
  table.entries.map (·.1)

def size (table : Table Entry) : Nat :=
  table.entries.length

end Table

end UtilityClass
