import UtilityClass.Text.Basic

/-!
# Longest known root

A name such as `border-x-2` is a registered root followed by a value.  The
root is the longest one known: the whole text first, then each part before a
dash, from the longest to the shortest.  A text without any dash that starts
with `@` may also be read as the root `@` with the rest as its value.
-/

namespace UtilityClass.Text

/-- The ways to cut a text at one of its dashes, the longest first part first. -/
def dashCuts : Text → List (Text × Text)
  | [] => []
  | character :: rest =>
    (dashCuts rest).map (fun cut => (character :: cut.1, cut.2)) ++
      if character = '-' then [([], rest)] else []

/-- The cuts that are tried for a root: the one at the last dash, and of the
others those that leave something before the dash. -/
def rootCuts (text : Text) : List (Text × Text) :=
  match text.dashCuts with
  | [] => []
  | longest :: shorter => longest :: shorter.filter (·.1 ≠ [])

/-- The root `@` of a text without dashes, for instance in `@lg`. -/
def atRoot? (known : Text → Bool) : Text → Option (Text × Option Text)
  | [] => none
  | character :: rest =>
    if character = '@' ∧ known ['@'] then some (['@'], some rest) else none

/-- The longest known root of a text and the value after it.  There is no value
when the whole text is known. -/
def longestRoot? (known : Text → Bool) (text : Text) : Option (Text × Option Text) :=
  if known text then some (text, none)
  else if text.dashCuts.isEmpty then atRoot? known text
  else (text.rootCuts.find? fun cut => known cut.1).map fun cut => (cut.1, some cut.2)

/-- Each cut is the text around one dash. -/
theorem eq_of_mem_dashCuts {text : Text} {cut : Text × Text} (member : cut ∈ text.dashCuts) :
    text = cut.1 ++ '-' :: cut.2 := by
  induction text generalizing cut with
  | nil => simp [dashCuts] at member
  | cons character rest induction =>
    simp only [dashCuts, List.mem_append, List.mem_map] at member
    rcases member with ⟨inner, innerMember, rfl⟩ | atHead
    · simpa using induction innerMember
    · by_cases dash : character = '-'
      · simp only [dash, if_true, List.mem_singleton] at atHead
        simp [atHead, dash]
      · simp [dash] at atHead

theorem mem_dashCuts (front rest : Text) :
    (front, rest) ∈ dashCuts (front ++ '-' :: rest) := by
  induction front with
  | nil => simp [dashCuts]
  | cons character front induction =>
    simp only [List.cons_append, dashCuts, List.mem_append, List.mem_map]
    exact .inl ⟨_, induction, rfl⟩

theorem dashCuts_eq_nil_iff {text : Text} : text.dashCuts = [] ↔ '-' ∉ text := by
  constructor
  · intro none member
    obtain ⟨front, rest, rfl⟩ := List.append_of_mem member
    simpa [none] using mem_dashCuts front rest
  · intro absent
    cases cuts : text.dashCuts with
    | nil => rfl
    | cons cut others =>
      have member : cut ∈ text.dashCuts := by simp [cuts]
      have same := eq_of_mem_dashCuts member
      exact absurd (by rw [same]; simp) absent

end UtilityClass.Text
