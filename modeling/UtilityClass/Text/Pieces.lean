import UtilityClass.Text.Nesting

/-!
# Pieces between top-level separators

`Text.pieces` cuts a text at each separator that stands outside all brackets
and quotes and is not escaped.  There is always at least one piece, and
joining the pieces with the separator gives the text back.
-/

namespace UtilityClass

/-- Whether the reading may be cut at `character`: it is the separator, stands
outside every context, and is not escaped.  A backslash escapes before it could
separate, so it never does. -/
def Nesting.cutsAt (nesting : Nesting) (separator character : Char) : Bool :=
  nesting = outside && character == separator && character != '\\'

namespace Text

/-- The pieces of a text of which `nesting` describes what stands before it. -/
def piecesFrom (separator : Char) : Nesting → Text → List Text
  | _, [] => [[]]
  | nesting, character :: rest =>
    if nesting.cutsAt separator character then
      [] :: piecesFrom separator nesting rest
    else
      (piecesFrom separator (nesting.step character) rest).modifyHead (character :: ·)

/-- The pieces of a text between its top-level separators. -/
def pieces (separator : Char) (text : Text) : List Text :=
  piecesFrom separator .outside text

theorem piecesFrom_ne_nil (separator : Char) (nesting : Nesting) (text : Text) :
    piecesFrom separator nesting text ≠ [] := by
  induction text generalizing nesting with
  | nil => simp [piecesFrom]
  | cons character rest induction =>
    by_cases cut : nesting.cutsAt separator character
    · simp [piecesFrom, cut]
    · simpa [piecesFrom, cut, List.modifyHead_eq_nil_iff] using induction _

theorem pieces_ne_nil (separator : Char) (text : Text) :
    text.pieces separator ≠ [] :=
  piecesFrom_ne_nil separator .outside text

/-- Joining the pieces with the separator gives the text back. -/
theorem intercalate_piecesFrom (separator : Char) (nesting : Nesting) (text : Text) :
    [separator].intercalate (piecesFrom separator nesting text) = text := by
  induction text generalizing nesting with
  | nil => simp [piecesFrom]
  | cons character rest induction =>
    by_cases cut : nesting.cutsAt separator character
    · have same : character = separator := by
        simp only [Nesting.cutsAt, Bool.and_eq_true, beq_iff_eq] at cut
        exact cut.1.2
      have inner := induction nesting
      cases found : piecesFrom separator nesting rest with
      | nil => exact absurd found (piecesFrom_ne_nil _ _ _)
      | cons first others =>
        rw [found] at inner
        rw [piecesFrom, if_pos cut, found, ← inner, same]
        simp
    · have inner := induction (nesting.step character)
      cases found : piecesFrom separator (nesting.step character) rest with
      | nil => exact absurd found (piecesFrom_ne_nil _ _ _)
      | cons first others =>
        rw [found] at inner
        cases others <;> simp_all [piecesFrom]

end Text

end UtilityClass
