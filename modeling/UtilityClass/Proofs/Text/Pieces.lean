import UtilityClass.Modifier

/-!
# Pieces of pieces

Reading starts afresh after each top-level separator, so a piece read on its
own has no place to be cut: it is its own only piece.  The cut of a token at
its slash therefore loses no character of the token.
-/

namespace UtilityClass

namespace Nesting

theorem cutsAt_iff {nesting : Nesting} {separator character : Char} :
    nesting.cutsAt separator character = true ↔
      nesting = outside ∧ character = separator ∧ character ≠ '\\' := by
  simp [cutsAt, and_assoc]

end Nesting

namespace Text

theorem piecesFrom_cons_of_cut {separator character : Char} {nesting : Nesting} {rest : Text}
    (cut : nesting.cutsAt separator character = true) :
    piecesFrom separator nesting (character :: rest) =
      [] :: piecesFrom separator nesting rest := by
  simp [piecesFrom, cut]

theorem piecesFrom_cons_of_keep {separator character : Char} {nesting : Nesting} {rest : Text}
    (keep : ¬nesting.cutsAt separator character = true) :
    piecesFrom separator nesting (character :: rest) =
      (piecesFrom separator (nesting.step character) rest).modifyHead (character :: ·) := by
  simp [piecesFrom, keep]

/-- The first piece is not cut by a reading from the same state, and the
others are not cut by a reading from outside. -/
theorem piecesFrom_eq_cons {separator : Char} {nesting : Nesting} {text first : Text}
    {others : List Text} (found : piecesFrom separator nesting text = first :: others) :
    piecesFrom separator nesting first = [first] ∧
      ∀ piece ∈ others, piece.pieces separator = [piece] := by
  induction text generalizing nesting first others with
  | nil =>
      cases found
      exact ⟨rfl, by simp⟩
  | cons character rest induction =>
      by_cases cut : nesting.cutsAt separator character = true
      · rw [piecesFrom_cons_of_cut cut] at found
        obtain ⟨rfl, later⟩ := List.cons_eq_cons.mp found
        refine ⟨rfl, ?_⟩
        -- A cut is only made outside all contexts, which is where the next piece starts.
        obtain ⟨rfl, _, _⟩ := Nesting.cutsAt_iff.mp cut
        cases others with
        | nil => simp
        | cons second others =>
            obtain ⟨secondWhole, othersWhole⟩ := induction later
            exact List.forall_mem_cons.mpr ⟨secondWhole, othersWhole⟩
      · rw [piecesFrom_cons_of_keep cut] at found
        cases later : piecesFrom separator (nesting.step character) rest with
        | nil => exact absurd later (piecesFrom_ne_nil _ _ _)
        | cons tail others' =>
            rw [later] at found
            obtain ⟨rfl, rfl⟩ := List.cons_eq_cons.mp found
            obtain ⟨tailWhole, othersWhole⟩ := induction later
            refine ⟨?_, othersWhole⟩
            rw [piecesFrom_cons_of_keep cut, tailWhole]
            rfl

theorem pieces_eq_singleton_of_mem {separator : Char} {text piece : Text}
    (member : piece ∈ text.pieces separator) : piece.pieces separator = [piece] := by
  cases found : text.pieces separator with
  | nil => exact absurd found (pieces_ne_nil _ _)
  | cons first others =>
      obtain ⟨firstWhole, othersWhole⟩ := piecesFrom_eq_cons found
      rw [found] at member
      rcases List.mem_cons.mp member with rfl | later
      · exact firstWhole
      · exact othersWhole piece later

theorem intercalate_pieces (separator : Char) (text : Text) :
    [separator].intercalate (text.pieces separator) = text :=
  intercalate_piecesFrom separator .outside text

end Text

namespace Modifier

theorem cut?_eq_some_iff {token head : Text} {modifier : Option Text} :
    cut? token = some (head, modifier) ↔ token.pieces '/' = head :: modifier.toList := by
  unfold cut?
  split
  next only pieces =>
    rw [pieces]
    cases modifier <;> simp
  next first second pieces =>
    rw [pieces]
    cases modifier <;> simp
  next notOne notTwo =>
    constructor
    · intro found
      exact absurd found (by simp)
    · intro pieces
      cases modifier with
      | none => exact absurd pieces (notOne head)
      | some text => exact absurd pieces (notTwo head text)

theorem eq_of_cut?_eq_some {token head : Text} {modifier : Option Text}
    (cut : cut? token = some (head, modifier)) :
    token = head ++ (modifier.map ('/' :: ·)).getD [] := by
  have joined := Text.intercalate_pieces '/' token
  rw [cut?_eq_some_iff.mp cut] at joined
  cases modifier with
  | none => simpa using joined.symm
  | some text => simpa using joined.symm

end Modifier

end UtilityClass
