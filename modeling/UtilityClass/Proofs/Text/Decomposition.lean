import UtilityClass.Proofs.Text.Pieces

/-!
# The decomposition at a separator

A text can be taken apart at a separator in one way only, if every part but
the last closes what it opens and no part holds a separator outside its own
brackets and quotes.  These parts are the pieces of the text.
-/

namespace UtilityClass.Text

/-- In a text read on from `nesting`, no separator stands outside all contexts
without a backslash before it. -/
def Uncut (separator : Char) (nesting : Nesting) (text : Text) : Prop :=
  ∀ front rest, text = front ++ separator :: rest → nesting.after front ≠ .outside

/-- Parts that make up a text, with a separator between any two of them.  Each
part is read on its own, from outside all contexts. -/
structure Decomposes (separator : Char) (text : Text) (parts : List Text) : Prop where
  nonempty : parts ≠ []
  joined : [separator].intercalate parts = text
  closed : ∀ part ∈ parts.dropLast, Nesting.outside.after part = .outside
  uncut : ∀ part ∈ parts, part.Uncut separator .outside

theorem uncut_cons_iff {separator character : Char} {nesting : Nesting} {rest : Text} :
    Uncut separator nesting (character :: rest) ↔
      (character = separator → nesting ≠ .outside) ∧
        Uncut separator (nesting.step character) rest := by
  constructor
  · intro uncut
    constructor
    · rintro rfl
      exact uncut [] rest rfl
    · intro front after split
      apply uncut (character :: front) after
      rw [split]
      rfl
  · rintro ⟨here, later⟩ front after split
    cases front with
    | nil =>
        obtain ⟨same, _⟩ := List.cons_eq_cons.mp split
        exact here same
    | cons first front =>
        obtain ⟨rfl, restSplit⟩ := List.cons_eq_cons.mp split
        exact later front after restSplit

theorem uncut_append_iff {separator : Char} {nesting : Nesting} {first second : Text} :
    Uncut separator nesting (first ++ second) ↔
      first.Uncut separator nesting ∧ second.Uncut separator (nesting.after first) := by
  induction first generalizing nesting with
  | nil => simp [Uncut]
  | cons character first induction =>
      rw [List.cons_append, uncut_cons_iff, uncut_cons_iff, induction, and_assoc]
      rfl

theorem not_cutsAt_iff {separator character : Char} {nesting : Nesting}
    (plain : separator ≠ '\\') :
    ¬nesting.cutsAt separator character = true ↔
      (character = separator → nesting ≠ .outside) := by
  rw [Nesting.cutsAt_iff]
  constructor
  · intro noCut same outside
    apply noCut
    exact ⟨outside, same, same ▸ plain⟩
  · rintro uncut ⟨outside, same, _⟩
    exact uncut same outside

/-- Up to the separator after a closed and uncut part, only that part is read. -/
theorem piecesFrom_append_cons {separator : Char} (plain : separator ≠ '\\')
    {nesting : Nesting} {first : Text} (uncut : first.Uncut separator nesting)
    (closed : nesting.after first = .outside) (rest : Text) :
    piecesFrom separator nesting (first ++ separator :: rest) =
      first :: rest.pieces separator := by
  induction first generalizing nesting with
  | nil =>
      obtain rfl : nesting = .outside := closed
      apply piecesFrom_cons_of_cut
      exact Nesting.cutsAt_iff.mpr ⟨rfl, rfl, plain⟩
  | cons character first induction =>
      obtain ⟨here, later⟩ := uncut_cons_iff.mp uncut
      rw [List.cons_append, piecesFrom_cons_of_keep ((not_cutsAt_iff plain).mpr here),
        induction later closed]
      rfl

theorem piecesFrom_eq_singleton_iff {separator : Char} (plain : separator ≠ '\\')
    {nesting : Nesting} {text : Text} :
    piecesFrom separator nesting text = [text] ↔ text.Uncut separator nesting := by
  induction text generalizing nesting with
  | nil => simp [piecesFrom, Uncut]
  | cons character rest induction =>
      rw [uncut_cons_iff, ← not_cutsAt_iff plain, ← induction]
      by_cases cut : nesting.cutsAt separator character = true
      · simp [piecesFrom_cons_of_cut cut, cut]
      · rw [piecesFrom_cons_of_keep cut]
        cases later : piecesFrom separator (nesting.step character) rest with
        | nil => exact absurd later (piecesFrom_ne_nil _ _ _)
        | cons first others => simp [cut]

theorem pieces_eq_singleton_iff {separator : Char} (plain : separator ≠ '\\') {text : Text} :
    text.pieces separator = [text] ↔ text.Uncut separator .outside :=
  piecesFrom_eq_singleton_iff plain

theorem forall_mem_dropLast_cons_iff {holds : Text → Prop} {first : Text} {others : List Text} :
    (∀ part ∈ (first :: others).dropLast, holds part) ↔
      (others ≠ [] → holds first) ∧ ∀ part ∈ others.dropLast, holds part := by
  cases others with
  | nil => simp
  | cons second others => simp [List.dropLast_cons_cons]

theorem closed_of_piecesFrom_eq_cons {separator : Char} {nesting : Nesting} {text first : Text}
    {others : List Text} (found : piecesFrom separator nesting text = first :: others) :
    (others ≠ [] → nesting.after first = .outside) ∧
      ∀ part ∈ others.dropLast, Nesting.outside.after part = .outside := by
  induction text generalizing nesting first others with
  | nil =>
      cases found
      simp
  | cons character rest induction =>
      by_cases cut : nesting.cutsAt separator character = true
      · rw [piecesFrom_cons_of_cut cut] at found
        obtain ⟨rfl, later⟩ := List.cons_eq_cons.mp found
        obtain ⟨rfl, _, _⟩ := Nesting.cutsAt_iff.mp cut
        refine ⟨fun _ => rfl, ?_⟩
        cases others with
        | nil => simp
        | cons second others => exact forall_mem_dropLast_cons_iff.mpr (induction later)
      · rw [piecesFrom_cons_of_keep cut] at found
        cases later : piecesFrom separator (nesting.step character) rest with
        | nil => exact absurd later (piecesFrom_ne_nil _ _ _)
        | cons tail others' =>
            rw [later] at found
            obtain ⟨rfl, rfl⟩ := List.cons_eq_cons.mp found
            rw [Nesting.after_cons]
            exact induction later

theorem closed_of_mem_dropLast_pieces {separator : Char} {text : Text} :
    ∀ part ∈ (text.pieces separator).dropLast, Nesting.outside.after part = .outside := by
  cases found : text.pieces separator with
  | nil => exact absurd found (pieces_ne_nil _ _)
  | cons first others =>
      exact forall_mem_dropLast_cons_iff.mpr (closed_of_piecesFrom_eq_cons found)

theorem decomposes_pieces {separator : Char} (plain : separator ≠ '\\') (text : Text) :
    Decomposes separator text (text.pieces separator) where
  nonempty := pieces_ne_nil separator text
  joined := intercalate_pieces separator text
  closed := closed_of_mem_dropLast_pieces
  uncut := fun _ member =>
    (pieces_eq_singleton_iff plain).mp (pieces_eq_singleton_of_mem member)

theorem Decomposes.eq_pieces {separator : Char} (plain : separator ≠ '\\') {text : Text}
    {parts : List Text} (decomposes : Decomposes separator text parts) :
    parts = text.pieces separator := by
  induction parts generalizing text with
  | nil => exact absurd rfl decomposes.nonempty
  | cons first others induction =>
      have firstUncut := decomposes.uncut first List.mem_cons_self
      cases others with
      | nil =>
          obtain rfl : first = text := by simpa using decomposes.joined
          exact ((pieces_eq_singleton_iff plain).mpr firstUncut).symm
      | cons second others =>
          let rest := [separator].intercalate (second :: others)
          have text_eq : text = first ++ separator :: rest := by
            rw [← decomposes.joined]
            simp [rest]
          have restDecomposes : Decomposes separator rest (second :: others) := by
            refine ⟨List.cons_ne_nil _ _, rfl, ?_, ?_⟩
            · intro part member
              apply decomposes.closed
              exact List.mem_cons_of_mem first member
            · intro part member
              apply decomposes.uncut
              exact List.mem_cons_of_mem first member
          have firstClosed : Nesting.outside.after first = .outside :=
            decomposes.closed first List.mem_cons_self
          rw [text_eq, induction restDecomposes]
          exact (piecesFrom_append_cons plain firstUncut firstClosed rest).symm

theorem piecesFrom_backslash (nesting : Nesting) (text : Text) :
    piecesFrom '\\' nesting text = [text] := by
  induction text generalizing nesting with
  | nil => rfl
  | cons character rest induction =>
      have keep : ¬nesting.cutsAt '\\' character = true := by
        rw [Nesting.cutsAt_iff]
        rintro ⟨_, same, different⟩
        exact different same
      rw [piecesFrom_cons_of_keep keep, induction]
      rfl

/-- The pieces of a text are its only decomposition.  Where the separator is a
backslash the text is in one piece. -/
theorem decomposes_iff_eq_pieces (separator : Char) (text : Text) :
    (separator ≠ '\\' → ∀ parts,
        Decomposes separator text parts ↔ parts = text.pieces separator) ∧
      text.pieces '\\' = [text] := by
  constructor
  · intro plain parts
    constructor
    · exact Decomposes.eq_pieces plain
    · rintro rfl
      exact decomposes_pieces plain text
  · exact piecesFrom_backslash .outside text

/-- Three parts around colons: one with a colon in brackets that a parenthesis
does not close, one with an escaped colon, and one that is never closed. -/
theorem decomposes_iff_eq_pieces_colons :
    ':' ≠ '\\' ∧
      Decomposes ':' "[a):b]:\\:c]:'d:e".toList
        ["[a):b]".toList, "\\:c]".toList, "'d:e".toList] := by
  have plain : ':' ≠ '\\' := by decide
  refine ⟨plain, ?_⟩
  apply ((decomposes_iff_eq_pieces ':' "[a):b]:\\:c]:'d:e".toList).1 plain _).mpr
  rfl

end UtilityClass.Text
