/-!
# Texts

A text is the list of its characters.  This file holds the few cuts that the
grammar of class names needs: taking one mark off an end, and splitting at the
first or the last occurrence of a mark.  Each cut is stated so that joining
the parts around the mark gives the text back.
-/

namespace UtilityClass

/-- A text is the list of its characters, first to last. -/
abbrev Text := List Char

namespace Text

/-- The rest of a text that starts with `mark`. -/
def withoutFirst (mark : Char) : Text → Option Text
  | [] => none
  | character :: rest => if character = mark then some rest else none

/-- The text before a final `mark`. -/
def withoutFinal (mark : Char) (text : Text) : Option Text :=
  if text.getLast? = some mark then some text.dropLast else none

/-- The contents of a text written between `[` and `]`. -/
def bracketed? (text : Text) : Option Text :=
  (text.withoutFirst '[').bind (withoutFinal ']')

/-- A text written between `[` and `]`. -/
def inBrackets (text : Text) : Text :=
  '[' :: (text ++ [']'])

/-- The parts before and after the first `mark`. -/
def cutAtFirst (mark : Char) : Text → Option (Text × Text)
  | [] => none
  | character :: rest =>
    if character = mark then some ([], rest)
    else (cutAtFirst mark rest).map fun cut => (character :: cut.1, cut.2)

/-- The part after the last `mark`, or the whole text when there is none. -/
def afterLast (mark : Char) (text : Text) : Text :=
  (text.reverse.takeWhile (· ≠ mark)).reverse

theorem withoutFirst_eq_some_iff {mark : Char} {text rest : Text} :
    text.withoutFirst mark = some rest ↔ text = mark :: rest := by
  cases text with
  | nil => simp [withoutFirst]
  | cons character tail =>
    by_cases same : character = mark <;> simp [withoutFirst, same]

theorem withoutFinal_eq_some_iff {mark : Char} {text front : Text} :
    text.withoutFinal mark = some front ↔ text = front ++ [mark] := by
  unfold withoutFinal
  constructor
  · intro found
    split at found
    next last =>
      obtain ⟨front', rfl⟩ := List.getLast?_eq_some_iff.mp last
      simpa using found
    next => simp at found
  · rintro rfl
    simp

theorem withoutFirst_eq_none_iff {mark : Char} {text : Text} :
    text.withoutFirst mark = none ↔ text.head? ≠ some mark := by
  cases text with
  | nil => simp [withoutFirst]
  | cons character tail =>
    by_cases same : character = mark <;> simp [withoutFirst, same]

theorem withoutFinal_eq_none_iff {mark : Char} {text : Text} :
    text.withoutFinal mark = none ↔ text.getLast? ≠ some mark := by
  simp [withoutFinal]

theorem bracketed?_eq_some_iff {text inner : Text} :
    text.bracketed? = some inner ↔ text = '[' :: (inner ++ [']']) := by
  simp only [bracketed?, Option.bind_eq_some_iff, withoutFirst_eq_some_iff,
    withoutFinal_eq_some_iff]
  constructor
  · rintro ⟨rest, rfl, rfl⟩
    rfl
  · rintro rfl
    exact ⟨_, rfl, rfl⟩

theorem bracketed?_eq_none {text : Text} (first : text.head? ≠ some '[') :
    text.bracketed? = none := by
  simp [bracketed?, withoutFirst_eq_none_iff.mpr first]

theorem cutAtFirst_eq_some {mark : Char} {text front rest : Text}
    (found : text.cutAtFirst mark = some (front, rest)) :
    text = front ++ mark :: rest ∧ mark ∉ front := by
  induction text generalizing front with
  | nil => simp [cutAtFirst] at found
  | cons character tail induction =>
    by_cases same : character = mark
    · simp only [cutAtFirst, same, if_true, Option.some.injEq, Prod.mk.injEq] at found
      obtain ⟨rfl, rfl⟩ := found
      simp [same]
    · simp only [cutAtFirst, same, if_false, Option.map_eq_some_iff] at found
      obtain ⟨⟨front', rest'⟩, inner, parts⟩ := found
      simp only [Prod.mk.injEq] at parts
      obtain ⟨rfl, rfl⟩ := parts
      obtain ⟨rfl, absent⟩ := induction inner
      simp [absent, Ne.symm same]

end Text

end UtilityClass
