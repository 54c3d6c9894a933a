import Mathlib.Data.List.Find
import UtilityClass.Proofs.Text.Pieces
import UtilityClass.Proofs.Text.Root

/-!
# Parts of a text

Whatever a reader cuts out of a text is a contiguous part of it: a piece, a
root, a value, what is left without a mark, or what stands behind the last one.
-/

namespace UtilityClass

namespace Text

theorem infix_intercalate_of_mem {separator part : Text} {parts : List Text}
    (member : part ∈ parts) : part <:+: separator.intercalate parts := by
  induction parts with
  | nil => exact absurd member List.not_mem_nil
  | cons first others induction =>
      cases others with
      | nil =>
          obtain rfl := List.mem_singleton.mp member
          simp
      | cons second others =>
          rw [List.intercalate_cons_cons]
          rcases List.mem_cons.mp member with rfl | later
          · exact ((List.prefix_append _ _).trans (List.prefix_append _ _)).isInfix
          · exact (induction later).trans (List.suffix_append _ _).isInfix

theorem infix_of_mem_pieces {separator : Char} {text piece : Text}
    (member : piece ∈ text.pieces separator) : piece <:+: text := by
  have inJoined : piece <:+: [separator].intercalate (text.pieces separator) :=
    infix_intercalate_of_mem member
  rw [intercalate_pieces] at inJoined
  exact inJoined

theorem infix_before_dash (front rest : Text) : front <:+: front ++ '-' :: rest :=
  (List.prefix_append front _).isInfix

theorem suffix_after_dash (front rest : Text) : rest <:+ front ++ '-' :: rest :=
  (List.suffix_cons '-' rest).trans (List.suffix_append front _)

variable {known other : Text → Bool} {text root : Text}

/-- The search for a root tries parts of the text only.  The root `@` is tried
in a text that starts with it. -/
theorem longestRoot?_congr (agree : ∀ part, part <:+: text → known part = other part) :
    text.longestRoot? known = text.longestRoot? other := by
  have whole : known text = other text := agree text List.infix_rfl
  have atSign : text.atRoot? known = text.atRoot? other := by
    cases text with
    | nil => rfl
    | cons character rest =>
        by_cases starts : character = '@'
        · have inText : ['@'] <:+: character :: rest := by
            rw [starts]
            exact (List.prefix_append ['@'] rest).isInfix
          simp only [atRoot?, agree ['@'] inText]
        · simp only [atRoot?, starts, false_and, if_false]
  have cuts : (text.rootCuts.find? fun cut => known cut.1) =
      text.rootCuts.find? fun cut => other cut.1 := by
    apply List.find?_congr
    intro cut member
    obtain ⟨split, _⟩ := mem_rootCuts_iff.mp member
    apply agree
    rw [split]
    exact infix_before_dash cut.1 cut.2
  unfold longestRoot?
  rw [whole, atSign, cuts]

theorem root_infix_of_longestRoot?_eq_some {value : Option Text}
    (found : text.longestRoot? known = some (root, value)) : root <:+: text := by
  cases value with
  | none =>
      obtain ⟨_, rfl⟩ := longestRoot?_eq_some_none_iff.mp found
      exact List.infix_rfl
  | some value =>
      rcases (longestRoot?_eq_some_some_iff.mp found).2 with ⟨longest, _⟩ | atRoot
      · rw [longest.split]
        exact infix_before_dash root value
      · rw [atRoot.root_eq, atRoot.split]
        exact (List.prefix_append ['@'] value).isInfix

theorem value_suffix_of_longestRoot?_eq_some {value : Text}
    (found : text.longestRoot? known = some (root, some value)) : value <:+ text := by
  rcases (longestRoot?_eq_some_some_iff.mp found).2 with ⟨longest, _⟩ | atRoot
  · rw [longest.split]
    exact suffix_after_dash root value
  · rw [atRoot.split]
    exact List.suffix_cons '@' value

theorem value_infix_of_longestRoot?_eq_some {value : Text}
    (found : text.longestRoot? known = some (root, some value)) : value <:+: text :=
  (value_suffix_of_longestRoot?_eq_some found).isInfix

theorem infix_of_withoutFirst {mark : Char} {rest : Text}
    (found : text.withoutFirst mark = some rest) : rest <:+: text := by
  rw [withoutFirst_eq_some_iff.mp found]
  exact (List.suffix_cons mark rest).isInfix

theorem infix_of_withoutFinal {mark : Char} {front : Text}
    (found : text.withoutFinal mark = some front) : front <:+: text := by
  rw [withoutFinal_eq_some_iff.mp found]
  exact (List.prefix_append front [mark]).isInfix

/-- What stands behind the last mark of a text, or the text if it has none. -/
structure LastPart (mark : Char) (text part : Text) : Prop where
  free : mark ∉ part
  split : text = part ∨ ∃ front, text = front ++ mark :: part

theorem lastPart_afterLast (mark : Char) (text : Text) :
    LastPart mark text (text.afterLast mark) := by
  let kept := text.reverse.takeWhile (· ≠ mark)
  have free : mark ∉ kept := by
    intro member
    have passes := List.all_eq_true.mp List.all_takeWhile mark member
    exact absurd passes (by simp)
  have joined : kept ++ text.reverse.dropWhile (· ≠ mark) = text.reverse :=
    List.takeWhile_append_dropWhile
  refine ⟨fun member => free (List.mem_reverse.mp member), ?_⟩
  cases dropped : text.reverse.dropWhile (· ≠ mark) with
  | nil =>
      rw [dropped, List.append_nil] at joined
      have whole : text = kept.reverse := by simpa using (congrArg List.reverse joined).symm
      exact .inl whole
  | cons character before =>
      have fails := List.head?_dropWhile_not (· ≠ mark) text.reverse
      rw [dropped] at joined fails
      obtain rfl : character = mark := by simpa using fails
      have whole : text = before.reverse ++ character :: kept.reverse := by
        simpa using (congrArg List.reverse joined).symm
      exact .inr ⟨before.reverse, whole⟩

theorem LastPart.suffix {mark : Char} {text part : Text} (last : LastPart mark text part) :
    part <:+ text := by
  rcases last.split with rfl | ⟨front, rfl⟩
  · exact List.suffix_rfl
  · exact (List.suffix_cons mark part).trans (List.suffix_append front _)

theorem infix_inBrackets (raw : Text) : raw <:+: raw.inBrackets :=
  ⟨['['], [']'], rfl⟩

theorem infix_behind_slash (raw : Text) : raw <:+: '/' :: raw.inBrackets :=
  (infix_inBrackets raw).trans (List.suffix_cons '/' _).isInfix

end Text

theorem Modifier.infix_of_cut?_eq_some {token head : Text} {modifier : Option Text}
    (cut : cut? token = some (head, modifier)) : head <:+: token := by
  rw [eq_of_cut?_eq_some cut]
  exact (List.prefix_append head _).isInfix

end UtilityClass
