import UtilityClass.Proofs.Text.Root

/-!
# When a text has no root

The search for a root has three answers.  Together with the two that name a
root, a condition for the third one describes the search completely.  One part
of a text is not always tried: the empty one in front of a leading dash counts
only if that dash is the last one.
-/

namespace UtilityClass.Text

/-- A text is not known, and neither is any part of it that would be tried as
its root. -/
structure Rootless (known : Text → Bool) (text : Text) : Prop where
  unknown : known text = false
  noRoot : ∀ front rest, text = front ++ '-' :: rest → front ≠ [] ∨ '-' ∉ rest →
    known front = false
  noAtRoot : ¬('-' ∉ text ∧ text.head? = some '@' ∧ known ['@'] = true)

variable {known : Text → Bool} {text : Text}

theorem atRoot?_eq_none_iff :
    atRoot? known text = none ↔ ¬(text.head? = some '@' ∧ known ['@'] = true) := by
  cases text with
  | nil => simp [atRoot?]
  | cons character rest => simp [atRoot?]

theorem find?_rootCuts_eq_none_iff :
    (text.rootCuts.find? fun cut => known cut.1) = none ↔
      ∀ front rest, text = front ++ '-' :: rest → front ≠ [] ∨ '-' ∉ rest →
        known front = false := by
  rw [List.find?_eq_none]
  constructor
  · intro noneKnown front rest split tried
    simpa using noneKnown (front, rest) (mem_rootCuts_iff.mpr ⟨split, tried⟩)
  · intro unknown cut member
    obtain ⟨split, tried⟩ := mem_rootCuts_iff.mp member
    simp [unknown cut.1 cut.2 split tried]

theorem longestRoot?_eq_none_iff : longestRoot? known text = none ↔ Rootless known text := by
  cases whole : known text with
  | true =>
      rw [longestRoot?_of_known whole]
      constructor
      · intro absent
        cases absent
      · intro rootless
        exact absurd whole (by simp [rootless.unknown])
  | false =>
      by_cases present : '-' ∈ text
      · rw [longestRoot?_of_dash whole present, Option.map_eq_none_iff,
          find?_rootCuts_eq_none_iff]
        constructor
        · intro noRoot
          exact ⟨whole, noRoot, fun atRoot => atRoot.1 present⟩
        · intro rootless
          exact rootless.noRoot
      · rw [longestRoot?_of_noDash whole present, atRoot?_eq_none_iff]
        constructor
        · intro noAtRoot
          refine ⟨whole, ?_, fun atRoot => noAtRoot atRoot.2⟩
          intro front rest split
          exact absurd (by simp [split]) present
        · intro rootless atRoot
          exact rootless.noAtRoot ⟨present, atRoot⟩

theorem longestRoot?_eq_some_nil_iff {root : Text} :
    text.longestRoot? known = some (root, some []) ↔
      text = root ++ ['-'] ∧ known root = true ∧ known text = false := by
  rw [longestRoot?_eq_some_some_iff]
  constructor
  · intro ⟨unknown, either⟩
    rcases either with ⟨longest, _⟩ | atRoot
    · exact ⟨longest.split, longest.isKnown, unknown⟩
    · -- Nothing behind the root `@` would be the whole text, which is tried before.
      have isKnown := atRoot.isKnown
      rw [← atRoot.split, unknown] at isKnown
      cases isKnown
  · intro ⟨split, isKnown, unknown⟩
    refine ⟨unknown, .inl ⟨⟨split, isKnown, ?_⟩, .inr List.not_mem_nil⟩⟩
    intro front rest otherSplit longer
    have lengths := congrArg List.length (split.symm.trans otherSplit)
    simp only [List.length_append, List.length_cons, List.length_nil] at lengths
    omega

/-- Each answer of the search is a condition on the text and on what is known. -/
theorem root_search_is_exact (known : Text → Bool) (text : Text) :
    (∀ root, text.longestRoot? known = some (root, none) ↔ known text = true ∧ root = text) ∧
      (∀ root value, text.longestRoot? known = some (root, some value) ↔
        known text = false ∧
          ((LongestRoot known text root value ∧ (root ≠ [] ∨ '-' ∉ value)) ∨
            AtRoot known text root value)) ∧
      (text.longestRoot? known = none ↔ Rootless known text) := by
  refine ⟨?_, ?_, longestRoot?_eq_none_iff⟩
  · intro root
    exact longestRoot?_eq_some_none_iff
  · intro root value
    exact longestRoot?_eq_some_some_iff

section LeadingDash

variable {rest : Text}

theorem leading_or_later_dash {front behind : Text}
    (split : '-' :: rest = front ++ '-' :: behind) :
    (front = [] ∧ behind = rest) ∨ (front ≠ [] ∧ '-' ∈ rest) := by
  cases front with
  | nil =>
      obtain ⟨_, rfl⟩ := List.cons_eq_cons.mp split
      exact .inl ⟨rfl, rfl⟩
  | cons character front =>
      obtain ⟨_, rfl⟩ := List.cons_eq_cons.mp split
      exact .inr ⟨List.cons_ne_nil _ _, by simp⟩

theorem longestRoot?_leading_dash_eq_some_iff (isKnown : known [] = true) :
    longestRoot? known ('-' :: rest) = some ([], some rest) ↔
      known ('-' :: rest) = false ∧ '-' ∉ rest := by
  rw [longestRoot?_eq_some_some_iff]
  constructor
  · intro ⟨unknown, either⟩
    rcases either with ⟨_, tried⟩ | atRoot
    · exact ⟨unknown, tried.resolve_left (by simp)⟩
    · exact absurd atRoot.root_eq (by simp)
  · intro ⟨unknown, onlyDash⟩
    refine ⟨unknown, .inl ⟨⟨rfl, isKnown, ?_⟩, .inr onlyDash⟩⟩
    intro front behind split longer
    rcases leading_or_later_dash split with ⟨rfl, _⟩ | ⟨_, otherDash⟩
    · exact absurd longer (Nat.lt_irrefl _)
    · exact absurd otherDash onlyDash

theorem longestRoot?_leading_dash_eq_none_iff (isKnown : known [] = true) :
    longestRoot? known ('-' :: rest) = none ↔
      known ('-' :: rest) = false ∧ '-' ∈ rest ∧
        ∀ front behind, front ≠ [] → '-' :: rest = front ++ '-' :: behind →
          known front = false := by
  rw [longestRoot?_eq_none_iff]
  constructor
  · intro rootless
    refine ⟨rootless.unknown, ?_, ?_⟩
    · by_cases otherDash : '-' ∈ rest
      · exact otherDash
      · have unknownEmpty := rootless.noRoot [] rest rfl (.inr otherDash)
        rw [isKnown] at unknownEmpty
        cases unknownEmpty
    · intro front behind nonempty split
      exact rootless.noRoot front behind split (.inl nonempty)
  · intro ⟨unknown, otherDash, noRoot⟩
    refine ⟨unknown, ?_, fun atRoot => atRoot.1 List.mem_cons_self⟩
    intro front behind split tried
    rcases leading_or_later_dash split with ⟨rfl, rfl⟩ | ⟨nonempty, _⟩
    · exact absurd otherDash (tried.resolve_left (by simp))
    · exact noRoot front behind nonempty split

/-- The known empty root in front of a leading dash is found if the dash is the
only one.  In front of more dashes it is not tried, and then there is no root if
nothing longer is known. -/
theorem empty_root_is_tried_at_the_last_dash (isKnown : known [] = true) (rest : Text) :
    (longestRoot? known ('-' :: rest) = some ([], some rest) ↔
        known ('-' :: rest) = false ∧ '-' ∉ rest) ∧
      (longestRoot? known ('-' :: rest) = none ↔
        known ('-' :: rest) = false ∧ '-' ∈ rest ∧
          ∀ front behind, front ≠ [] → '-' :: rest = front ++ '-' :: behind →
            known front = false) := by
  constructor
  · exact longestRoot?_leading_dash_eq_some_iff isKnown
  · exact longestRoot?_leading_dash_eq_none_iff isKnown

/-- One dash and two dashes in front of a word, with only the empty root known. -/
theorem empty_root_is_tried_at_the_last_dash_words :
    let known : Text → Bool := fun name => name.isEmpty
    known [] = true ∧
      longestRoot? known "-foo".toList = some ([], some "foo".toList) ∧
      longestRoot? known "--foo".toList = none := by
  intro known
  have isKnown : known [] = true := rfl
  have oneDash := (empty_root_is_tried_at_the_last_dash isKnown "foo".toList).1
  have twoDashes := (empty_root_is_tried_at_the_last_dash isKnown "-foo".toList).2
  refine ⟨isKnown, oneDash.mpr ⟨rfl, by decide⟩, twoDashes.mpr ⟨rfl, by decide, ?_⟩⟩
  intro front behind nonempty _
  simpa [known] using nonempty

/-- A leading dash and a known empty root do not always give a root. -/
theorem leading_dash_can_have_no_root :
    ¬∀ (known : Text → Bool) (text : Text), text.head? = some '-' → known [] = true →
      (longestRoot? known text).isSome = true := by
  intro always
  have found := always (fun name => name.isEmpty) "--foo".toList rfl rfl
  exact absurd found (by decide)

end LeadingDash

end UtilityClass.Text
