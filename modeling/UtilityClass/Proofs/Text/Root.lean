import UtilityClass.Text.Root

/-!
# What the longest known root is

The dash cuts of a text are listed from the longest first part to the
shortest, so the first one that is known is the longest known one.  This file
turns the search for a root into a condition on the text alone, in which no
list of cuts occurs.
-/

namespace UtilityClass.Text

theorem find?_eq_some_iff_largest {α : Type} {test : α → Bool} {measure : α → Nat}
    {list : List α} (decreasing : list.Pairwise fun first second => measure second < measure first)
    {found : α} :
    list.find? test = some found ↔
      test found = true ∧ found ∈ list ∧
        ∀ other ∈ list, measure found < measure other → test other = false := by
  rw [List.find?_eq_some_iff_append]
  constructor
  · intro ⟨passes, before, after, split, fail⟩
    subst split
    refine ⟨passes, by simp, ?_⟩
    intro other member larger
    obtain ⟨_, tailDecreasing, _⟩ := List.pairwise_append.mp decreasing
    have smallerAfter := (List.pairwise_cons.mp tailDecreasing).1
    rcases List.mem_append.mp member with inBefore | inTail
    · simpa using fail other inBefore
    · rcases List.mem_cons.mp inTail with rfl | inAfter
      · exact absurd larger (Nat.lt_irrefl _)
      · exact absurd larger (Nat.not_lt.mpr (Nat.le_of_lt (smallerAfter other inAfter)))
  · intro ⟨passes, member, largerFail⟩
    obtain ⟨before, after, rfl⟩ := List.append_of_mem member
    refine ⟨passes, before, after, rfl, ?_⟩
    intro other inBefore
    obtain ⟨_, _, across⟩ := List.pairwise_append.mp decreasing
    have larger : measure found < measure other := across other inBefore found (by simp)
    simp [largerFail other (by simp [inBefore]) larger]

theorem mem_dashCuts_iff {text : Text} {cut : Text × Text} :
    cut ∈ text.dashCuts ↔ text = cut.1 ++ '-' :: cut.2 := by
  constructor
  · exact eq_of_mem_dashCuts
  · intro split
    rw [split]
    exact mem_dashCuts cut.1 cut.2

theorem dashCuts_decreasing (text : Text) :
    text.dashCuts.Pairwise fun first second => second.1.length < first.1.length := by
  induction text with
  | nil => exact .nil
  | cons character rest induction =>
      apply List.pairwise_append.mpr
      refine ⟨?_, ?_, ?_⟩
      · apply List.pairwise_map.mpr
        apply induction.imp
        intro first second shorter
        simpa using shorter
      · split
        · exact List.pairwise_singleton _ _
        · exact .nil
      · intro first inFirst second inSecond
        obtain ⟨inner, _, rfl⟩ := List.mem_map.mp inFirst
        split at inSecond
        · obtain rfl := List.mem_singleton.mp inSecond
          simp
        · exact absurd inSecond List.not_mem_nil

theorem rootCuts_sublist (text : Text) : text.rootCuts.Sublist text.dashCuts := by
  unfold rootCuts
  cases text.dashCuts with
  | nil => exact .slnil
  | cons longest shorter => exact (List.filter_sublist).cons_cons longest

theorem rootCuts_decreasing (text : Text) :
    text.rootCuts.Pairwise fun first second => second.1.length < first.1.length :=
  (dashCuts_decreasing text).sublist (rootCuts_sublist text)

theorem dash_not_mem_of_dashCuts_eq_cons {text : Text} {longest : Text × Text}
    {shorter : List (Text × Text)} (cuts : text.dashCuts = longest :: shorter) :
    '-' ∉ longest.2 := by
  intro member
  obtain ⟨front, rest, split⟩ := List.append_of_mem member
  have longestSplit : text = longest.1 ++ '-' :: longest.2 :=
    mem_dashCuts_iff.mp (by simp [cuts])
  have longerMember : (longest.1 ++ '-' :: front, rest) ∈ text.dashCuts :=
    mem_dashCuts_iff.mpr (by simp [longestSplit, split])
  have decreasing := dashCuts_decreasing text
  rw [cuts] at longerMember decreasing
  rcases List.mem_cons.mp longerMember with same | later
  · have lengths := congrArg (fun cut => cut.1.length) same
    simp at lengths
  · have lengths := (List.pairwise_cons.mp decreasing).1 _ later
    simp only [List.length_append, List.length_cons] at lengths
    omega

/-- The cut that leaves nothing before the dash is tried only at the last dash. -/
theorem mem_rootCuts_iff {text front rest : Text} :
    (front, rest) ∈ text.rootCuts ↔
      text = front ++ '-' :: rest ∧ (front ≠ [] ∨ '-' ∉ rest) := by
  unfold rootCuts
  cases cuts : text.dashCuts with
  | nil =>
      have absent : '-' ∉ text := dashCuts_eq_nil_iff.mp cuts
      constructor
      · intro member
        exact absurd member List.not_mem_nil
      · intro ⟨split, _⟩
        rw [split] at absent
        exact absurd (by simp) absent
  | cons longest shorter =>
      have lastDash := dash_not_mem_of_dashCuts_eq_cons cuts
      simp only [List.mem_cons, List.mem_filter, ne_eq, decide_not, Bool.not_eq_true',
        decide_eq_false_iff_not]
      have member : (front, rest) ∈ text.dashCuts ↔ text = front ++ '-' :: rest :=
        mem_dashCuts_iff
      rw [cuts, List.mem_cons] at member
      constructor
      · intro tried
        rcases tried with rfl | ⟨inShorter, nonempty⟩
        · exact ⟨member.mp (.inl rfl), .inr lastDash⟩
        · exact ⟨member.mp (.inr inShorter), .inl nonempty⟩
      · intro ⟨split, nonemptyOrLast⟩
        rcases nonemptyOrLast with nonempty | lastRest
        · exact (member.mpr split).imp_right fun inShorter => ⟨inShorter, nonempty⟩
        · by_cases empty : front = []
          · -- The first part of the longest cut would hold the dash of this one.
            left
            apply (member.mpr split).resolve_right
            intro inShorter
            have decreasing := dashCuts_decreasing text
            rw [cuts] at decreasing
            have longer := (List.pairwise_cons.mp decreasing).1 _ inShorter
            have longestSplit : text = longest.1 ++ '-' :: longest.2 :=
              mem_dashCuts_iff.mp (by simp [cuts])
            cases first : longest.1 with
            | nil => simp [first] at longer
            | cons character others =>
                rw [split, first, empty] at longestSplit
                obtain ⟨_, rfl⟩ := List.cons_eq_cons.mp longestSplit
                exact lastRest (by simp)
          · exact (member.mpr split).imp_right fun inShorter => ⟨inShorter, empty⟩

/-- A text is a known root, a dash and a value, and nothing longer that a dash
of the text follows is known. -/
structure LongestRoot (known : Text → Bool) (text root value : Text) : Prop where
  split : text = root ++ '-' :: value
  isKnown : known root = true
  longest : ∀ front rest, text = front ++ '-' :: rest →
    root.length < front.length → known front = false

/-- A text without dashes is the root `@` and a value. -/
structure AtRoot (known : Text → Bool) (text root value : Text) : Prop where
  noDash : '-' ∉ text
  root_eq : root = ['@']
  split : text = '@' :: value
  isKnown : known ['@'] = true

theorem find?_rootCuts_eq_some_iff {known : Text → Bool} {text root value : Text} :
    (text.rootCuts.find? fun cut => known cut.1) = some (root, value) ↔
      LongestRoot known text root value ∧ (root ≠ [] ∨ '-' ∉ value) := by
  rw [find?_eq_some_iff_largest (rootCuts_decreasing text), mem_rootCuts_iff]
  constructor
  · intro ⟨isKnown, ⟨split, tried⟩, largest⟩
    refine ⟨⟨split, isKnown, ?_⟩, tried⟩
    intro front rest otherSplit longer
    have nonempty : front ≠ [] := List.ne_nil_of_length_pos (by omega)
    apply largest (front, rest)
    · exact mem_rootCuts_iff.mpr ⟨otherSplit, .inl nonempty⟩
    · exact longer
  · intro ⟨rooted, tried⟩
    refine ⟨rooted.isKnown, ⟨rooted.split, tried⟩, ?_⟩
    intro other member longer
    exact rooted.longest other.1 other.2 (mem_rootCuts_iff.mp member).1 longer

theorem atRoot?_eq_some_iff {known : Text → Bool} {text root : Text} {value : Option Text} :
    atRoot? known text = some (root, value) ↔
      known ['@'] = true ∧ root = ['@'] ∧ ∃ rest, text = '@' :: rest ∧ value = some rest := by
  cases text with
  | nil => simp [atRoot?]
  | cons character rest =>
      by_cases starts : character = '@' <;> by_cases isKnown : known ['@'] = true <;>
        simp [atRoot?, starts, isKnown, eq_comm]

theorem longestRoot?_of_known {known : Text → Bool} {text : Text} (isKnown : known text = true) :
    longestRoot? known text = some (text, none) := by
  rw [longestRoot?, if_pos isKnown]

theorem longestRoot?_of_noDash {known : Text → Bool} {text : Text}
    (unknown : known text = false) (absent : '-' ∉ text) :
    longestRoot? known text = atRoot? known text := by
  have noCut : text.dashCuts = [] := dashCuts_eq_nil_iff.mpr absent
  simp [longestRoot?, unknown, noCut]

theorem longestRoot?_of_dash {known : Text → Bool} {text : Text}
    (unknown : known text = false) (present : '-' ∈ text) :
    longestRoot? known text =
      (text.rootCuts.find? fun cut => known cut.1).map fun cut => (cut.1, some cut.2) := by
  have someCut : text.dashCuts ≠ [] := fun noCut => dashCuts_eq_nil_iff.mp noCut present
  simp [longestRoot?, unknown, someCut]

theorem longestRoot?_eq_some_none_iff {known : Text → Bool} {text root : Text} :
    longestRoot? known text = some (root, none) ↔ known text = true ∧ root = text := by
  cases whole : known text with
  | true => simp [longestRoot?_of_known whole, eq_comm]
  | false =>
      by_cases present : '-' ∈ text
      · simp [longestRoot?_of_dash whole present]
      · simp [longestRoot?_of_noDash whole present, atRoot?_eq_some_iff]

/-- A root with a value is the longest known part before a dash, or `@` where
there is no dash.  The empty root is read only before the only dash. -/
theorem longestRoot?_eq_some_some_iff {known : Text → Bool} {text root value : Text} :
    longestRoot? known text = some (root, some value) ↔
      known text = false ∧
        ((LongestRoot known text root value ∧ (root ≠ [] ∨ '-' ∉ value)) ∨
          AtRoot known text root value) := by
  cases whole : known text with
  | true => simp [longestRoot?_of_known whole]
  | false =>
      by_cases present : '-' ∈ text
      · have asCut : ((text.rootCuts.find? fun cut => known cut.1).map
            fun cut => (cut.1, some cut.2)) = some (root, some value) ↔
              (text.rootCuts.find? fun cut => known cut.1) = some (root, value) := by
          simp [Option.map_eq_some_iff]
        rw [longestRoot?_of_dash whole present, asCut, find?_rootCuts_eq_some_iff]
        constructor
        · intro found
          exact ⟨rfl, .inl found⟩
        · intro ⟨_, either⟩
          rcases either with found | atRoot
          · exact found
          · exact absurd present atRoot.noDash
      · rw [longestRoot?_of_noDash whole present, atRoot?_eq_some_iff]
        constructor
        · intro ⟨isKnown, root_eq, rest, split, same⟩
          obtain rfl := Option.some.inj same
          exact ⟨rfl, .inr ⟨present, root_eq, split, isKnown⟩⟩
        · intro ⟨_, either⟩
          rcases either with ⟨longest, _⟩ | atRoot
          · exact absurd (by simp [longest.split]) present
          · exact ⟨atRoot.isKnown, atRoot.root_eq, value, atRoot.split, rfl⟩

theorem known_of_longestRoot?_eq_some {known : Text → Bool} {text root : Text}
    {value : Option Text} (found : longestRoot? known text = some (root, value)) :
    known root = true := by
  cases value with
  | none =>
      obtain ⟨isKnown, rfl⟩ := longestRoot?_eq_some_none_iff.mp found
      exact isKnown
  | some value =>
      obtain ⟨_, ⟨longest, _⟩ | atRoot⟩ := longestRoot?_eq_some_some_iff.mp found
      · exact longest.isKnown
      · rw [atRoot.root_eq]
        exact atRoot.isKnown

theorem length_lt_of_longestRoot?_eq_some {known : Text → Bool} {text root value : Text}
    (found : longestRoot? known text = some (root, some value)) :
    value.length < text.length := by
  obtain ⟨_, ⟨longest, _⟩ | atRoot⟩ := longestRoot?_eq_some_some_iff.mp found
  · simp only [longest.split, List.length_append, List.length_cons]
    omega
  · simp [atRoot.split]

end UtilityClass.Text
