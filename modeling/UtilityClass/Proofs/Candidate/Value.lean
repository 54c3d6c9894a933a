import UtilityClass.Candidate.Base

/-!
# Brackets, hints and escapes of a value

The readers of a utility's value work character by character.  Here each of
them is tied to a condition on the whole text: which bracket is the last one
after a dash, whether a bracket is escaped, and where a type hint ends.
-/

namespace UtilityClass

/-- Some `mark` of the text is not escaped by a backslash before it. -/
def Text.HasUnescaped (mark : Char) (text : Text) : Prop :=
  ∃ front rest, text = front ++ mark :: rest ∧ (Nesting.outside.after front).escaped = false

namespace Nesting

theorem escaped_after_congr {first second : Nesting} (same : first.escaped = second.escaped)
    (text : Text) : (first.after text).escaped = (second.after text).escaped := by
  induction text generalizing first second with
  | nil => exact same
  | cons character rest induction =>
      apply induction
      rw [escaped_step, escaped_step, same]

end Nesting

namespace Text

theorem hasUnescaped_cons_iff {mark character : Char} {rest : Text} (plain : character ≠ '\\') :
    HasUnescaped mark (character :: rest) ↔ character = mark ∨ HasUnescaped mark rest := by
  have sameAfter : ∀ front, (Nesting.outside.after (character :: front)).escaped =
      (Nesting.outside.after front).escaped := by
    intro front
    rw [Nesting.after_cons]
    apply Nesting.escaped_after_congr
    simp [Nesting.escaped_step, plain, Nesting.outside]
  constructor
  · intro ⟨front, after, split, free⟩
    cases front with
    | nil => exact .inl (List.cons_eq_cons.mp split).1
    | cons first front =>
        obtain ⟨rfl, restSplit⟩ := List.cons_eq_cons.mp split
        exact .inr ⟨front, after, restSplit, by rw [← sameAfter front]; exact free⟩
  · intro either
    rcases either with rfl | ⟨front, after, rfl, free⟩
    · exact ⟨[], rest, rfl, rfl⟩
    · exact ⟨character :: front, after, rfl, by rw [sameAfter front]; exact free⟩

theorem hasUnescaped_pair_iff {mark character : Char} {rest : Text} (plain : mark ≠ '\\') :
    HasUnescaped mark ('\\' :: character :: rest) ↔ HasUnescaped mark rest := by
  have sameAfter : ∀ front, (Nesting.outside.after ('\\' :: character :: front)).escaped =
      (Nesting.outside.after front).escaped := by
    intro front
    rw [Nesting.after_cons, Nesting.after_cons]
    apply Nesting.escaped_after_congr
    simp [Nesting.escaped_step, Nesting.outside]
  constructor
  · intro ⟨front, after, split, free⟩
    match front, split, free with
    | [], split, _ => exact absurd (List.cons_eq_cons.mp split).1.symm plain
    | [backslash], split, free =>
        obtain ⟨rfl, _⟩ := List.cons_eq_cons.mp split
        exact absurd free (by decide)
    | backslash :: second :: front, split, free =>
        obtain ⟨rfl, others⟩ := List.cons_eq_cons.mp split
        obtain ⟨rfl, restSplit⟩ := List.cons_eq_cons.mp others
        exact ⟨front, after, restSplit, by rw [← sameAfter front]; exact free⟩
  · intro ⟨front, after, split, free⟩
    refine ⟨'\\' :: character :: front, after, by rw [split]; rfl, ?_⟩
    rw [sameAfter front]
    exact free

theorem not_hasUnescaped_backslash {mark : Char} (plain : mark ≠ '\\') :
    ¬HasUnescaped mark ['\\'] := by
  intro ⟨front, after, split, _⟩
  cases front with
  | nil => exact plain (List.cons_eq_cons.mp split).1.symm
  | cons first front =>
      exact absurd (List.cons_eq_cons.mp split).2.symm (by simp)

end Text

namespace Utility

theorem afterBracket?_eq_none_iff {text : Text} :
    afterBracket? text = none ↔ ¬text.HasUnescaped '[' := by
  fun_induction afterBracket? text with
  | case1 => simp [Text.HasUnescaped]
  | case2 => simpa using Text.not_hasUnescaped_backslash (by decide)
  | case3 character rest induction =>
      rw [induction, Text.hasUnescaped_pair_iff (by decide)]
  | case4 rest =>
      rw [Text.hasUnescaped_cons_iff (by decide)]
      simp
  | case5 character rest notLast notPair notBracket induction =>
      have plain : character ≠ '\\' := by
        intro backslash
        cases rest with
        | nil => exact notLast backslash rfl
        | cons second rest => exact notPair second rest backslash rfl
      rw [induction, Text.hasUnescaped_cons_iff plain]
      simp [notBracket]

theorem suffix_of_afterBracket?_eq_some {text opened : Text}
    (found : afterBracket? text = some opened) : opened <:+ text := by
  fun_induction afterBracket? text with
  | case1 => exact absurd found (by simp)
  | case2 => exact absurd found (by simp)
  | case3 character rest induction =>
      exact (induction found).trans ⟨['\\', character], rfl⟩
  | case4 rest =>
      obtain rfl := Option.some.inj found
      exact List.suffix_cons _ _
  | case5 character rest notLast notPair notBracket induction =>
      exact (induction found).trans (List.suffix_cons _ _)

theorem dashBracket_prefix_cons_iff {character : Char} {rest : Text} :
    ['-', '['] <+: character :: rest ↔ character = '-' ∧ rest.head? = some '[' := by
  rw [List.cons_prefix_cons]
  cases rest with
  | nil => simp
  | cons second rest => simp [List.cons_prefix_cons, eq_comm]

theorem cutAtBracket_eq_none_iff {text : Text} :
    cutAtBracket text = none ↔ ¬['-', '['] <:+: text := by
  induction text with
  | nil => simp [cutAtBracket]
  | cons character rest induction =>
      rw [List.infix_cons_iff, dashBracket_prefix_cons_iff]
      cases later : cutAtBracket rest with
      | some cut =>
          have inRest : ['-', '['] <:+: rest := by
            apply Classical.byContradiction
            intro absent
            rw [induction.mpr absent] at later
            exact absurd later (by simp)
          simp [cutAtBracket, later, inRest]
      | none =>
          have absent := induction.mp later
          by_cases here : character = '-' ∧ rest.head? = some '['
          · simp [cutAtBracket, later, here]
          · simp [cutAtBracket, later, here, absent]

/-- The cut is made at the last dash that an opening bracket follows. -/
theorem cutAtBracket_eq_some_iff {text root value : Text} :
    cutAtBracket text = some (root, value) ↔
      ∃ rest, value = '[' :: rest ∧ text = root ++ '-' :: value ∧ ¬['-', '['] <:+: rest := by
  induction text generalizing root with
  | nil => simp [cutAtBracket]
  | cons character tail induction =>
      unfold cutAtBracket
      cases later : cutAtBracket tail with
      | some cut =>
          obtain ⟨laterRoot, laterValue⟩ := cut
          constructor
          · intro found
            obtain ⟨rfl, rfl⟩ := Prod.mk.inj (Option.some.inj found)
            obtain ⟨rest, rfl, split, last⟩ := induction.mp later
            exact ⟨rest, rfl, by rw [split]; rfl, last⟩
          · intro ⟨rest, value_eq, split, last⟩
            cases root with
            | nil =>
                -- The tail would be cut at a bracket, but its only bracket cut is here.
                obtain ⟨_, tail_eq⟩ := List.cons_eq_cons.mp split
                have uncut : cutAtBracket tail = none := by
                  rw [tail_eq, value_eq, cutAtBracket_eq_none_iff, List.infix_cons_iff,
                    dashBracket_prefix_cons_iff]
                  simp [last]
                exact absurd later (by simp [uncut])
            | cons first root =>
                obtain ⟨rfl, tailSplit⟩ := List.cons_eq_cons.mp split
                have inner := induction.mpr ⟨rest, value_eq, tailSplit, last⟩
                obtain ⟨rfl, rfl⟩ := Prod.mk.inj (Option.some.inj (later.symm.trans inner))
                rfl
      | none =>
          constructor
          · intro found
            simp only at found
            split at found
            next here =>
              obtain ⟨rfl, rfl⟩ := Prod.mk.inj (Option.some.inj found)
              obtain ⟨rfl, bracket⟩ := here
              obtain ⟨rest, rfl⟩ := List.head?_eq_some_iff.mp bracket
              have absent := cutAtBracket_eq_none_iff.mp later
              rw [List.infix_cons_iff, not_or] at absent
              exact ⟨rest, rfl, rfl, absent.2⟩
            next => exact absurd found (by simp)
          · intro ⟨rest, value_eq, split, last⟩
            cases root with
            | nil =>
                obtain ⟨rfl, rfl⟩ := List.cons_eq_cons.mp split
                simp [value_eq]
            | cons first root =>
                obtain ⟨rfl, tailSplit⟩ := List.cons_eq_cons.mp split
                have inner := induction.mpr ⟨rest, value_eq, tailSplit, last⟩
                exact absurd (later.symm.trans inner) (by simp)

theorem cutAtBracket_eq_some_iff_of_closed {text root value : Text}
    (closed : text.getLast? = some ']') :
    cutAtBracket text = some (root, value) ↔
      ∃ inner, value = '[' :: (inner ++ [']']) ∧ text = root ++ '-' :: value ∧
        ¬['-', '['] <:+: inner := by
  rw [cutAtBracket_eq_some_iff]
  constructor
  · intro ⟨rest, value_eq, split, last⟩
    have restClosed : rest.getLast? = some ']' := by
      rw [split, value_eq] at closed
      cases rest with
      | nil => simp at closed
      | cons first others => simpa [List.getLast?_append, List.getLast?_cons_cons] using closed
    obtain ⟨inner, rfl⟩ := List.getLast?_eq_some_iff.mp restClosed
    refine ⟨inner, value_eq, split, ?_⟩
    intro inside
    exact last (inside.trans (List.prefix_append _ _).isInfix)
  · intro ⟨inner, value_eq, split, last⟩
    refine ⟨inner ++ [']'], value_eq, split, ?_⟩
    intro inside
    rcases List.infix_concat_iff.mp inside with atEnd | inInner
    · rcases List.suffix_concat_iff.mp atEnd with empty | ⟨front, same, _⟩
      · exact absurd empty (by simp)
      · have final := congrArg List.getLast? same
        exact absurd final (by simp)
    · exact last inInner

/-- The parts of a bracket text: its type hint and the value. -/
inductive Hinted : Text → Option Text → Text → Prop where
  | hint {name raw : Text} :
      name ≠ [] → (∀ character ∈ name, isNameCharacter character = true) →
      Hinted (name ++ ':' :: raw) (some name) raw
  | colonAlone {raw : Text} : Hinted (':' :: raw) none raw
  | unhinted {raw : Text} :
      (∀ name rest, raw = name ++ ':' :: rest →
        ∃ character ∈ name, isNameCharacter character = false) →
      Hinted raw none raw

theorem takeHint_of_colon {name raw : Text}
    (named : ∀ character ∈ name, isNameCharacter character = true) :
    takeHint (name ++ ':' :: raw) = (if name = [] then none else some name, raw) := by
  have colon : isNameCharacter ':' = false := rfl
  unfold takeHint
  rw [List.takeWhile_append_of_pos named, List.dropWhile_append_of_pos named,
    List.takeWhile_cons_of_neg (by simp [colon]), List.dropWhile_cons_of_neg (by simp [colon]),
    List.append_nil]
  rfl

theorem takeHint_of_noColon {raw : Text}
    (unhinted : ∀ name rest, raw = name ++ ':' :: rest →
      ∃ character ∈ name, isNameCharacter character = false) :
    takeHint raw = (none, raw) := by
  unfold takeHint
  split
  next rest colon =>
    have split := List.takeWhile_append_dropWhile (p := isNameCharacter) (l := raw)
    rw [colon] at split
    obtain ⟨character, member, notName⟩ := unhinted _ rest split.symm
    have isName := List.all_eq_true.mp List.all_takeWhile character member
    exact absurd isName (by simp [notName])
  next => rfl

theorem takeHint_eq_iff {inner raw : Text} {hint : Option Text} :
    takeHint inner = (hint, raw) ↔ Hinted inner hint raw := by
  constructor
  · intro taken
    by_cases hinted : ∃ name rest, inner = name ++ ':' :: rest ∧
        ∀ character ∈ name, isNameCharacter character = true
    · obtain ⟨name, rest, rfl, named⟩ := hinted
      rw [takeHint_of_colon named] at taken
      obtain ⟨rfl, rfl⟩ := Prod.mk.inj taken
      by_cases empty : name = []
      · rw [if_pos empty, empty]
        exact .colonAlone
      · rw [if_neg empty]
        exact .hint empty named
    · have unhinted : ∀ name rest, inner = name ++ ':' :: rest →
          ∃ character ∈ name, isNameCharacter character = false := by
        intro name rest split
        apply Classical.byContradiction
        intro none
        refine hinted ⟨name, rest, split, ?_⟩
        intro character member
        cases isName : isNameCharacter character with
        | true => rfl
        | false => exact absurd ⟨character, member, isName⟩ none
      rw [takeHint_of_noColon unhinted] at taken
      obtain ⟨rfl, rfl⟩ := Prod.mk.inj taken
      exact .unhinted unhinted
  · intro hinted
    cases hinted with
    | hint nonempty named => rw [takeHint_of_colon named, if_neg nonempty]
    | colonAlone => exact @takeHint_of_colon [] _ (by simp)
    | unhinted unhinted => exact takeHint_of_noColon unhinted

theorem readValue_bracket_eq_ok_iff {inner : Text} {modifier : Option Modifier}
    {parsed : UtilityValue} :
    readValue ('[' :: (inner ++ [']'])) modifier = .ok parsed ↔
      ∃ hint raw, Hinted inner hint raw ∧ parsed = .arbitrary hint (.ofRaw raw) := by
  have opened : afterBracket? ('[' :: (inner ++ [']'])) = some (inner ++ [']']) := by
    simp [afterBracket?]
  have closed : (inner ++ [']']).withoutFinal ']' = some inner :=
    Text.withoutFinal_eq_some_iff.mpr rfl
  unfold readValue
  simp only [opened, closed]
  constructor
  · intro read
    obtain rfl := Except.ok.inj read
    exact ⟨_, _, takeHint_eq_iff.mp rfl, rfl⟩
  · intro ⟨hint, raw, hinted, parsed_eq⟩
    rw [takeHint_eq_iff.mpr hinted, parsed_eq]

theorem readValue_eq_ok_iff_of_open {word : Text} {modifier : Option Modifier}
    {parsed : UtilityValue} (open_end : word.getLast? ≠ some ']') :
    readValue word modifier = .ok parsed ↔
      ¬word.HasUnescaped '[' ∧ parsed = .named word (fraction? word modifier) := by
  rw [← afterBracket?_eq_none_iff]
  unfold readValue
  cases found : afterBracket? word with
  | none => simp [eq_comm]
  | some opened =>
      have unclosed : opened.withoutFinal ']' = none := by
        cases closed : opened.withoutFinal ']' with
        | none => rfl
        | some inner =>
            obtain ⟨front, rfl⟩ := suffix_of_afterBracket?_eq_some found
            rw [Text.withoutFinal_eq_some_iff.mp closed] at open_end
            exact absurd (by simp) open_end
      simp [unclosed]

end Utility

end UtilityClass
