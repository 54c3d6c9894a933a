import UtilityClass.Proofs.Text.Balance
import UtilityClass.Text.Bracket

/-!
# Encoded values

A value without backslashes is written into brackets by `encode`, and `decode`
reads it back.  Encoding touches underscores and spaces only, so a word that
has neither of them stands in the encoded text where it stood in the value, and
the brackets and quotes of the value open and close as before.
-/

namespace UtilityClass

namespace BracketState

/-- Characters that stand for themselves wherever they are written. -/
def Literal (character : Char) : Prop :=
  character ≠ '\\' ∧ character ≠ '_' ∧ character ≠ ' '

instance (character : Char) : Decidable (Literal character) :=
  inferInstanceAs (Decidable (character ≠ '\\' ∧ character ≠ '_' ∧ character ≠ ' '))

theorem encoded_cases (state : BracketState) (character : Char) :
    state.encoded character = [character] ∨
      (character = '_' ∧ state.encoded character = ['\\', '_']) ∨
        (character = ' ' ∧ state.encoded character = ['_']) := by
  cases state with
  | escape => exact .inl rfl
  | url opened => exact .inl rfl
  | plain =>
      by_cases underscore : character = '_'
      · exact .inr (.inl ⟨underscore, by simp [encoded, underscore]⟩)
      by_cases blank : character = ' '
      · exact .inr (.inr ⟨blank, by simp [encoded, blank]⟩)
      · exact .inl (by simp [encoded, underscore, blank])

theorem filter_decoded (state : BracketState) (character : Char) :
    (state.decoded character).filter (Literal ·) = [character].filter (Literal ·) := by
  cases state with
  | plain =>
      by_cases backslash : character = '\\'
      · subst backslash
        rfl
      by_cases underscore : character = '_'
      · subst underscore
        rfl
      · simp [decoded, backslash, underscore]
  | escape =>
      by_cases underscore : character = '_'
      · subst underscore
        rfl
      · simp only [decoded, underscore, if_false]
        rfl
  | url opened => rfl

/-- The backslash whose pair has begun. -/
def pending : BracketState → Text
  | escape => ['\\']
  | plain | url _ => []

theorem pending_eq_nil {state : BracketState} (free : state ≠ .escape) :
    state.pending = [] := by
  cases state with
  | escape => exact absurd rfl free
  | plain => rfl
  | url opened => rfl

theorem step_url_ne_escape (opened : Nat) (character : Char) (rest : Text) :
    (url opened).step character rest ≠ .escape := by
  simp only [step]
  split
  · exact BracketState.noConfusion
  split
  · split
    · exact BracketState.noConfusion
    · exact BracketState.noConfusion
  · exact BracketState.noConfusion

theorem step_ne_escape {state : BracketState} {character : Char} (free : state ≠ .escape)
    (noBackslash : character ≠ '\\') (rest : Text) : state.step character rest ≠ .escape := by
  cases state with
  | escape => exact absurd rfl free
  | plain =>
      simp only [step, noBackslash, if_false]
      split
      · exact BracketState.noConfusion
      · exact BracketState.noConfusion
  | url opened => exact step_url_ne_escape opened character rest

end BracketState

namespace Text

open BracketState (Literal)

theorem not_prefix_cons {word rest : Text} {character : Char} (nonempty : word ≠ [])
    (literal : ∀ character ∈ word, Literal character) (changed : ¬Literal character) :
    ¬word <+: character :: rest := by
  intro starts
  cases word with
  | nil => exact nonempty rfl
  | cons first others =>
      obtain ⟨rfl, _⟩ := List.cons_prefix_cons.mp starts
      exact changed (literal first List.mem_cons_self)

theorem infix_of_infix_cons {word rest : Text} {character : Char} (nonempty : word ≠ [])
    (literal : ∀ character ∈ word, Literal character) (changed : ¬Literal character)
    (inside : word <:+: character :: rest) : word <:+: rest := by
  rcases List.infix_cons_iff.mp inside with here | later
  · exact absurd here (not_prefix_cons nonempty literal changed)
  · exact later

theorem prefix_encodeFrom_iff {word : Text} (literal : ∀ character ∈ word, Literal character)
    {state : BracketState} {text : Text} : word <+: encodeFrom state text ↔ word <+: text := by
  induction word generalizing state text with
  | nil => simp
  | cons first others induction =>
      cases text with
      | nil => simp [encodeFrom]
      | cons character rest =>
          have nonempty : first :: others ≠ [] := List.cons_ne_nil _ _
          obtain ⟨_, othersLiteral⟩ := List.forall_mem_cons.mp literal
          rw [encodeFrom]
          rcases state.encoded_cases character with same | ⟨rfl, escaped⟩ | ⟨rfl, blank⟩
          · rw [same, List.singleton_append, List.cons_prefix_cons, List.cons_prefix_cons,
              induction othersLiteral]
          · rw [escaped]
            exact iff_of_false (not_prefix_cons nonempty literal (by decide))
              (not_prefix_cons nonempty literal (by decide))
          · rw [blank]
            exact iff_of_false (not_prefix_cons nonempty literal (by decide))
              (not_prefix_cons nonempty literal (by decide))

theorem infix_of_infix_encodeFrom {word : Text} (nonempty : word ≠ [])
    (literal : ∀ character ∈ word, Literal character) {state : BracketState} {text : Text}
    (inside : word <:+: encodeFrom state text) : word <:+: text := by
  induction text generalizing state with
  | nil => exact inside
  | cons character rest induction =>
      have starts : word <+: encodeFrom state (character :: rest) ↔ word <+: character :: rest :=
        prefix_encodeFrom_iff literal
      rw [encodeFrom] at inside starts
      apply List.infix_cons_iff.mpr
      rcases state.encoded_cases character with same | ⟨rfl, escaped⟩ | ⟨rfl, blank⟩
      · rw [same, List.singleton_append] at inside starts
        rcases List.infix_cons_iff.mp inside with here | later
        · exact .inl (starts.mp here)
        · exact .inr (induction later)
      · rw [escaped] at inside
        have afterMark := infix_of_infix_cons nonempty literal (by decide) inside
        exact .inr (induction (infix_of_infix_cons nonempty literal (by decide) afterMark))
      · rw [blank] at inside
        exact .inr (induction (infix_of_infix_cons nonempty literal (by decide) inside))

theorem startsUrl_encodeFrom (character : Char) (state : BracketState) (text : Text) :
    BracketState.startsUrl character (encodeFrom state text) =
      BracketState.startsUrl character text := by
  have literal : ∀ letter ∈ ['r', 'l', '('], Literal letter := by
    simp [Literal]
  unfold BracketState.startsUrl
  rw [Bool.eq_iff_iff, Bool.and_eq_true, Bool.and_eq_true, List.isPrefixOf_iff_prefix,
    List.isPrefixOf_iff_prefix, prefix_encodeFrom_iff literal]

/-- No backslash of the text, read from `state`, escapes an underscore.  Such a pair is
the only one that does not stand for itself. -/
def KeepsPairs : BracketState → Text → Prop
  | _, [] => True
  | state, character :: rest =>
    (state = .escape → character ≠ '_') ∧ KeepsPairs (state.step character rest) rest

theorem KeepsPairs.of_noBackslash {state : BracketState} {text : Text}
    (free : state ≠ .escape) (noBackslash : '\\' ∉ text) : KeepsPairs state text := by
  induction text generalizing state with
  | nil => trivial
  | cons character rest induction =>
      obtain ⟨different, restPlain⟩ := List.ne_and_not_mem_of_not_mem_cons noBackslash
      have stepFree := BracketState.step_ne_escape free different.symm rest
      exact ⟨fun escaped => absurd escaped free, induction stepFree restPlain⟩

/-- What is written from a state is read from the same state.  A backslash that stands
before the text is read with it. -/
theorem decodeFrom_encodeFrom {state : BracketState} {text : Text}
    (keeps : KeepsPairs state text) :
    decodeFrom state (encodeFrom state text) = state.pending ++ text := by
  induction text generalizing state with
  | nil => cases state <;> rfl
  | cons character rest induction =>
      obtain ⟨noUnderscore, restKeeps⟩ := keeps
      have later := induction restKeeps
      cases state with
      | escape =>
          have read : BracketState.escape.decoded character = ['\\', character] := by
            simp [BracketState.decoded, noUnderscore rfl]
          simp only [encodeFrom, BracketState.encoded, List.singleton_append, decodeFrom, read]
          exact congrArg ('\\' :: character :: ·) later
      | url opened =>
          rw [BracketState.pending_eq_nil (BracketState.step_url_ne_escape opened character rest)]
            at later
          exact congrArg (character :: ·) later
      | plain =>
          by_cases backslash : character = '\\'
          · subst backslash
            exact later
          by_cases underscore : character = '_'
          · subst underscore
            exact congrArg ('_' :: ·) later
          by_cases blank : character = ' '
          · subst blank
            exact congrArg (' ' :: ·) later
          · have same : BracketState.plain.encoded character = [character] := by
              simp [BracketState.encoded, underscore, blank]
            have read : BracketState.plain.decoded character = [character] := by
              simp [BracketState.decoded, backslash, underscore]
            have nextState : BracketState.plain.step character
                (encodeFrom (BracketState.plain.step character rest) rest) =
                  BracketState.plain.step character rest := by
              simp only [BracketState.step, startsUrl_encodeFrom]
            have free : BracketState.plain.step character rest ≠ .escape :=
              BracketState.step_ne_escape BracketState.noConfusion backslash rest
            rw [encodeFrom, same, List.singleton_append, decodeFrom, read, nextState, later,
              BracketState.pending_eq_nil free]
            rfl

theorem filter_decodeFrom (state : BracketState) (text : Text) :
    (decodeFrom state text).filter (Literal ·) = text.filter (Literal ·) := by
  induction text generalizing state with
  | nil => cases state <;> rfl
  | cons character rest induction =>
      rw [decodeFrom, List.filter_append, BracketState.filter_decoded, induction,
        ← List.filter_append, List.singleton_append]

theorem filter_decode (text : Text) :
    text.decode.filter (Literal ·) = text.filter (Literal ·) :=
  filter_decodeFrom .plain text

theorem mem_decode_iff {mark : Char} (literal : Literal mark) {text : Text} :
    mark ∈ text.decode ↔ mark ∈ text := by
  have same : mark ∈ text.decode.filter (Literal ·) ↔ mark ∈ text.filter (Literal ·) := by
    rw [filter_decode]
  simpa [List.mem_filter, literal] using same

theorem head?_of_head?_decode {mark : Char} (literal : Literal mark) {text : Text}
    (starts : text.decode.head? = some mark) : text.head? = some mark := by
  obtain ⟨noBackslash, noUnderscore, noSpace⟩ := literal
  cases text with
  | nil => exact starts
  | cons character rest =>
      by_cases backslash : character = '\\'
      · subst backslash
        cases rest with
        | nil => exact starts
        | cons second rest =>
            by_cases underscore : second = '_' <;>
              simp [decode, decodeFrom, BracketState.decoded, BracketState.step, underscore,
                noBackslash.symm, noUnderscore.symm] at starts
      by_cases underscore : character = '_'
      · simp [decode, decodeFrom, BracketState.decoded, underscore, noSpace.symm] at starts
      · simpa [decode, decodeFrom, BracketState.decoded, backslash, underscore] using starts

theorem decode_cons_of_literal {character : Char} (literal : Literal character)
    (noUrl : character ≠ 'u') (rest : Text) :
    decode (character :: rest) = character :: decode rest := by
  obtain ⟨noBackslash, noUnderscore, _⟩ := literal
  have stays : BracketState.plain.step character rest = .plain := by
    simp [BracketState.step, BracketState.startsUrl, noBackslash, noUrl]
  have read : BracketState.plain.decoded character = [character] := by
    simp [BracketState.decoded, noBackslash, noUnderscore]
  rw [decode, decodeFrom, stays, read]
  rfl

/-- A decoded text starts with the same words as the text itself.  Words with the
letter that starts `url(` are left out, because they may reach into such a part. -/
theorem prefix_decode_iff {word : Text}
    (literal : ∀ character ∈ word, Literal character ∧ character ≠ 'u') {text : Text} :
    word <+: text.decode ↔ word <+: text := by
  induction word generalizing text with
  | nil => simp
  | cons first others induction =>
      obtain ⟨⟨firstLiteral, noUrl⟩, othersLiteral⟩ := List.forall_mem_cons.mp literal
      have starts : ∀ {whole : Text}, first :: others <+: whole → whole.head? = some first := by
        intro whole atFront
        obtain ⟨rest, rfl⟩ := atFront
        rfl
      by_cases same : text.head? = some first
      · obtain ⟨rest, rfl⟩ := List.head?_eq_some_iff.mp same
        rw [decode_cons_of_literal firstLiteral noUrl, List.cons_prefix_cons,
          List.cons_prefix_cons, induction othersLiteral]
      · constructor
        · intro atFront
          exact absurd (head?_of_head?_decode firstLiteral (starts atFront)) same
        · intro atFront
          exact absurd (starts atFront) same

end Text

namespace Nesting

variable {nesting : Nesting}

theorem after_encoded (awaits : nesting.AwaitsMarks) (free : nesting.escaped = false)
    (state : BracketState) (character : Char) :
    nesting.after (state.encoded character) = nesting.step character := by
  have underscore : nesting.step '_' = nesting := step_eq_self awaits free (by decide)
  have space : nesting.step ' ' = nesting := step_eq_self awaits free (by decide)
  rcases state.encoded_cases character with same | ⟨rfl, escaped⟩ | ⟨rfl, blank⟩
  · rw [same]
    rfl
  · obtain ⟨closers, pending⟩ := nesting
    obtain rfl : pending = false := free
    rw [escaped, underscore]
    rfl
  · rw [blank, space]
    exact underscore

theorem held_encoded (awaits : nesting.AwaitsMarks) (free : nesting.escaped = false)
    (inside : nesting.closers ≠ []) {character : Char}
    (later : (nesting.step character).closers ≠ []) (state : BracketState) :
    (state.encoded character).Held nesting := by
  rcases state.encoded_cases character with same | ⟨rfl, escaped⟩ | ⟨rfl, blank⟩
  · rw [same]
    exact Text.held_cons_iff.mpr ⟨inside, Text.held_nil_iff.mpr later⟩
  · obtain ⟨closers, pending⟩ := nesting
    obtain rfl : pending = false := free
    rw [escaped]
    -- The backslash only makes the underscore wait.
    apply Text.held_cons_iff.mpr
    exact ⟨inside, Text.held_cons_iff.mpr ⟨inside, Text.held_nil_iff.mpr inside⟩⟩
  · have underscore : nesting.step '_' = nesting := step_eq_self awaits free (by decide)
    rw [blank, Text.held_cons_iff, underscore]
    exact ⟨inside, Text.held_nil_iff.mpr inside⟩

theorem after_encodeFrom (awaits : nesting.AwaitsMarks) (free : nesting.escaped = false)
    {text : Text} (noBackslash : '\\' ∉ text) (state : BracketState) :
    nesting.after (Text.encodeFrom state text) = nesting.after text := by
  induction text generalizing nesting state with
  | nil => rfl
  | cons character rest induction =>
      obtain ⟨different, restPlain⟩ := List.ne_and_not_mem_of_not_mem_cons noBackslash
      have stepFree : (nesting.step character).escaped = false := by
        simp [escaped_step, different.symm]
      rw [Text.encodeFrom, after_append, after_encoded awaits free, after_cons]
      exact induction (awaits.step character) stepFree restPlain _

theorem held_encodeFrom (awaits : nesting.AwaitsMarks) (free : nesting.escaped = false)
    {text : Text} (noBackslash : '\\' ∉ text) (held : text.Held nesting) (state : BracketState) :
    (Text.encodeFrom state text).Held nesting := by
  induction text generalizing nesting state with
  | nil => exact held
  | cons character rest induction =>
      obtain ⟨different, restPlain⟩ := List.ne_and_not_mem_of_not_mem_cons noBackslash
      obtain ⟨inside, later⟩ := Text.held_cons_iff.mp held
      have stepFree : (nesting.step character).escaped = false := by
        simp [escaped_step, different.symm]
      rw [Text.encodeFrom, Text.held_append_iff, after_encoded awaits free]
      constructor
      · exact held_encoded awaits free inside later.start state
      · exact induction (awaits.step character) stepFree restPlain later _

end Nesting

namespace Text

theorem decode_encode {text : Text} (noBackslash : '\\' ∉ text) : text.encode.decode = text :=
  decodeFrom_encodeFrom (.of_noBackslash BracketState.noConfusion noBackslash)

theorem Balanced.encode {text : Text} (balanced : text.Balanced) (noBackslash : '\\' ∉ text) :
    text.encode.Balanced := by
  have awaits := Nesting.awaitsMarks_bracketed
  constructor
  · exact Nesting.held_encodeFrom awaits rfl noBackslash balanced.held .plain
  · have same := Nesting.after_encodeFrom awaits rfl noBackslash .plain
    exact same.trans balanced.closed

end Text

end UtilityClass
