import Mathlib.Data.List.Infix
import UtilityClass.Proofs.Text.Decomposition

/-!
# Balanced texts

A plain word holds nothing that a reading of brackets and quotes reacts to,
and a balanced bracket text ends in the bracket it began in.  A text put
together from the two leaves the reading where it was, and a separator that is
in brackets there cuts nothing.
-/

namespace UtilityClass

/-- The characters that brackets, quotes and escapes are made of. -/
def Nesting.marks : Text :=
  ['\\', '\'', '"', '(', ')', '[', ']', '{', '}']

/-- A text without brackets, quotes and backslashes. -/
def Text.Unmarked (text : Text) : Prop :=
  ∀ character ∈ text, character ∉ Nesting.marks

instance (text : Text) : Decidable text.Unmarked :=
  decidable_of_iff (text.all fun character => !Nesting.marks.contains character)
    (by simp [Text.Unmarked])

namespace Nesting

/-- The state right after an opening bracket. -/
def bracketed : Nesting :=
  outside.step '['

/-- Only marks can close what is open. -/
def AwaitsMarks (nesting : Nesting) : Prop :=
  ∀ closer ∈ nesting.closers, closer ∈ marks

variable {nesting : Nesting} {character : Char}

theorem awaitsMarks_outside : outside.AwaitsMarks := by
  intro closer member
  exact absurd member List.not_mem_nil

theorem awaitsMarks_bracketed : bracketed.AwaitsMarks := by
  intro closer member
  obtain rfl := List.mem_singleton.mp member
  decide

theorem closerOf?_mem_marks {closer : Char} (opens : closerOf? character = some closer) :
    closer ∈ marks := by
  unfold closerOf? at opens
  split at opens
  · cases opens
    decide
  split at opens
  · cases opens
    decide
  split at opens
  · cases opens
    decide
  split at opens
  next quote =>
    cases opens
    simp only [isQuote, Bool.or_eq_true, beq_iff_eq] at quote
    rcases quote with rfl | rfl
    · decide
    · decide
  next => cases opens

theorem closerOf?_eq_none (notMark : character ∉ marks) : closerOf? character = none := by
  simp only [marks, List.mem_cons, List.not_mem_nil, or_false, not_or] at notMark
  simp [closerOf?, isQuote, notMark]

theorem mem_stepPlain {closers : Text} {closer : Char}
    (member : closer ∈ stepPlain closers character) :
    closer ∈ closers ∨ closerOf? character = some closer := by
  cases closers with
  | nil => simpa [stepPlain] using member
  | cons inner outer =>
      simp only [stepPlain] at member
      split at member
      · exact .inl (List.mem_cons_of_mem _ member)
      split at member
      · exact .inl member
      · rcases List.mem_append.mp member with opened | before
        · exact .inr (Option.mem_toList.mp opened)
        · exact .inl before

theorem AwaitsMarks.step (awaits : nesting.AwaitsMarks) (character : Char) :
    (nesting.step character).AwaitsMarks := by
  intro closer member
  unfold Nesting.step at member
  split at member
  · exact awaits closer member
  split at member
  · exact awaits closer member
  · rcases mem_stepPlain member with before | opens
    · exact awaits closer before
    · exact closerOf?_mem_marks opens

theorem stepPlain_eq_self {closers : Text} (awaits : ∀ closer ∈ closers, closer ∈ marks)
    (notMark : character ∉ marks) : stepPlain closers character = closers := by
  have opensNothing := closerOf?_eq_none notMark
  cases closers with
  | nil => simp [stepPlain, opensNothing]
  | cons closer outer =>
      have different : character ≠ closer := by
        rintro rfl
        exact notMark (awaits character List.mem_cons_self)
      simp [stepPlain, opensNothing, different]

theorem step_eq_self (awaits : nesting.AwaitsMarks) (free : nesting.escaped = false)
    (notMark : character ∉ marks) : nesting.step character = nesting := by
  obtain ⟨closers, escaped⟩ := nesting
  obtain rfl : escaped = false := free
  have noBackslash : character ≠ '\\' := by
    rintro rfl
    exact notMark List.mem_cons_self
  have unmoved : stepPlain closers character = closers := stepPlain_eq_self awaits notMark
  simp [step, noBackslash, unmoved]

theorem after_eq_self (awaits : nesting.AwaitsMarks) (free : nesting.escaped = false)
    {word : Text} (unmarked : word.Unmarked) : nesting.after word = nesting := by
  induction word with
  | nil => rfl
  | cons character rest induction =>
      obtain ⟨first, later⟩ := List.forall_mem_cons.mp unmarked
      rw [after_cons, step_eq_self awaits free first]
      exact induction later

end Nesting

namespace Text

/-- A word that can be read without regard to brackets, quotes and slashes. -/
structure Plain (word : Text) : Prop where
  nonempty : word ≠ []
  unmarked : word.Unmarked
  noSlash : '/' ∉ word

/-- Read on from `nesting`, a text is inside some context from its start to its
end. -/
def Held (nesting : Nesting) (text : Text) : Prop :=
  ∀ front, front <+: text → (nesting.after front).closers ≠ []

instance (nesting : Nesting) (text : Text) : Decidable (text.Held nesting) :=
  decidable_of_iff (∀ front ∈ text.inits, (nesting.after front).closers ≠ [])
    (by simp only [List.mem_inits, Held])

/-- Read inside a bracket, a text stays in that bracket and ends right in it. -/
structure Balanced (raw : Text) : Prop where
  held : raw.Held .bracketed
  closed : Nesting.bracketed.after raw = .bracketed

/-- A text that ends outside all contexts and that the separator does not cut. -/
structure Whole (separator : Char) (text : Text) : Prop where
  closed : Nesting.outside.after text = .outside
  uncut : text.Uncut separator .outside

theorem Plain.head?_ne {word : Text} (plain : word.Plain) {mark : Char}
    (isMark : mark ∈ Nesting.marks) : word.head? ≠ some mark := by
  intro starts
  exact plain.unmarked mark (List.mem_of_head? starts) isMark

theorem held_nil_iff {nesting : Nesting} : Held nesting [] ↔ nesting.closers ≠ [] := by
  simp [Held]

theorem held_cons_iff {nesting : Nesting} {character : Char} {rest : Text} :
    Held nesting (character :: rest) ↔
      nesting.closers ≠ [] ∧ rest.Held (nesting.step character) := by
  constructor
  · intro held
    refine ⟨held [] List.nil_prefix, ?_⟩
    intro front starts
    apply held (character :: front)
    exact List.cons_prefix_cons.mpr ⟨rfl, starts⟩
  · rintro ⟨here, later⟩ front starts
    cases front with
    | nil => exact here
    | cons first front =>
        obtain ⟨rfl, restStarts⟩ := List.cons_prefix_cons.mp starts
        exact later front restStarts

theorem held_append_iff {nesting : Nesting} {first second : Text} :
    Held nesting (first ++ second) ↔
      first.Held nesting ∧ second.Held (nesting.after first) := by
  induction first generalizing nesting with
  | nil =>
      rw [held_nil_iff]
      constructor
      · intro held
        exact ⟨held [] List.nil_prefix, held⟩
      · rintro ⟨_, held⟩
        exact held
  | cons character first induction =>
      rw [List.cons_append, held_cons_iff, held_cons_iff, induction, and_assoc]
      rfl

theorem Held.start {nesting : Nesting} {text : Text} (held : text.Held nesting) :
    nesting.closers ≠ [] :=
  held [] List.nil_prefix

theorem Balanced.append {first second : Text} (firstBalanced : first.Balanced)
    (secondBalanced : second.Balanced) : (first ++ second).Balanced := by
  constructor
  · rw [held_append_iff, firstBalanced.closed]
    exact ⟨firstBalanced.held, secondBalanced.held⟩
  · rw [Nesting.after_append, firstBalanced.closed, secondBalanced.closed]

theorem Unmarked.balanced {word : Text} (unmarked : word.Unmarked) : word.Balanced := by
  have awaits := Nesting.awaitsMarks_bracketed
  constructor
  · intro front starts
    have frontUnmarked : Unmarked front := by
      intro character member
      exact unmarked character (starts.subset member)
    rw [Nesting.after_eq_self awaits rfl frontUnmarked]
    exact List.cons_ne_nil _ _
  · exact Nesting.after_eq_self awaits rfl unmarked

theorem Held.uncut {nesting : Nesting} {text : Text} (held : text.Held nesting)
    (separator character : Char) : (text ++ [character]).Uncut separator nesting := by
  intro front rest split outside
  have starts : front <+: text := by
    have whole : front <+: text ++ [character] := ⟨_, split.symm⟩
    rcases List.prefix_concat_iff.mp whole with rfl | shorter
    · have lengths := congrArg List.length split
      simp at lengths
    · exact shorter
  apply held front starts
  rw [outside]
  rfl

theorem uncut_of_not_mem {separator : Char} {text : Text} (absent : separator ∉ text)
    (nesting : Nesting) : text.Uncut separator nesting := by
  rintro front rest rfl
  exact absurd (by simp) absent

namespace Whole

variable {separator : Char}

theorem append {first second : Text} (firstWhole : first.Whole separator)
    (secondWhole : second.Whole separator) : (first ++ second).Whole separator := by
  constructor
  · rw [Nesting.after_append, firstWhole.closed, secondWhole.closed]
  · rw [uncut_append_iff, firstWhole.closed]
    exact ⟨firstWhole.uncut, secondWhole.uncut⟩

theorem of_unmarked {word : Text} (unmarked : word.Unmarked) (absent : separator ∉ word) :
    word.Whole separator where
  closed := Nesting.after_eq_self Nesting.awaitsMarks_outside rfl unmarked
  uncut := uncut_of_not_mem absent .outside

theorem of_balanced {raw : Text} (balanced : raw.Balanced) (different : separator ≠ '[') :
    raw.inBrackets.Whole separator := by
  constructor
  · rw [inBrackets, Nesting.after_cons, Nesting.after_append]
    show (Nesting.bracketed.after raw).after [']'] = .outside
    rw [balanced.closed]
    rfl
  · apply uncut_cons_iff.mpr
    refine ⟨?_, balanced.held.uncut separator ']'⟩
    intro same
    exact absurd same.symm different

/-- A root without marks and a dash before a text do not change where it is cut. -/
theorem behind_root {root rest : Text} (unmarked : root.Unmarked) (absent : separator ∉ root)
    (notDash : separator ≠ '-') (whole : rest.Whole separator) :
    Text.Whole separator (root ++ '-' :: rest) := by
  have rootWhole : root.Whole separator := .of_unmarked unmarked absent
  have dashWhole : Text.Whole separator ['-'] := .of_unmarked (by decide) (by simpa using notDash)
  exact rootWhole.append (dashWhole.append whole)

theorem pieces_eq {text : Text} (whole : text.Whole separator) (plain : separator ≠ '\\') :
    text.pieces separator = [text] :=
  (pieces_eq_singleton_iff plain).mpr whole.uncut

theorem pieces_append_cons {first : Text} (whole : first.Whole separator)
    (plain : separator ≠ '\\') (rest : Text) :
    (first ++ separator :: rest).pieces separator = first :: rest.pieces separator :=
  piecesFrom_append_cons plain whole.uncut whole.closed rest

end Whole

theorem Plain.whole {word : Text} (plain : word.Plain) : word.Whole '/' :=
  .of_unmarked plain.unmarked plain.noSlash

end Text

end UtilityClass
