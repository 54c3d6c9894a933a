import UtilityClass.Proofs.Candidate.Functional
import UtilityClass.Proofs.Text.Decomposition
import UtilityClass.Proofs.Vocabulary.Table

/-!
# A second importance mark

One exclamation mark is taken off a base, and a second one is read as text.
With one at the front no utility is read, because no name starts with it.  At
the end it goes to the modifier or to the bare value that stands there, and the
candidate is read all the same.
-/

namespace UtilityClass

namespace Text

variable {separator mark : Char} {text : Text}

theorem eq_concat_of_concat_eq (different : mark ≠ separator) {front rest : Text}
    (split : text ++ [mark] = front ++ separator :: rest) :
    ∃ rest', rest = rest' ++ [mark] ∧ text = front ++ separator :: rest' := by
  rcases List.eq_nil_or_concat' rest with rfl | ⟨rest', final, rfl⟩
  · exact absurd (List.append_singleton_inj.mp split).2 different
  · have joined : text ++ [mark] = (front ++ separator :: rest') ++ [final] := by
      simp [split]
    obtain ⟨text_eq, rfl⟩ := List.append_singleton_inj.mp joined
    exact ⟨rest', rfl, text_eq⟩

theorem piecesFrom_concat (different : mark ≠ separator) {nesting : Nesting}
    {pieces : List Text} {last : Text}
    (found : piecesFrom separator nesting text = pieces ++ [last]) :
    piecesFrom separator nesting (text ++ [mark]) = pieces ++ [last ++ [mark]] := by
  have noCut (nesting : Nesting) : ¬nesting.cutsAt separator mark = true := by
    rw [Nesting.cutsAt_iff]
    rintro ⟨_, same, _⟩
    exact different same
  induction text generalizing nesting pieces last with
  | nil =>
      have only : [] ++ [[]] = pieces ++ [last] := found
      obtain ⟨rfl, rfl⟩ := List.append_singleton_inj.mp only
      exact piecesFrom_cons_of_keep (noCut nesting)
  | cons character rest induction =>
      by_cases cut : nesting.cutsAt separator character = true
      · rw [piecesFrom_cons_of_cut cut] at found
        rw [List.cons_append, piecesFrom_cons_of_cut cut]
        cases pieces with
        | nil => exact absurd (List.cons_eq_cons.mp found).2 (piecesFrom_ne_nil _ _ _)
        | cons first pieces =>
            obtain ⟨rfl, later⟩ := List.cons_eq_cons.mp found
            rw [induction later]
            rfl
      · rw [piecesFrom_cons_of_keep cut] at found
        rw [List.cons_append, piecesFrom_cons_of_keep cut]
        obtain ⟨pieces', last', later⟩ :=
          (List.eq_nil_or_concat' (piecesFrom separator (nesting.step character) rest)).resolve_left
            (piecesFrom_ne_nil _ _ _)
        rw [induction later]
        rw [later] at found
        cases pieces' with
        | nil =>
            have only : [] ++ [character :: last'] = pieces ++ [last] := found
            obtain ⟨rfl, rfl⟩ := List.append_singleton_inj.mp only
            rfl
        | cons first pieces' =>
            have more : ((character :: first) :: pieces') ++ [last'] = pieces ++ [last] := found
            obtain ⟨rfl, rfl⟩ := List.append_singleton_inj.mp more
            rfl

theorem pieces_concat_of_whole (different : mark ≠ separator)
    (whole : text.pieces separator = [text]) :
    (text ++ [mark]).pieces separator = [text ++ [mark]] :=
  @piecesFrom_concat separator mark text different .outside [] text whole

theorem pieces_cons_of_whole (plain : separator ≠ '\\') (different : mark ≠ separator)
    (opensNothing : Nesting.outside.step mark = .outside)
    (whole : text.pieces separator = [text]) :
    pieces separator (mark :: text) = [mark :: text] := by
  rw [pieces_eq_singleton_iff plain] at whole ⊢
  rw [uncut_cons_iff, opensNothing]
  exact ⟨fun same => absurd same different, whole⟩

theorem HasUnescaped.of_concat {sought : Char} (different : mark ≠ sought)
    (has : HasUnescaped sought (text ++ [mark])) : text.HasUnescaped sought := by
  obtain ⟨before, rest, split, free⟩ := has
  obtain ⟨rest', _, text_eq⟩ := eq_concat_of_concat_eq different split
  exact ⟨before, rest', text_eq, free⟩

/-- A value may grow at its end without another root getting longer. -/
theorem longestRoot?_concat {known : Text → Bool} {root value : Text} (different : mark ≠ '-')
    (unknown : known (text ++ [mark]) = false)
    (found : text.longestRoot? known = some (root, some value)) :
    (text ++ [mark]).longestRoot? known = some (root, some (value ++ [mark])) := by
  obtain ⟨_, forms⟩ := longestRoot?_eq_some_some_iff.mp found
  apply longestRoot?_eq_some_some_iff.mpr
  refine ⟨unknown, ?_⟩
  rcases forms with ⟨longest, tried⟩ | atRoot
  · left
    refine ⟨⟨by simp [longest.split], longest.isKnown, ?_⟩, ?_⟩
    · intro front rest split longer
      obtain ⟨rest', _, text_eq⟩ := eq_concat_of_concat_eq different split
      exact longest.longest front rest' text_eq longer
    · simpa [different.symm] using tried
  · right
    refine ⟨?_, atRoot.root_eq, by simp [atRoot.split], atRoot.isKnown⟩
    simpa [different.symm] using atRoot.noDash

end Text

namespace Markers

variable {base : Text}

theorem takeImportant_concat (base : Text) : takeImportant (base ++ ['!']) = (base, true) := by
  have ends : (base ++ ['!']).withoutFinal '!' = some base := Text.withoutFinal_eq_some_iff.mpr rfl
  simp only [takeImportant, ends]

theorem takeImportant_of_unmarked (first : base.head? ≠ some '!')
    (last : base.getLast? ≠ some '!') : takeImportant base = (base, false) := by
  simp only [takeImportant, Text.withoutFinal_eq_none_iff.mpr last,
    Text.withoutFirst_eq_none_iff.mpr first]

theorem takeImportant_doubled_front (base : Text) :
    (takeImportant ('!' :: '!' :: base)).1.head? = some '!' := by
  unfold takeImportant Text.withoutFinal
  split
  next ends found =>
    split at found
    next =>
      obtain rfl := Option.some.inj found
      cases base with
      | nil => rfl
      | cons character rest => rfl
    next => cases found
  next => rfl

theorem takeNegative_of_mark {text : Text} (first : text.head? = some '!') :
    takeNegative text = (text, false) := by
  have noMinus : text.withoutFirst '-' = none := by
    rw [Text.withoutFirst_eq_none_iff, first]
    decide
  simp only [takeNegative, noMinus]

theorem takeNegative_concat (base : Text) :
    takeNegative (base ++ ['!']) = ((takeNegative base).1 ++ ['!'], (takeNegative base).2) := by
  cases base with
  | nil => rfl
  | cons character rest =>
      by_cases minus : character = '-'
      · simp [takeNegative, Text.withoutFirst, minus]
      · simp [takeNegative, Text.withoutFirst, minus]

theorem core_head?_of_both_ends (base : Text) :
    (ofBase ('!' :: (base ++ ['!']))).core.head? = some '!' := by
  have taken := takeImportant_concat ('!' :: base)
  rw [List.cons_append] at taken
  have markFirst : List.head? ('!' :: base) = some '!' := rfl
  simp only [ofBase, taken, takeNegative_of_mark markFirst, markFirst]

theorem core_head?_of_doubled_front (base : Text) :
    (ofBase ('!' :: '!' :: base)).core.head? = some '!' := by
  have first := takeImportant_doubled_front base
  simp only [ofBase, takeNegative_of_mark first, first]

theorem ofBase_doubled_end (first : base.head? ≠ some '!') (last : base.getLast? ≠ some '!') :
    ofBase (base ++ ['!', '!']) = ⟨(ofBase base).core ++ ['!'], true, (ofBase base).negative⟩ := by
  have marks : base ++ ['!', '!'] = (base ++ ['!']) ++ ['!'] := by simp
  rw [marks]
  simp only [ofBase, takeImportant_concat, takeImportant_of_unmarked first last,
    takeNegative_concat]

end Markers

namespace Modifier

variable {token head : Text} {mark : Char}

theorem cut?_concat_of_none (different : mark ≠ '/') (cut : cut? token = some (head, none)) :
    cut? (token ++ [mark]) = some (head ++ [mark], none) := by
  have only : token.pieces '/' = [] ++ [head] := cut?_eq_some_iff.mp cut
  exact cut?_eq_some_iff.mpr (Text.piecesFrom_concat different only)

theorem cut?_concat_of_some (different : mark ≠ '/') {tail : Text}
    (cut : cut? token = some (head, some tail)) :
    cut? (token ++ [mark]) = some (head, some (tail ++ [mark])) := by
  have two : token.pieces '/' = [head] ++ [tail] := cut?_eq_some_iff.mp cut
  exact cut?_eq_some_iff.mpr (Text.piecesFrom_concat different two)

theorem ofText_concat_mark (text : Text) : ofText (text ++ ['!']) = .named (text ++ ['!']) := by
  have notBracketed : (text ++ ['!']).bracketed? = none := by
    cases found : (text ++ ['!']).bracketed? with
    | none => rfl
    | some inner =>
        have whole := Text.bracketed?_eq_some_iff.mp found
        rw [← List.cons_append] at whole
        exact absurd (List.append_singleton_inj.mp whole).2 (by decide)
  simp only [ofText, notBracketed]

end Modifier

namespace Utility

/-- The mark is the last character of the modifier or, without one, of the bare
value. -/
inductive EndsInMark : Utility → Prop where
  | propertyModifier {name value text : Text} :
      EndsInMark (.property name value (some (.named (text ++ ['!']))))
  | modifier {root text : Text} {value : Option UtilityValue} {negative : Bool} :
      EndsInMark (.functional root value (some (.named (text ++ ['!']))) negative)
  | value {root text : Text} {negative : Bool} :
      EndsInMark (.functional root (some (.named (text ++ ['!']) none)) none negative)

/-- A modifier or a bare value is at the end. -/
def OpenEnded : Utility → Prop
  | static _ _ => False
  | property _ _ modifier => modifier ≠ none
  | functional _ value modifier _ =>
      modifier ≠ none ∨ ∃ word fraction, value = some (.named word fraction)

theorem exists_property_of_ofProperty {rest : Text} {modifier : Option Modifier}
    {utility : Utility} (read : ofProperty rest modifier = .ok utility) :
    ∃ inner name value, rest = inner ++ [']'] ∧ utility = .property name value modifier ∧
      ∀ other, ofProperty rest other = .ok (.property name value other) := by
  unfold ofProperty at read
  cases closed : rest.withoutFinal ']' with
  | none => simp [closed] at read
  | some inner =>
      by_cases starts : inner.head?.any isNameCharacter = true
      · cases cut : inner.cutAtFirst ':' with
        | none => simp [closed, starts, cut] at read
        | some parts =>
            obtain ⟨name, raw⟩ := parts
            by_cases empty : raw = []
            · simp [closed, starts, cut, empty] at read
            · simp only [closed, starts, cut, empty, if_true, if_false, Except.ok.injEq] at read
              refine ⟨inner, name, raw.decode, Text.withoutFinal_eq_some_iff.mp closed,
                read.symm, ?_⟩
              intro other
              simp only [ofProperty, closed, starts, cut, empty, if_true, if_false]
      · simp [closed, starts] at read

theorem exists_readValue {value : Text} {modifier : Option Modifier} {parsed : UtilityValue}
    (read : readValue value modifier = .ok parsed) (other : Option Modifier) :
    ∃ parsed', readValue value other = .ok parsed' := by
  unfold readValue at read ⊢
  cases bracket : afterBracket? value with
  | none => exact ⟨_, rfl⟩
  | some opened =>
      cases closed : opened.withoutFinal ']' with
      | none => simp [bracket, closed] at read
      | some inner =>
          exact ⟨.arbitrary (takeHint inner).1 (.ofRaw (takeHint inner).2), by simp only [closed]⟩

end Utility

namespace Design

variable {design : Design} {core head : Text} {negative : Bool} {utility : Utility}
  {modifier : Option Modifier}

theorem root_of_functionalRoot {root : Text} {value : Option Text}
    (found : design.functionalRoot head = .ok (root, value)) :
    design.hasUtility .functional root = true ∧
      ∃ rest, head = root ++ rest ∧ (rest = [] ∨ rest.head? = some '-' ∨ root = ['@']) := by
  by_cases closed : head.getLast? = some ']'
  · obtain ⟨registered, inner, _, split, _⟩ := (functionalRoot_eq_ok_iff_of_closed closed).mp found
    exact ⟨registered, _, split, .inr (.inl rfl)⟩
  · have rooted := (functionalRoot_eq_ok_iff_of_open closed).mp found
    refine ⟨Text.known_of_longestRoot?_eq_some rooted, ?_⟩
    cases value with
    | none =>
        obtain ⟨_, rfl⟩ := Text.longestRoot?_eq_some_none_iff.mp rooted
        exact ⟨[], by simp, .inl rfl⟩
    | some word =>
        obtain ⟨_, ⟨longest, _⟩ | atRoot⟩ := Text.longestRoot?_eq_some_some_iff.mp rooted
        · exact ⟨'-' :: word, longest.split, .inr (.inl rfl)⟩
        · exact ⟨word, by rw [atRoot.root_eq]; exact atRoot.split, .inr (.inr atRoot.root_eq)⟩

/-- No registered name holds an exclamation mark. -/
def AvoidsMark (design : Design) : Prop :=
  ∀ kind name, design.hasUtility kind name = true → '!' ∉ name

theorem not_readFunctional_of_mark_first (avoids : design.AvoidsMark)
    (first : head.head? = some '!') :
    design.readFunctional head modifier negative ≠ .ok utility := by
  intro read
  obtain ⟨root, _, _, either⟩ := readFunctional_eq_ok_iff.mp read
  obtain ⟨value, found⟩ : ∃ value, design.functionalRoot head = .ok (root, value) := by
    rcases either with ⟨found, _⟩ | ⟨word, _, found, _⟩
    · exact ⟨_, found⟩
    · exact ⟨_, found⟩
  obtain ⟨registered, rest, rfl, behind⟩ := root_of_functionalRoot found
  cases root with
  | nil =>
      rcases behind with rfl | dash | same
      · cases first
      · exact absurd (first.symm.trans dash) (by decide)
      · cases same
  | cons character root =>
      obtain rfl : character = '!' := by simpa using first
      exact avoids _ _ registered List.mem_cons_self

theorem not_readUtility_of_mark_first (avoids : design.AvoidsMark)
    (first : core.head? = some '!') : design.readUtility core negative ≠ .ok utility := by
  intro read
  rcases readUtility_eq_ok_iff.mp read with ⟨⟨registered, _⟩, _⟩ | ⟨_, head, tail, cut, either⟩
  · exact avoids _ _ registered (List.mem_of_mem_head? first)
  · have headFirst : head.head? = some '!' := by
      have whole := Modifier.eq_of_cut?_eq_some cut
      cases head with
      | nil => cases tail <;> simp [whole] at first
      | cons character head => simpa [whole] using first
    rcases either with ⟨rest, rfl, _⟩ | ⟨_, functional⟩
    · exact absurd headFirst (by simp)
    · exact not_readFunctional_of_mark_first avoids headFirst functional

theorem endsInMark_of_readUtility (avoids : design.AvoidsMark)
    (read : design.readUtility (core ++ ['!']) negative = .ok utility) : utility.EndsInMark := by
  rcases readUtility_eq_ok_iff.mp read with ⟨⟨registered, _⟩, _⟩ | ⟨_, head, tail, cut, either⟩
  · exact absurd (by simp) (avoids _ _ registered)
  have whole := Modifier.eq_of_cut?_eq_some cut
  cases tail with
  | some tail =>
      obtain ⟨text, rfl, _⟩ := Text.eq_concat_of_concat_eq (by decide) whole
      rw [Option.map_some, Modifier.ofText_concat_mark] at either
      rcases either with ⟨rest, _, property⟩ | ⟨_, functional⟩
      · obtain ⟨_, _, _, _, rfl, _⟩ := Utility.exists_property_of_ofProperty property
        exact .propertyModifier
      · obtain ⟨_, _, rfl, _⟩ := readFunctional_eq_ok_iff.mp functional
        exact .modifier
  | none =>
      obtain rfl : core ++ ['!'] = head := by simpa using whole
      rcases either with ⟨rest, split, property⟩ | ⟨_, functional⟩
      · -- Brackets that end in the mark are not closed.
        obtain ⟨inner, _, _, rfl, _⟩ := Utility.exists_property_of_ofProperty property
        rw [← List.cons_append] at split
        exact absurd (List.append_singleton_inj.mp split).2 (by decide)
      · have open_end : (core ++ ['!']).getLast? ≠ some ']' := by simp
        obtain ⟨root, value, rfl, either⟩ := readFunctional_eq_ok_iff.mp functional
        simp only [functionalRoot_eq_ok_iff_of_open open_end] at either
        rcases either with ⟨found, _⟩ | ⟨word, parsed, found, nonempty, parsedRead, rfl⟩
        · obtain ⟨registered, _⟩ := Text.longestRoot?_eq_some_none_iff.mp found
          exact absurd (by simp) (avoids _ _ registered)
        · have ends := getLast?_word_of_longestRoot? found nonempty
          rw [List.getLast?_concat] at ends
          obtain ⟨front, rfl⟩ := List.getLast?_eq_some_iff.mp ends
          have wordOpen : (front ++ ['!']).getLast? ≠ some ']' := by simp
          obtain ⟨_, rfl⟩ := (Utility.readValue_eq_ok_iff_of_open wordOpen).mp parsedRead
          exact .value

theorem word_of_readFunctional {root word : Text} {fraction : Option Text}
    (read : design.readFunctional head modifier negative =
      .ok (.functional root (some (.named word fraction)) modifier negative)) :
    head.longestRoot? (design.hasUtility .functional) = some (root, some word) ∧
      word ≠ [] ∧ ¬word.HasUnescaped '[' := by
  obtain ⟨_, _, same, either⟩ := readFunctional_eq_ok_iff.mp read
  obtain ⟨rfl, rfl, _, _⟩ := Utility.functional.inj same
  rcases either with ⟨_, absent⟩ | ⟨text, parsed, found, nonempty, parsedRead, value_eq⟩
  · cases absent
  obtain rfl := Option.some.inj value_eq
  by_cases closed : head.getLast? = some ']'
  · obtain ⟨_, inner, text_eq, _⟩ := (functionalRoot_eq_ok_iff_of_closed closed).mp found
    obtain rfl := Option.some.inj text_eq
    obtain ⟨_, _, _, arbitrary⟩ := Utility.readValue_bracket_eq_ok_iff.mp parsedRead
    cases arbitrary
  · have rooted := (functionalRoot_eq_ok_iff_of_open closed).mp found
    have textOpen : text.getLast? ≠ some ']' := by
      rw [getLast?_word_of_longestRoot? rooted nonempty]
      exact closed
    obtain ⟨noBracket, named⟩ := (Utility.readValue_eq_ok_iff_of_open textOpen).mp parsedRead
    obtain ⟨rfl, _⟩ := UtilityValue.named.inj named
    exact ⟨rooted, nonempty, noBracket⟩

theorem readFunctional_concat_mark (avoids : design.AvoidsMark) {root word : Text}
    {fraction : Option Text}
    (read : design.readFunctional head none negative =
      .ok (.functional root (some (.named word fraction)) none negative)) :
    design.readFunctional (head ++ ['!']) none negative =
      .ok (.functional root (some (.named (word ++ ['!']) none)) none negative) := by
  obtain ⟨rooted, nonempty, noBracket⟩ := word_of_readFunctional read
  have unknown : design.hasUtility .functional (head ++ ['!']) = false := by
    rw [← Bool.not_eq_true]
    intro registered
    exact avoids _ _ registered (by simp)
  have grown := Text.longestRoot?_concat (by decide) unknown rooted
  have stillNoBracket : ¬(word ++ ['!']).HasUnescaped '[' :=
    fun bracket => noBracket (bracket.of_concat (by decide))
  exact readFunctional_of_word (by simp) grown (by simp) stillNoBracket

theorem exists_readFunctional
    (read : design.readFunctional head modifier negative = .ok utility)
    (other : Option Modifier) :
    ∃ utility', design.readFunctional head other negative = .ok utility' := by
  obtain ⟨root, value, _, either⟩ := readFunctional_eq_ok_iff.mp read
  rcases either with ⟨found, _⟩ | ⟨word, _, found, nonempty, parsedRead, _⟩
  · exact ⟨_, readFunctional_eq_ok_iff.mpr ⟨root, none, rfl, .inl ⟨found, rfl⟩⟩⟩
  · obtain ⟨parsed, otherRead⟩ := Utility.exists_readValue parsedRead other
    exact ⟨_, readFunctional_eq_ok_iff.mpr
      ⟨root, some parsed, rfl, .inr ⟨word, parsed, found, nonempty, otherRead, rfl⟩⟩⟩

/-- A modifier or a bare value takes in a mark behind it. -/
theorem exists_readUtility_concat_mark (avoids : design.AvoidsMark)
    (read : design.readUtility core negative = .ok utility) (openEnded : utility.OpenEnded) :
    ∃ longer, design.readUtility (core ++ ['!']) negative = .ok longer := by
  have notStatic : ¬(design.hasUtility .static (core ++ ['!']) = true ∧ '[' ∉ core ++ ['!']) :=
    fun ⟨registered, _⟩ => avoids _ _ registered (by simp)
  rcases readUtility_eq_ok_iff.mp read with ⟨_, rfl⟩ | ⟨_, head, tail, cut, either⟩
  · exact openEnded.elim
  cases tail with
  | some tail =>
      have longerCut := Modifier.cut?_concat_of_some (show '!' ≠ '/' by decide) cut
      rcases either with ⟨rest, opened, property⟩ | ⟨notProperty, functional⟩
      · obtain ⟨_, name, value, _, _, anyModifier⟩ := Utility.exists_property_of_ofProperty property
        exact ⟨_, readUtility_eq_ok_iff.mpr
          (.inr ⟨notStatic, head, _, longerCut, .inl ⟨rest, opened, anyModifier _⟩⟩)⟩
      · obtain ⟨longer, longerRead⟩ := exists_readFunctional functional
          (some (.ofText (tail ++ ['!'])))
        exact ⟨longer, readUtility_eq_ok_iff.mpr
          (.inr ⟨notStatic, head, _, longerCut, .inr ⟨notProperty, longerRead⟩⟩)⟩
  | none =>
      have longerCut := Modifier.cut?_concat_of_none (show '!' ≠ '/' by decide) cut
      rcases either with ⟨rest, _, property⟩ | ⟨notProperty, functional⟩
      · obtain ⟨_, _, _, _, rfl, _⟩ := Utility.exists_property_of_ofProperty property
        exact absurd rfl openEnded
      · obtain ⟨root, value, rfl, _⟩ := readFunctional_eq_ok_iff.mp functional
        obtain ⟨word, fraction, rfl⟩ := openEnded.resolve_left (by simp)
        have longerRead := readFunctional_concat_mark avoids functional
        have notPropertyEither : (head ++ ['!']).head? ≠ some '[' := by
          cases head with
          | nil => decide
          | cons character head => exact notProperty
        exact ⟨_, readUtility_eq_ok_iff.mpr
          (.inr ⟨notStatic, _, none, longerCut, .inr ⟨notPropertyEither, longerRead⟩⟩)⟩

/-- Of two marks one is taken off and the other is read as text.  With it at the
front nothing is read.  At the end it is part of the modifier or of the bare
value, and a candidate that ends in one of these is read with both marks. -/
theorem second_mark_is_read_as_text (avoids : design.AvoidsMark) {base : Text}
    (whole : base.pieces ':' = [base]) (first : base.head? ≠ some '!')
    (last : base.getLast? ≠ some '!') :
    (design.readCandidate ('!' :: (base ++ ['!']))).result = none ∧
      (design.readCandidate ('!' :: '!' :: base)).result = none ∧
      (∀ candidate, (design.readCandidate (base ++ ['!', '!'])).result = some candidate →
        candidate.important = true ∧ candidate.utility.EndsInMark) ∧
      ∀ candidate, (design.readCandidate base).result = some candidate →
        candidate.utility.OpenEnded →
          (design.readCandidate (base ++ ['!', '!'])).result.isSome = true := by
  have marked (text : Text) (textWhole : text.pieces ':' = [text]) :
      Text.pieces ':' ('!' :: text) = ['!' :: text] :=
    Text.pieces_cons_of_whole (by decide) (by decide) (by decide) textWhole
  have wholeEnd : (base ++ ['!']).pieces ':' = [base ++ ['!']] :=
    Text.pieces_concat_of_whole (by decide) whole
  have wholeEnds : (base ++ ['!', '!']).pieces ':' = [base ++ ['!', '!']] := by
    have again := @Text.pieces_concat_of_whole ':' '!' _ (by decide) wholeEnd
    simpa using again
  have rejected {text : Text} (textWhole : text.pieces ':' = [text])
      (markFirst : (Markers.ofBase text).core.head? = some '!') :
      (design.readCandidate text).result = none := by
    rw [Option.eq_none_iff_forall_ne_some]
    intro candidate found
    obtain ⟨_, read, _⟩ := (readCandidate_base_result_eq_some_iff textWhole).mp found
    exact not_readUtility_of_mark_first avoids markFirst read
  have doubled := Markers.ofBase_doubled_end first last
  refine ⟨?_, ?_, ?_, ?_⟩
  · exact rejected (marked _ wholeEnd) (Markers.core_head?_of_both_ends base)
  · exact rejected (marked _ (marked _ whole)) (Markers.core_head?_of_doubled_front base)
  · intro candidate found
    obtain ⟨_, read, important⟩ := (readCandidate_base_result_eq_some_iff wholeEnds).mp found
    rw [doubled] at read important
    exact ⟨important, endsInMark_of_readUtility avoids read⟩
  · intro candidate found openEnded
    obtain ⟨_, read, _⟩ := (readCandidate_base_result_eq_some_iff whole).mp found
    obtain ⟨longer, longerRead⟩ := exists_readUtility_concat_mark avoids read openEnded
    rw [Option.isSome_iff_exists]
    refine ⟨⟨longer, [], true⟩, ?_⟩
    apply (readCandidate_base_result_eq_some_iff wholeEnds).mpr
    rw [doubled]
    exact ⟨rfl, longerRead, rfl⟩

/-- The design of one functional utility. -/
def margins : Design :=
  (({} : Vocabulary).addFunctional "mx".toList).design

theorem margins_avoidsMark : margins.AvoidsMark := by
  intro kind name registered
  cases kind with
  | static => cases registered
  | functional =>
      obtain rfl : name = ['m', 'x'] := by
        simpa [margins, Vocabulary.design, Vocabulary.hasUtility, Vocabulary.addFunctional,
          Table.contains] using registered
      decide

theorem second_mark_is_read_as_text_margin :
    let base : Text := "mx-4".toList
    margins.AvoidsMark ∧ base.pieces ':' = [base] ∧ base.head? ≠ some '!' ∧
      base.getLast? ≠ some '!' ∧
      (margins.readCandidate "!mx-4!".toList).result = none ∧
      (margins.readCandidate "!!mx-4".toList).result = none ∧
      (margins.readCandidate "mx-4!!".toList).result.isSome = true := by
  intro base
  have whole : base.pieces ':' = [base] := rfl
  have first : base.head? ≠ some '!' := by decide
  have last : base.getLast? ≠ some '!' := by decide
  obtain ⟨bothEnds, doubledFront, _, doubledEnd⟩ :=
    second_mark_is_read_as_text margins_avoidsMark whole first last
  refine ⟨margins_avoidsMark, whole, first, last, bothEnds, doubledFront, ?_⟩
  exact doubledEnd ⟨.functional "mx".toList (some (.named "4".toList none)) none false, [], false⟩
    rfl (.inr ⟨"4".toList, none, rfl⟩)

/-- A name with a bare value takes two marks at its end. -/
theorem second_mark_is_not_always_rejected :
    let base : Text := "mx-4".toList
    margins.AvoidsMark ∧ base.pieces ':' = [base] ∧ base.head? ≠ some '!' ∧
      base.getLast? ≠ some '!' ∧
      (margins.readCandidate base).result.isSome = true ∧
      (margins.readCandidate (base ++ "!!".toList)).result =
        some ⟨.functional "mx".toList (some (.named "4!".toList none)) none false, [], true⟩ :=
  ⟨margins_avoidsMark, rfl, by decide, by decide, rfl, rfl⟩

end Design

end UtilityClass
