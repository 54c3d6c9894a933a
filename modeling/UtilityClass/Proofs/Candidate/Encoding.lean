import UtilityClass.Proofs.Candidate.Functional
import UtilityClass.Proofs.Text.Encoding

/-!
# Values in brackets

A value with balanced brackets and quotes can be written behind any registered
root.  It is encoded and put in brackets, with or without a type hint, and the
candidate that is read has the value as it was.
-/

namespace UtilityClass

/-- A root that stands at the start of a class name as it is. -/
structure Text.PlainRoot (root : Text) : Prop where
  plain : root.Plain
  noColon : ':' ∉ root
  noMarker : root.head? ≠ some '!' ∧ root.head? ≠ some '-'

namespace ArbitraryText

theorem ofRaw_encode {value : Text} (noBackslash : '\\' ∉ value)
    (noIdent : ¬['-', '-'] <+: value) : ofRaw value.encode = ⟨value, none⟩ := by
  have literal : ∀ character ∈ ['-', '-'], BracketState.Literal character := by
    simp [BracketState.Literal]
  have notCustom : ¬isCustomProperty value.encode = true := by
    rw [isCustomProperty, List.isPrefixOf_iff_prefix, Text.encode,
      Text.prefix_encodeFrom_iff literal]
    exact noIdent
  rw [ofRaw, if_neg notCustom, Text.decode_encode noBackslash]

end ArbitraryText

namespace Markers

theorem ofBase_eq {base : Text} (last : base.getLast? ≠ some '!')
    (first : base.head? ≠ some '!' ∧ base.head? ≠ some '-') :
    ofBase base = ⟨base, false, false⟩ := by
  have noFinal : base.withoutFinal '!' = none := Text.withoutFinal_eq_none_iff.mpr last
  have noFirst : base.withoutFirst '!' = none := Text.withoutFirst_eq_none_iff.mpr first.1
  have noMinus : base.withoutFirst '-' = none := Text.withoutFirst_eq_none_iff.mpr first.2
  simp [ofBase, takeImportant, takeNegative, noFinal, noFirst, noMinus]

end Markers

namespace Utility

theorem literal_of_isNameCharacter {character : Char}
    (isName : isNameCharacter character = true) : BracketState.Literal character := by
  refine ⟨?_, ?_, ?_⟩
  · rintro rfl
    exact absurd isName (by decide)
  · rintro rfl
    exact absurd isName (by decide)
  · rintro rfl
    exact absurd isName (by decide)

theorem not_mem_marks_of_isNameCharacter {character : Char}
    (isName : isNameCharacter character = true) : character ∉ Nesting.marks := by
  intro member
  have noName : (Nesting.marks.all fun mark => !isNameCharacter mark) = true := rfl
  have notName := List.all_eq_true.mp noName character member
  simp [isName] at notName

theorem hinted_encode {value : Text}
    (unhinted : ∀ name rest, value = name ++ ':' :: rest →
      ∃ character ∈ name, isNameCharacter character = false) :
    Hinted value.encode none value.encode := by
  apply Hinted.unhinted
  intro name rest split
  apply Classical.byContradiction
  intro named
  have allNamed : ∀ character ∈ name, isNameCharacter character = true := by
    intro character member
    cases isName : isNameCharacter character with
    | true => rfl
    | false => exact absurd ⟨character, member, isName⟩ named
  have literal : ∀ character ∈ name ++ [':'], BracketState.Literal character := by
    intro character member
    rcases List.mem_append.mp member with inName | colon
    · exact literal_of_isNameCharacter (allNamed character inName)
    · obtain rfl := List.mem_singleton.mp colon
      decide
  have written : name ++ [':'] <+: value.encode := ⟨rest, by simp [split]⟩
  obtain ⟨later, same⟩ := (Text.prefix_encodeFrom_iff literal).mp written
  exact named (unhinted name later (by simpa using same.symm))

theorem not_dashBracket_infix_encode {value : Text} (absent : ¬['-', '['] <:+: value) :
    ¬['-', '['] <:+: value.encode := by
  intro inside
  have literal : ∀ character ∈ ['-', '['], BracketState.Literal character := by
    simp [BracketState.Literal]
  exact absent (Text.infix_of_infix_encodeFrom (List.cons_ne_nil _ _) literal inside)

theorem not_dashBracket_infix_hint {hint raw : Text}
    (named : ∀ character ∈ hint, isNameCharacter character = true)
    (absent : ¬['-', '['] <:+: raw) : ¬['-', '['] <:+: hint ++ ':' :: raw := by
  induction hint with
  | nil =>
      rw [List.nil_append, List.infix_cons_iff, dashBracket_prefix_cons_iff]
      rintro (⟨dash, _⟩ | inRaw)
      · cases dash
      · exact absent inRaw
  | cons character rest induction =>
      obtain ⟨_, restNamed⟩ := List.forall_mem_cons.mp named
      rw [List.cons_append, List.infix_cons_iff, dashBracket_prefix_cons_iff]
      rintro (⟨_, bracket⟩ | inRest)
      · cases rest with
        | nil => cases bracket
        | cons second rest =>
            obtain rfl : second = '[' := by simpa using bracket
            exact absurd (restNamed '[' List.mem_cons_self) (by decide)
      · exact induction restNamed inRest

end Utility

namespace Design

variable {design : Design} {root : Text}

/-- Brackets behind a registered root are read with the type hint they have. -/
theorem readCandidate_brackets_eq_some (registered : design.hasUtility .functional root = true)
    (plainRoot : root.PlainRoot) {inner raw : Text} {hint : Option Text}
    (balanced : inner.Balanced) (last : ¬['-', '['] <:+: inner)
    (hinted : Utility.Hinted inner hint raw) :
    (design.readCandidate (root ++ '-' :: '[' :: (inner ++ [']']))).result =
      some ⟨.functional root (some (.arbitrary hint (.ofRaw raw))) none false, [], false⟩ := by
  let base := root ++ '-' :: '[' :: (inner ++ [']'])
  have plain := plainRoot.plain
  have colonWhole : base.Whole ':' :=
    .behind_root plain.unmarked plainRoot.noColon (by decide) (.of_balanced balanced (by decide))
  have slashWhole : base.Whole '/' :=
    .behind_root plain.unmarked plain.noSlash (by decide) (.of_balanced balanced (by decide))
  have form : design.BracketForm base root (some (.arbitrary hint (.ofRaw raw))) :=
    ⟨registered, inner, hint, raw, rfl, last, hinted, rfl⟩
  have closed : base.getLast? = some ']' := form.getLast?_eq
  have first : base.head? = root.head? := List.head?_append_of_ne_nil _ plain.nonempty
  have marked : Markers.ofBase base = ⟨base, false, false⟩ := by
    apply Markers.ofBase_eq
    · simp [closed]
    · rw [first]
      exact plainRoot.noMarker
  have notStatic : ¬(design.hasUtility .static base = true ∧ '[' ∉ base) := by
    rintro ⟨_, absent⟩
    exact absent (by simp [base])
  have notProperty : base.head? ≠ some '[' := by
    rw [first]
    exact plain.head?_ne (by decide)
  apply (readCandidate_base_result_eq_some_iff (colonWhole.pieces_eq (by decide))).mpr
  rw [marked]
  refine ⟨rfl, ?_, rfl⟩
  apply (readUtility_eq_readFunctional notStatic notProperty).mpr
  refine ⟨base, none, Modifier.cut?_eq_some_iff.mpr (slashWhole.pieces_eq (by decide)), ?_⟩
  apply readFunctional_eq_ok_iff.mpr
  exact ⟨root, _, rfl, (bracketForm_iff_of_closed closed).mpr form⟩

/-- Every balanced value is what is read from its encoding in brackets.  A type
hint may precede it, and has to if the value looks like one with a hint. -/
theorem readCandidate_encode_eq_some (registered : design.hasUtility .functional root = true)
    (plainRoot : root.PlainRoot) {value : Text} (noBackslash : '\\' ∉ value)
    (noDashBracket : ¬['-', '['] <:+: value) (noIdent : ¬['-', '-'] <+: value)
    (balanced : value.Balanced) :
    ((∀ name rest, value = name ++ ':' :: rest →
          ∃ character ∈ name, Utility.isNameCharacter character = false) →
        (design.readCandidate (root ++ '-' :: '[' :: (value.encode ++ [']']))).result =
          some ⟨.functional root (some (.arbitrary none ⟨value, none⟩)) none false, [], false⟩) ∧
      ∀ hint : Text, hint ≠ [] → (∀ character ∈ hint, Utility.isNameCharacter character = true) →
        (design.readCandidate
            (root ++ '-' :: '[' :: (hint ++ ':' :: (value.encode ++ [']'])))).result =
          some ⟨.functional root (some (.arbitrary (some hint) ⟨value, none⟩)) none false,
            [], false⟩ := by
  have encodeBalanced := balanced.encode noBackslash
  have encodeLast := Utility.not_dashBracket_infix_encode noDashBracket
  rw [← ArbitraryText.ofRaw_encode noBackslash noIdent]
  constructor
  · intro unhinted
    exact readCandidate_brackets_eq_some registered plainRoot encodeBalanced encodeLast
      (Utility.hinted_encode unhinted)
  · intro hint nonempty named
    have hintBalanced : Text.Balanced (hint ++ ':' :: value.encode) := by
      have hintUnmarked : hint.Unmarked := by
        intro character member
        exact Utility.not_mem_marks_of_isNameCharacter (named character member)
      have colonUnmarked : Text.Unmarked [':'] := by decide
      exact hintUnmarked.balanced.append (colonUnmarked.balanced.append encodeBalanced)
    have hintLast := Utility.not_dashBracket_infix_hint named encodeLast
    have read := readCandidate_brackets_eq_some registered plainRoot hintBalanced hintLast
      (.hint nonempty named)
    simpa using read

/-- A value with a colon, an underscore, a `url(` part and a quoted bracket. -/
theorem readCandidate_encode_eq_some_quoted_bracket :
    let design := (({} : Vocabulary).addFunctional "bg".toList).design
    let value := "(a_b:c) url(d_e f) 'x]'".toList
    design.hasUtility .functional "bg".toList = true ∧ Text.PlainRoot "bg".toList ∧
      '\\' ∉ value ∧ ¬['-', '['] <:+: value ∧ ¬['-', '-'] <+: value ∧ Text.Balanced value ∧
      (∀ name rest, value = name ++ ':' :: rest →
        ∃ character ∈ name, Utility.isNameCharacter character = false) ∧
      (∀ character ∈ "image".toList, Utility.isNameCharacter character = true) ∧
      (design.readCandidate "bg-[(a\\_b:c)_url(d_e f)_'x]']".toList).result =
        some ⟨.functional "bg".toList (some (.arbitrary none ⟨value, none⟩)) none false,
          [], false⟩ ∧
      (design.readCandidate "bg-[image:(a\\_b:c)_url(d_e f)_'x]']".toList).result =
        some ⟨.functional "bg".toList (some (.arbitrary (some "image".toList) ⟨value, none⟩))
          none false, [], false⟩ := by
  intro design value
  have registered : design.hasUtility .functional "bg".toList = true := rfl
  have plainRoot : Text.PlainRoot "bg".toList :=
    ⟨⟨by decide, by decide, by decide⟩, by decide, by decide⟩
  have noBackslash : '\\' ∉ value := by decide
  have noDashBracket : ¬['-', '['] <:+: value := Utility.cutAtBracket_eq_none_iff.mp rfl
  have noIdent : ¬['-', '-'] <+: value := by decide
  have balanced : Text.Balanced value := ⟨by decide, rfl⟩
  have unhinted : ∀ name rest, value = name ++ ':' :: rest →
      ∃ character ∈ name, Utility.isNameCharacter character = false := by
    intro name rest split
    cases name with
    | nil => cases (List.cons_eq_cons.mp split).1
    | cons first others =>
        obtain ⟨rfl, _⟩ := List.cons_eq_cons.mp split
        exact ⟨_, List.mem_cons_self, rfl⟩
  have named : ∀ character ∈ "image".toList, Utility.isNameCharacter character = true :=
    List.all_eq_true.mp rfl
  obtain ⟨alone, hinted⟩ := readCandidate_encode_eq_some registered plainRoot noBackslash
    noDashBracket noIdent balanced
  exact ⟨registered, plainRoot, noBackslash, noDashBracket, noIdent, balanced, unhinted, named,
    alone unhinted, hinted "image".toList (List.cons_ne_nil 'i' "mage".toList) named⟩

end Design

end UtilityClass
