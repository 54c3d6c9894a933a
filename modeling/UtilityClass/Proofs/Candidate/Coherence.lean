import UtilityClass.Proofs.Candidate.Property
import UtilityClass.Proofs.Variant.Nodes

/-!
# Coherent fields

Several fields of a candidate are read from the same characters: the fraction
from the value and the modifier, the name of a custom property and the value
that uses it from one pair of brackets.  Each field is tied here to its place in
the input, and the fields to each other.
-/

namespace UtilityClass

namespace ArbitraryText

/-- What brackets around `raw` stand for, where they are part of `input`.  The
name of a custom property is kept as it is written and used in the value.  Any
other text is decoded. -/
structure ReadFrom (content : ArbitraryText) (input raw : Text) : Prop where
  custom : ∀ name, content.dashedIdent = some name →
    name = raw ∧ ['-', '-'] <+: name ∧ name <:+: input ∧
      content.value = "var(".toList ++ name ++ ")".toList
  decoded : content.dashedIdent = none →
    content.value = raw.decode ∧ ¬['-', '-'] <+: raw ∧ ¬['-', '-'] <+: content.value

theorem isCustomProperty_iff {raw : Text} :
    isCustomProperty raw = true ↔ ['-', '-'] <+: raw :=
  List.isPrefixOf_iff_prefix

theorem readFrom_ofRaw {input raw : Text} (inside : raw <:+: input) :
    (ofRaw raw).ReadFrom input raw := by
  by_cases isCustom : isCustomProperty raw = true
  · have content_eq : ofRaw raw = ⟨"var(".toList ++ raw ++ ")".toList, some raw⟩ := by
      simp [ofRaw, isCustom]
    rw [content_eq]
    constructor
    · intro name found
      obtain rfl := Option.some.inj found
      exact ⟨rfl, isCustomProperty_iff.mp isCustom, inside, rfl⟩
    · intro absent
      cases absent
  · have content_eq : ofRaw raw = ⟨raw.decode, none⟩ := by simp [ofRaw, isCustom]
    have noDashes : ¬['-', '-'] <+: raw := fun dashes => isCustom (isCustomProperty_iff.mpr dashes)
    have noDashesDecoded : ¬['-', '-'] <+: raw.decode := by
      rw [Text.prefix_decode_iff (by simp [BracketState.Literal])]
      exact noDashes
    rw [content_eq]
    constructor
    · intro name found
      cases found
    · intro _
      exact ⟨rfl, noDashes, noDashesDecoded⟩

end ArbitraryText

namespace Modifier

theorem ofText_eq_named {text word : Text} (read : ofText text = .named word) : word = text := by
  unfold ofText at read
  split at read
  next => cases read
  next => exact (Modifier.named.inj read).symm

theorem ofText_eq_arbitrary {text : Text} {content : ArbitraryText}
    (read : ofText text = .arbitrary content) :
    ∃ raw, text = raw.inBrackets ∧ content = .ofRaw raw := by
  unfold ofText at read
  split at read
  next raw bracketed =>
    exact ⟨raw, Text.bracketed?_eq_some_iff.mp bracketed, (Modifier.arbitrary.inj read).symm⟩
  next => cases read

theorem brackets_of_cut?_eq_some {token head : Text} {tail : Option Text}
    {content : ArbitraryText} (cut : cut? token = some (head, tail))
    (modifier_eq : tail.map ofText = some (.arbitrary content)) :
    ∃ raw, '/' :: raw.inBrackets <:+ token ∧ content = .ofRaw raw := by
  obtain ⟨text, rfl, read⟩ := Option.map_eq_some_iff.mp modifier_eq
  obtain ⟨raw, rfl, content_eq⟩ := ofText_eq_arbitrary read
  refine ⟨raw, ?_, content_eq⟩
  rw [eq_of_cut?_eq_some cut]
  exact List.suffix_append head _

end Modifier

namespace UtilityValue

/-- A bare value with a bare modifier, and nothing else, has a fraction.  It is
the last part of the value over the modifier, which is how the base ends. -/
structure FractionFits (value : UtilityValue) (core : Text) (modifier : Option Modifier) :
    Prop where
  present_iff : (∃ word fraction, value = .named word (some fraction)) ↔
    (∃ word fraction, value = .named word fraction) ∧ ∃ text, modifier = some (.named text)
  fits : ∀ word fraction text, value = .named word (some fraction) →
    modifier = some (.named text) →
    ∃ part, Text.LastPart '-' word part ∧ fraction = part ++ '/' :: text ∧ fraction <:+ core

end UtilityValue

/-- What the fields of a candidate owe to the input it was read from.  The base
of the input without its markers is `core`. -/
structure Candidate.Coherent (candidate : Candidate) (input core : Text) : Prop where
  fraction : ∀ root value modifier negative,
    candidate.utility = .functional root (some value) modifier negative →
    value.FractionFits core modifier
  /-- A type hint is a run of lower-case letters and dashes. -/
  hint : ∀ root hint content modifier negative,
    candidate.utility = .functional root (some (.arbitrary (some hint) content)) modifier
      negative →
    hint ≠ [] ∧ ∀ character ∈ hint, character = '-' ∨ ('a' ≤ character ∧ character ≤ 'z')
  /-- A value in brackets stands behind its root and is read after its hint. -/
  value : ∀ root hint content modifier negative,
    candidate.utility = .functional root (some (.arbitrary hint content)) modifier negative →
    ∃ inner raw, root ++ '-' :: Text.inBrackets inner <+: core ∧
      Utility.Hinted inner hint raw ∧ content.ReadFrom input raw
  /-- A modifier in brackets is at the end of the base. -/
  modifier : ∀ content, candidate.utility.modifier? = some (.arbitrary content) →
    ∃ raw, '/' :: raw.inBrackets <:+ core ∧ content.ReadFrom input raw
  variantModifier : ∀ variant ∈ candidate.variants, ∀ root value content compounds,
    Variant.functional root value (some (.arbitrary content)) compounds ∈ variant.nodes →
    ∃ raw, '/' :: raw.inBrackets <:+: input ∧ content.ReadFrom input raw

namespace Utility

theorem exists_fraction?_iff {word : Text} {modifier : Option Modifier} :
    (∃ fraction, fraction? word modifier = some fraction) ↔
      ∃ text, modifier = some (.named text) := by
  match modifier with
  | none => simp [fraction?]
  | some (.named text) => simp [fraction?]
  | some (.arbitrary content) => simp [fraction?]

theorem fractionFits_named {core head word : Text} {tail : Option Text}
    (cut : Modifier.cut? core = some (head, tail)) (atEnd : word <:+ head) :
    (UtilityValue.named word (fraction? word (tail.map .ofText))).FractionFits core
      (tail.map .ofText) := by
  constructor
  · constructor
    · intro ⟨_, fraction, value_eq⟩
      obtain ⟨_, fraction_eq⟩ := UtilityValue.named.inj value_eq
      exact ⟨⟨_, _, rfl⟩, exists_fraction?_iff.mp ⟨fraction, fraction_eq⟩⟩
    · intro ⟨_, bare⟩
      obtain ⟨fraction, fraction_eq⟩ := exists_fraction?_iff.mpr bare
      exact ⟨word, fraction, by rw [fraction_eq]⟩
  · intro word' fraction text value_eq modifier_eq
    obtain ⟨rfl, fraction_eq⟩ := UtilityValue.named.inj value_eq
    rw [modifier_eq] at fraction_eq
    obtain rfl := Option.some.inj fraction_eq
    obtain ⟨tail, rfl, read⟩ := Option.map_eq_some_iff.mp modifier_eq
    obtain rfl := Modifier.ofText_eq_named read
    have last := Text.lastPart_afterLast '-' word
    obtain ⟨front, head_eq⟩ := last.suffix.trans atEnd
    refine ⟨_, last, rfl, front, ?_⟩
    rw [Modifier.eq_of_cut?_eq_some cut, ← head_eq]
    simp

theorem fractionFits_arbitrary {core : Text} {hint : Option Text} {content : ArbitraryText}
    {modifier : Option Modifier} :
    (UtilityValue.arbitrary hint content).FractionFits core modifier := by
  constructor
  · constructor
    · intro ⟨_, _, same⟩
      cases same
    · intro ⟨⟨_, _, same⟩, _⟩
      cases same
  · intro _ _ _ same
    cases same

theorem Hinted.name_of_hint {inner hint raw : Text} (hinted : Hinted inner (some hint) raw) :
    hint ≠ [] ∧ ∀ character ∈ hint, character = '-' ∨ ('a' ≤ character ∧ character ≤ 'z') := by
  cases hinted with
  | hint nonempty named =>
      exact ⟨nonempty, fun character member => isNameCharacter_iff.mp (named character member)⟩

theorem Hinted.infix_raw {inner raw : Text} {hint : Option Text}
    (hinted : Hinted inner hint raw) : raw <:+: inner := by
  cases hinted with
  | hint _ _ => exact ((List.suffix_cons ':' raw).trans (List.suffix_append _ _)).isInfix
  | colonAlone => exact (List.suffix_cons ':' raw).isInfix
  | unhinted _ => exact List.infix_rfl

end Utility

namespace Design

variable {design : Design} {core head root : Text} {modifier : Option Modifier}
  {negative sign : Bool} {value : Option UtilityValue} {utility : Utility}

theorem exists_cut_of_readUtility
    (read : design.readUtility core negative = .ok (.functional root value modifier sign)) :
    ∃ head tail, Modifier.cut? core = some (head, tail) ∧ modifier = tail.map .ofText ∧
      design.readFunctional head modifier negative =
        .ok (.functional root value modifier sign) := by
  rcases readUtility_eq_ok_iff.mp read with ⟨_, isStatic⟩ | ⟨_, head, tail, cut, either⟩
  · cases isStatic
  · rcases either with ⟨_, _, property⟩ | ⟨_, functional⟩
    · obtain ⟨_, _, _, isProperty⟩ := Utility.ofProperty_eq_ok_iff.mp property
      cases isProperty
    · obtain ⟨_, _, same, _⟩ := readFunctional_eq_ok_iff.mp functional
      obtain ⟨_, _, modifier_eq, _⟩ := Utility.functional.inj same
      exact ⟨head, tail, cut, modifier_eq, modifier_eq ▸ functional⟩

theorem value_of_readFunctional {found : UtilityValue}
    (read : design.readFunctional head modifier negative =
      .ok (.functional root (some found) modifier sign)) :
    (∃ word, word <:+ head ∧ found = .named word (Utility.fraction? word modifier)) ∨
      ∃ inner hint raw, head = root ++ '-' :: Text.inBrackets inner ∧
        Utility.Hinted inner hint raw ∧ found = .arbitrary hint (.ofRaw raw) := by
  obtain ⟨_, _, same, either⟩ := readFunctional_eq_ok_iff.mp read
  obtain ⟨rfl, rfl, _, _⟩ := Utility.functional.inj same
  rcases either with ⟨_, absent⟩ | ⟨word, parsed, rooted, nonempty, parsedRead, value_eq⟩
  · cases absent
  obtain rfl := Option.some.inj value_eq
  by_cases closed : head.getLast? = some ']'
  · obtain ⟨_, inner, word_eq, split, _⟩ := (functionalRoot_eq_ok_iff_of_closed closed).mp rooted
    obtain rfl := Option.some.inj word_eq
    obtain ⟨hint, raw, hinted, found_eq⟩ := Utility.readValue_bracket_eq_ok_iff.mp parsedRead
    exact .inr ⟨inner, hint, raw, split, hinted, found_eq⟩
  · have longest := (functionalRoot_eq_ok_iff_of_open closed).mp rooted
    have wordOpen : word.getLast? ≠ some ']' := by
      rw [getLast?_word_of_longestRoot? longest nonempty]
      exact closed
    obtain ⟨_, found_eq⟩ := (Utility.readValue_eq_ok_iff_of_open wordOpen).mp parsedRead
    exact .inl ⟨word, Text.value_suffix_of_longestRoot?_eq_some longest, found_eq⟩

/-- The value of what is read is the bare end of its head, or it stands in
brackets behind the root. -/
theorem value_of_readUtility {found : UtilityValue}
    (read : design.readUtility core negative =
      .ok (.functional root (some found) modifier sign)) :
    (∃ head tail word, Modifier.cut? core = some (head, tail) ∧ modifier = tail.map .ofText ∧
        word <:+ head ∧ found = .named word (Utility.fraction? word modifier)) ∨
      ∃ inner hint raw, root ++ '-' :: Text.inBrackets inner <+: core ∧
        Utility.Hinted inner hint raw ∧ found = .arbitrary hint (.ofRaw raw) := by
  obtain ⟨head, tail, cut, modifier_eq, functional⟩ := exists_cut_of_readUtility read
  rcases value_of_readFunctional functional with named | brackets
  · obtain ⟨word, atEnd, found_eq⟩ := named
    exact .inl ⟨head, tail, word, cut, modifier_eq, atEnd, found_eq⟩
  · obtain ⟨inner, hint, raw, split, hinted, found_eq⟩ := brackets
    refine .inr ⟨inner, hint, raw, ?_, hinted, found_eq⟩
    rw [← split, Modifier.eq_of_cut?_eq_some cut]
    exact List.prefix_append head _

theorem brackets_of_readUtility {content : ArbitraryText}
    (read : design.readUtility core negative = .ok utility)
    (modifier_eq : utility.modifier? = some (.arbitrary content)) :
    ∃ raw, '/' :: raw.inBrackets <:+ core ∧ content = .ofRaw raw := by
  cases utility with
  | static root negative => cases modifier_eq
  | property name value modifier =>
      obtain ⟨_, _, shape, _⟩ := readUtility_eq_property_iff.mp read
      obtain ⟨tail, cut, rfl⟩ := Modifier.exists_cut?_iff.mpr shape
      exact Modifier.brackets_of_cut?_eq_some cut modifier_eq
  | functional root value modifier sign =>
      obtain ⟨_, tail, cut, rfl, _⟩ := exists_cut_of_readUtility read
      exact Modifier.brackets_of_cut?_eq_some cut modifier_eq

theorem ReadsVariant.brackets_of_mem_nodes {token : Text} {variant : Variant}
    (reads : design.ReadsVariant token variant) {value : Option VariantValue}
    {content : ArbitraryText} {compounds : Bool}
    (member : .functional root value (some (.arbitrary content)) compounds ∈ variant.nodes) :
    ∃ raw, '/' :: raw.inBrackets <:+: token ∧ content = .ofRaw raw := by
  obtain ⟨part, inToken, partReads⟩ := reads.exists_part_of_mem_nodes member
  obtain ⟨_, text, rooted, _, modifier_eq, _⟩ := readsVariant_functional_iff.mp partReads
  obtain ⟨head, cut, _⟩ := rooted.cut
  obtain ⟨raw, atEnd, content_eq⟩ := Modifier.brackets_of_cut?_eq_some cut modifier_eq.symm
  exact ⟨raw, atEnd.isInfix.trans inToken, content_eq⟩

/-- The fields of an accepted candidate fit its input and each other. -/
theorem accepted_fields_are_coherent (common : design.FollowsCommonRules) {input : Text}
    {candidate : Candidate} (found : (design.readCandidate input).result = some candidate) :
    candidate.Coherent input (Markers.ofBase ((input.pieces ':').getLastD [])).core := by
  obtain ⟨tokens, base, pieces⟩ :=
    (List.eq_nil_or_concat' (input.pieces ':')).resolve_left (Text.pieces_ne_nil ':' input)
  obtain ⟨_, read, _⟩ := (readCandidate_result_eq_some_iff pieces).mp found
  have baseMember : base ∈ input.pieces ':' := by simp [pieces]
  have baseLast : (input.pieces ':').getLastD [] = base := by simp [pieces]
  have inInput : (Markers.ofBase base).core <:+: input :=
    (Markers.infix_core base).trans (Text.infix_of_mem_pieces baseMember)
  rw [baseLast]
  constructor
  case fraction =>
    intro root value modifier negative utility_eq
    rw [utility_eq] at read
    rcases value_of_readUtility read with named | brackets
    · obtain ⟨head, tail, word, cut, rfl, atEnd, rfl⟩ := named
      exact Utility.fractionFits_named cut atEnd
    · obtain ⟨_, _, _, _, _, rfl⟩ := brackets
      exact Utility.fractionFits_arbitrary
  case hint =>
    intro root hint content modifier negative utility_eq
    rw [utility_eq] at read
    rcases value_of_readUtility read with named | brackets
    · obtain ⟨_, _, _, _, _, _, same⟩ := named
      cases same
    · obtain ⟨_, _, _, _, hinted, same⟩ := brackets
      obtain ⟨rfl, _⟩ := UtilityValue.arbitrary.inj same
      exact hinted.name_of_hint
  case value =>
    intro root hint content modifier negative utility_eq
    rw [utility_eq] at read
    rcases value_of_readUtility read with named | brackets
    · obtain ⟨_, _, _, _, _, _, same⟩ := named
      cases same
    · obtain ⟨inner, _, raw, atStart, hinted, same⟩ := brackets
      obtain ⟨rfl, rfl⟩ := UtilityValue.arbitrary.inj same
      have inCore : Text.inBrackets inner <:+: (Markers.ofBase base).core :=
        (Text.suffix_after_dash root _).isInfix.trans atStart.isInfix
      have rawInInput : raw <:+: input :=
        hinted.infix_raw.trans ((Text.infix_inBrackets inner).trans (inCore.trans inInput))
      exact ⟨inner, raw, atStart, hinted, ArbitraryText.readFrom_ofRaw rawInInput⟩
  case modifier =>
    intro content modifier_eq
    obtain ⟨raw, atEnd, rfl⟩ := brackets_of_readUtility read modifier_eq
    have rawInInput : raw <:+: input :=
      (Text.infix_behind_slash raw).trans (atEnd.isInfix.trans inInput)
    exact ⟨raw, atEnd, ArbitraryText.readFrom_ofRaw rawInInput⟩
  case variantModifier =>
    intro variant variantMember root value content compounds node
    obtain ⟨token, tokenMember, tokenRead⟩ := exists_token_of_mem_variants found variantMember
    obtain ⟨reads, _⟩ := (readVariant_result_eq_some_iff common).mp tokenRead
    obtain ⟨raw, inToken, rfl⟩ := reads.brackets_of_mem_nodes node
    have inside := inToken.trans (Text.infix_of_mem_pieces tokenMember)
    have rawInInput : raw <:+: input := (Text.infix_behind_slash raw).trans inside
    exact ⟨raw, inside, ArbitraryText.readFrom_ofRaw rawInInput⟩

/-- A custom property behind a hint and one in the modifier of a variant, and a
bare value of three parts under a bare modifier. -/
theorem accepted_fields_are_coherent_custom_properties :
    let design := ((({} : Vocabulary).addVariant "aria".toList .functional true).addFunctional
      "bg".toList).design
    let side := Variant.functional "aria".toList (some (.named "x".toList))
      (some (.arbitrary ⟨"var(--side)".toList, some "--side".toList⟩)) true
    let hinted := Utility.functional "bg".toList
      (some (.arbitrary (some "color".toList) ⟨"var(--c)".toList, some "--c".toList⟩))
      (some (.arbitrary ⟨"a b".toList, none⟩)) false
    let halved := Utility.functional "bg".toList
      (some (.named "a-b-1".toList (some "1/2".toList))) (some (.named "2".toList)) true
    design.FollowsCommonRules ∧
      (design.readCandidate "aria-x/[--side]:bg-[color:--c]/[a_b]!".toList).result =
        some ⟨hinted, [side], true⟩ ∧
      Candidate.Coherent ⟨hinted, [side], true⟩
        "aria-x/[--side]:bg-[color:--c]/[a_b]!".toList "bg-[color:--c]/[a_b]".toList ∧
      (design.readCandidate "-bg-a-b-1/2".toList).result = some ⟨halved, [], false⟩ ∧
      Candidate.Coherent ⟨halved, [], false⟩ "-bg-a-b-1/2".toList "bg-a-b-1/2".toList := by
  intro design side hinted halved
  have common : design.FollowsCommonRules := fun _ _ => rfl
  have hintedFound :
      (design.readCandidate "aria-x/[--side]:bg-[color:--c]/[a_b]!".toList).result =
        some ⟨hinted, [side], true⟩ := rfl
  have halvedFound : (design.readCandidate "-bg-a-b-1/2".toList).result =
      some ⟨halved, [], false⟩ := rfl
  exact ⟨common, hintedFound, accepted_fields_are_coherent common hintedFound, halvedFound,
    accepted_fields_are_coherent common halvedFound⟩

end Design

end UtilityClass
