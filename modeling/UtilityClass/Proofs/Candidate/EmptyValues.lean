import UtilityClass.Proofs.Candidate.Coherence
import UtilityClass.Proofs.Candidate.Importance
import UtilityClass.Proofs.Text.RootSearch
import UtilityClass.Proofs.Variant.Nodes

/-!
# Values with nothing in them

A name may end at the dash behind its root, and then the text behind the root is
empty.  A functional utility is not read from such a name.  A functional variant
is, and its value is the empty word.
-/

namespace UtilityClass

namespace Layer

theorem valueOf_eq_named_iff {text word : Text} :
    valueOf text = .named word ↔ text = word ∧ text.bracketed? = none := by
  unfold valueOf
  cases text.bracketed? with
  | none => simp
  | some raw => simp

end Layer

namespace Design

/-- Before its modifier a token is a functional root and a dash.  The two are
not a variant of their own. -/
structure EndsAtDash (design : Design) (token root : Text) (modifier : Option Text) : Prop where
  unbracketed : token.bracketed? = none
  cut : Modifier.cut? token = some (root ++ ['-'], modifier)
  hasVariant : design.hasVariant root = true
  unknown : design.hasVariant (root ++ ['-']) = false
  kind_eq : design.variantKind root = some .functional

variable {design : Design} {token root : Text}

theorem rooted_nil_iff {modifier : Option Text} :
    design.Rooted token root (some []) modifier .functional ↔
      design.EndsAtDash token root modifier := by
  constructor
  · intro rooted
    obtain ⟨head, cut, found⟩ := rooted.cut
    obtain ⟨rfl, isKnown, unknown⟩ := Text.longestRoot?_eq_some_nil_iff.mp found
    exact ⟨rooted.unbracketed, cut, isKnown, unknown, rooted.kind_eq⟩
  · intro ends
    have found : (root ++ ['-']).longestRoot? design.hasVariant = some (root, some []) :=
      Text.longestRoot?_eq_some_nil_iff.mpr ⟨rfl, ends.hasVariant, ends.unknown⟩
    exact ⟨ends.unbracketed, ⟨_, ends.cut, found⟩, ends.kind_eq⟩

/-- The empty word is read as a value where a token ends at the dash. -/
theorem readsVariant_empty_iff {modifier : Option Modifier} {compounds : Bool} :
    design.ReadsVariant token (.functional root (some (.named [])) modifier compounds) ↔
      ∃ text, design.EndsAtDash token root text ∧ modifier = text.map .ofText ∧
        compounds = design.variantCompounds root := by
  rw [readsVariant_functional_iff]
  constructor
  · intro ⟨rest, text, rooted, value_eq, modifier_eq, compounds_eq⟩
    obtain ⟨rfl, _⟩ := Layer.valueOf_eq_named_iff.mp (Option.some.inj value_eq).symm
    exact ⟨text, rooted_nil_iff.mp rooted, modifier_eq, compounds_eq⟩
  · intro ⟨text, ends, modifier_eq, compounds_eq⟩
    exact ⟨[], text, rooted_nil_iff.mpr ends, rfl, modifier_eq, compounds_eq⟩

theorem exists_core_of_readCandidate {input : Text} {candidate : Candidate}
    (found : (design.readCandidate input).result = some candidate) :
    ∃ core negative, design.readUtility core negative = .ok candidate.utility := by
  obtain ⟨tokens, base, pieces⟩ :=
    (List.eq_nil_or_concat' (input.pieces ':')).resolve_left (Text.pieces_ne_nil ':' input)
  obtain ⟨_, read, _⟩ := (readCandidate_result_eq_some_iff pieces).mp found
  exact ⟨_, _, read⟩

theorem word_ne_nil_of_readUtility {core word : Text} {fraction : Option Text}
    {modifier : Option Modifier} {negative sign : Bool}
    (read : design.readUtility core negative =
      .ok (.functional root (some (.named word fraction)) modifier sign)) : word ≠ [] := by
  obtain ⟨head, _, _, _, functional⟩ := exists_cut_of_readUtility read
  obtain ⟨_, _, same, _⟩ := readFunctional_eq_ok_iff.mp functional
  obtain ⟨_, _, _, rfl⟩ := Utility.functional.inj same
  exact (word_of_readFunctional functional).2.1

/-- A token that ends at the dash behind a functional root is a variant with the
empty value, and the empty value comes from nowhere else, whatever the level.
A functional utility has no such value. -/
theorem only_variants_take_empty_values (common : design.FollowsCommonRules) :
    (∀ depth token root modifier, depth ≤ design.maxVariantDepth →
        design.EndsAtDash token root modifier →
        (design.readVariantAt depth token).result =
          some (.functional root (some (.named [])) (modifier.map .ofText)
            (design.variantCompounds root))) ∧
      (∀ depth token variant, (design.readVariantAt depth token).result = some variant →
        ∀ root modifier compounds,
          .functional root (some (.named [])) modifier compounds ∈ variant.nodes →
          ∃ part text, part <:+: token ∧ design.EndsAtDash part root text ∧
            modifier = text.map .ofText) ∧
      ∀ input candidate, (design.readCandidate input).result = some candidate →
        ∀ root word fraction modifier negative,
          candidate.utility = .functional root (some (.named word fraction)) modifier negative →
          word ≠ [] := by
  refine ⟨?_, ?_, ?_⟩
  · intro depth token root modifier within ends
    apply (readVariantAt_result_eq_some_iff common).mpr
    exact ⟨readsVariant_empty_iff.mpr ⟨modifier, ends, rfl, rfl⟩, within⟩
  · intro depth token variant found root modifier compounds node
    obtain ⟨reads, _⟩ := (readVariantAt_result_eq_some_iff common).mp found
    obtain ⟨part, inToken, partReads⟩ := reads.exists_part_of_mem_nodes node
    obtain ⟨text, ends, modifier_eq, _⟩ := readsVariant_empty_iff.mp partReads
    exact ⟨part, text, inToken, ends, modifier_eq⟩
  · intro input candidate found root word fraction modifier negative utility_eq
    obtain ⟨core, sign, read⟩ := exists_core_of_readCandidate found
    rw [utility_eq] at read
    exact word_ne_nil_of_readUtility read

/-- A root with a modifier and nothing between them, the same root under another
one, and a candidate behind both. -/
theorem only_variants_take_empty_values_under_root :
    let design := (((({} : Vocabulary).addVariant "group".toList .compound true).addVariant
      "aria".toList .functional true).addFunctional "bg".toList).design
    let value : Option VariantValue := some (.named [])
    let alone := Variant.functional "aria".toList value (some (.named "x".toList)) true
    let inner := Variant.functional "aria".toList value none true
    let variant := Variant.compound "group".toList (some (.named "x".toList)) inner true
    let utility := Utility.functional "bg".toList (some (.named "b".toList none)) none false
    design.FollowsCommonRules ∧ 2 ≤ design.maxVariantDepth ∧
      design.EndsAtDash "aria-/x".toList "aria".toList (some "x".toList) ∧
      (design.readVariantAt 2 "aria-/x".toList).result = some alone ∧
      (design.readVariantAt 0 "group-aria-/x".toList).result = some variant ∧
      inner ∈ variant.nodes ∧
      (∃ part text, part <:+: "group-aria-/x".toList ∧
        design.EndsAtDash part "aria".toList text ∧ none = text.map Modifier.ofText) ∧
      (design.readCandidate "group-aria-/x:bg-b".toList).result =
        some ⟨utility, [variant], false⟩ ∧
      "b".toList ≠ [] := by
  intro design value alone inner variant utility
  have common : design.FollowsCommonRules := fun _ _ => rfl
  have ends : design.EndsAtDash "aria-/x".toList "aria".toList (some "x".toList) :=
    ⟨rfl, rfl, rfl, rfl, rfl⟩
  have within : 2 ≤ design.maxVariantDepth := by decide
  have found : (design.readVariantAt 0 "group-aria-/x".toList).result = some variant := rfl
  have node : inner ∈ variant.nodes := by simp [variant, inner, Variant.nodes]
  have candidateFound : (design.readCandidate "group-aria-/x:bg-b".toList).result =
      some ⟨utility, [variant], false⟩ := rfl
  obtain ⟨accepted, parts, words⟩ := only_variants_take_empty_values common
  exact ⟨common, within, ends, accepted 2 _ _ _ within ends, found, node,
    parts 0 _ variant found "aria".toList none true node, candidateFound,
    words _ _ candidateFound "bg".toList "b".toList none none false rfl⟩

/-- The value of a functional variant is not always a word with a character in it. -/
theorem variant_value_can_be_empty :
    ¬∀ design : Design, design.FollowsCommonRules →
      ∀ depth token variant, (design.readVariantAt depth token).result = some variant →
        ∀ root word modifier compounds,
          .functional root (some (.named word)) modifier compounds ∈ variant.nodes →
          word ≠ [] := by
  intro always
  let design := (({} : Vocabulary).addVariant "aria".toList .functional true).design
  have found : (design.readVariantAt 0 "aria-".toList).result =
      some (.functional "aria".toList (some (.named [])) none true) := rfl
  exact always design (fun _ _ => rfl) 0 _ _ found "aria".toList [] none true
    (List.mem_singleton.mpr rfl) rfl

end Design

end UtilityClass
