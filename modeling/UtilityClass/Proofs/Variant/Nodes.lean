import UtilityClass.Proofs.Candidate.Agreement
import UtilityClass.Proofs.Text.Encoding
import UtilityClass.Proofs.WellFormed

/-!
# Where the layers of a variant come from

A variant inside an accepted one was itself read from a part of the token.  What
the reading of a token says about the variant it answers therefore holds of all
the variants inside it, and levels need not be counted again.
-/

namespace UtilityClass

namespace Layer

variable {raw : Text}

theorem selectorOf_placed (raw : Text) :
    (selectorOf raw).head? = some '@' ∨ '&' ∈ selectorOf raw := by
  by_cases placed : raw.decode.head? = some '@' ∨ '&' ∈ raw.decode
  · rw [selectorOf_eq_decode placed]
    exact placed
  · rw [selectorOf_eq_around placed]
    exact .inr List.mem_cons_self

/-- The marks of a selector are looked for in the bracket text, and decoding
neither moves nor makes one. -/
theorem selectorOf_apart (apart : (isAtRule raw && raw.contains '&') = false) :
    ¬((selectorOf raw).head? = some '@' ∧ '&' ∈ selectorOf raw) := by
  intro ⟨atRule, placedAt⟩
  by_cases placed : raw.decode.head? = some '@' ∨ '&' ∈ raw.decode
  · rw [selectorOf_eq_decode placed] at atRule placedAt
    have atFront : raw.head? = some '@' := Text.head?_of_head?_decode (by decide) atRule
    have inRaw : '&' ∈ raw := (Text.mem_decode_iff (by decide)).mp placedAt
    simp [isAtRule, atFront, inRaw] at apart
  · rw [selectorOf_eq_around placed] at atRule
    cases atRule

end Layer

namespace Design

variable {design : Design} {token : Text} {variant : Variant}

theorem readsVariant_arbitrary_iff {selector : Text} {compounds : Bool} :
    design.ReadsVariant token (.arbitrary selector compounds) ↔
      ∃ raw, token = raw.inBrackets ∧ (Layer.isAtRule raw && raw.contains '&') = false ∧
        selector = Layer.selectorOf raw ∧ compounds = true := by
  constructor
  · intro reads
    cases reads with
    | complete layer =>
        cases layer with
        | selector apart => exact ⟨_, rfl, apart, rfl, rfl⟩
  · intro ⟨raw, token_eq, apart, selector_eq, compounds_eq⟩
    subst token_eq selector_eq compounds_eq
    exact .complete (.selector apart)

theorem readsVariant_functional_iff {root : Text} {value : Option VariantValue}
    {modifier : Option Modifier} {compounds : Bool} :
    design.ReadsVariant token (.functional root value modifier compounds) ↔
      ∃ rest text, design.Rooted token root (some rest) text .functional ∧
        value = some (Layer.valueOf rest) ∧ modifier = text.map .ofText ∧
        compounds = design.variantCompounds root := by
  constructor
  · intro reads
    cases reads with
    | complete layer =>
        cases layer with
        | functional rooted => exact ⟨_, _, rooted, rfl, rfl, rfl⟩
  · intro ⟨rest, text, rooted, value_eq, modifier_eq, compounds_eq⟩
    subst value_eq modifier_eq compounds_eq
    exact .complete (.functional rooted)

/-- Each variant inside one that was read is read from a part of the token. -/
theorem ReadsVariant.exists_part_of_mem_nodes (reads : design.ReadsVariant token variant)
    {node : Variant} (member : node ∈ variant.nodes) :
    ∃ part, part <:+: token ∧ design.ReadsVariant part node := by
  induction reads with
  | @complete token variant layer =>
      have same : node = variant := by
        cases layer with
        | selector | static | functional => exact List.mem_singleton.mp member
      rw [same]
      exact ⟨token, List.infix_rfl, .complete layer⟩
  | @wrapping token _ _ _ _ _ layer innerReads innerCompounds induction =>
      rcases List.mem_cons.mp member with rfl | inside
      · exact ⟨token, List.infix_rfl, .wrapping layer innerReads innerCompounds⟩
      · obtain ⟨part, inNested, partReads⟩ := induction inside
        exact ⟨part, inNested.trans layer.infix_nested, partReads⟩

/-- At every level of an accepted variant a selector is an at-rule or says where
the element stands, but not both. -/
theorem selectors_are_at_rules_or_placed (common : design.FollowsCommonRules) {depth : Nat}
    (found : (design.readVariantAt depth token).result = some variant) :
    ∀ selector compounds, .arbitrary selector compounds ∈ variant.nodes →
      (selector.head? = some '@' ∨ '&' ∈ selector) ∧
        ¬(selector.head? = some '@' ∧ '&' ∈ selector) := by
  obtain ⟨reads, _⟩ := (readVariantAt_result_eq_some_iff common).mp found
  intro selector compounds node
  obtain ⟨part, _, partReads⟩ := reads.exists_part_of_mem_nodes node
  obtain ⟨raw, _, apart, rfl, _⟩ := readsVariant_arbitrary_iff.mp partReads
  exact ⟨Layer.selectorOf_placed raw, Layer.selectorOf_apart apart⟩

/-- A selector in which a space stands before the mark of at-rules, under a root. -/
theorem selectors_are_at_rules_or_placed_space :
    let design := (({} : Vocabulary).addVariant "group".toList .compound true).design
    let selector : Text := " @media_(&)".toList
    let variant := Variant.compound "group".toList (some (.named "x".toList))
      (.arbitrary selector true) true
    design.FollowsCommonRules ∧
      (design.readVariantAt 1 "group-[_@media\\_(&)]/x".toList).result = some variant ∧
      .arbitrary selector true ∈ variant.nodes ∧
      (selector.head? = some '@' ∨ '&' ∈ selector) ∧
      ¬(selector.head? = some '@' ∧ '&' ∈ selector) := by
  intro design selector variant
  have common : design.FollowsCommonRules := fun _ _ => rfl
  have found : (design.readVariantAt 1 "group-[_@media\\_(&)]/x".toList).result =
      some variant := rfl
  have node : .arbitrary selector true ∈ variant.nodes := by simp [variant, Variant.nodes]
  exact ⟨common, found, node, selectors_are_at_rules_or_placed common found selector true node⟩

end Design

end UtilityClass
