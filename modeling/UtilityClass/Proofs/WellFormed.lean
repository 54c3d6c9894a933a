import UtilityClass.Proofs.Candidate.Composition
import UtilityClass.Proofs.Variant.Levels

/-!
# Well-formed variants

A variant that has been read agrees with the design at each of its layers: the
root is registered as what the layer says, and a compound root stands around a
variant that compounds.
-/

namespace UtilityClass

/-- The variant itself and all the variants inside it, from the outside in. -/
def Variant.nodes : Variant → List Variant
  | compound root modifier inner compounds =>
    compound root modifier inner compounds :: inner.nodes
  | arbitrary selector compounds => [arbitrary selector compounds]
  | static root compounds => [static root compounds]
  | functional root value modifier compounds => [functional root value modifier compounds]

namespace Design

/-- A root is registered with a kind and with a compounding flag. -/
structure Registers (design : Design) (root : Text) (kind : VariantKind) (compounds : Bool) :
    Prop where
  hasVariant : design.hasVariant root = true
  kind_eq : design.variantKind root = some kind
  compounds_eq : compounds = design.variantCompounds root

/-- What the outermost layer of a variant owes to the design. -/
def SoundNode (design : Design) : Variant → Prop
  | .arbitrary _ compounds => compounds = true
  | .static root compounds => design.Registers root .static compounds
  | .functional root value _ compounds =>
    design.Registers root .functional compounds ∧ value.isSome = true
  | .compound root modifier inner compounds =>
    design.Registers root .compound compounds ∧
      (modifier = none ∨ ∃ name, modifier = some (.named name)) ∧ inner.compounds = true

/-- Every layer of a variant is sound. -/
def WellFormed (design : Design) (variant : Variant) : Prop :=
  ∀ node ∈ variant.nodes, design.SoundNode node

variable {design : Design}

theorem Rooted.registers {token root : Text} {value modifier : Option Text} {kind : VariantKind}
    (rooted : design.Rooted token root value modifier kind) :
    design.Registers root kind (design.variantCompounds root) :=
  ⟨rooted.hasVariant, rooted.kind_eq, rfl⟩

theorem ReadsLayer.wellFormed {token : Text} {variant : Variant}
    (reads : design.ReadsLayer token (.complete variant)) : design.WellFormed variant := by
  intro node member
  cases reads with
  | selector =>
      obtain rfl := List.mem_singleton.mp member
      exact rfl
  | static rooted =>
      obtain rfl := List.mem_singleton.mp member
      exact rooted.registers
  | functional rooted =>
      obtain rfl := List.mem_singleton.mp member
      exact ⟨rooted.registers, rfl⟩

theorem ReadsLayer.soundNode {token root nested : Text} {modifier : Option Modifier}
    {compounds : Bool} {inner : Variant}
    (reads : design.ReadsLayer token (.wrapping root modifier compounds nested))
    (innerCompounds : inner.compounds = true) :
    design.SoundNode (.compound root modifier inner compounds) := by
  cases reads with
  | @compound _ _ _ modifier rooted =>
      refine ⟨rooted.registers, ?_, innerCompounds⟩
      cases modifier with
      | none => exact .inl rfl
      | some name => exact .inr ⟨name, rfl⟩

theorem ReadsVariant.wellFormed {token : Text} {variant : Variant}
    (reads : design.ReadsVariant token variant) : design.WellFormed variant := by
  induction reads with
  | complete layer => exact layer.wellFormed
  | wrapping layer _ innerCompounds induction =>
      intro node member
      rcases List.mem_cons.mp member with rfl | inside
      · exact layer.soundNode innerCompounds
      · exact induction node inside

/-- Every layer of an accepted variant is sound, so no accepted candidate holds
a compound variant around one that does not compound. -/
theorem accepted_variants_are_well_formed (common : design.FollowsCommonRules) :
    (∀ depth token variant, (design.readVariantAt depth token).result = some variant →
        ∀ node ∈ variant.nodes, design.SoundNode node) ∧
      ∀ input candidate, (design.readCandidate input).result = some candidate →
        ∀ variant ∈ candidate.variants, ∀ root modifier inner compounds,
          Variant.compound root modifier inner compounds ∈ variant.nodes →
          inner.compounds = true := by
  constructor
  · intro depth token variant found
    exact ((readVariantAt_result_eq_some_iff common).mp found).1.wellFormed
  · intro input candidate found variant member root modifier inner compounds node
    obtain ⟨token, _, read⟩ := exists_token_of_mem_variants found member
    have reads := ((readVariant_result_eq_some_iff common).mp read).1
    obtain ⟨_, _, innerCompounds⟩ := reads.wellFormed _ node
    exact innerCompounds

/-- The layers of `group-has-hover`, alone and in a candidate. -/
theorem accepted_variants_are_well_formed_two_layers :
    let design := (((({} : Vocabulary).addVariants ["group", "has"] .compound true).addVariant
      "hover".toList .static true).addStatic "flex".toList).design
    let inner := Variant.compound "has".toList none (.static "hover".toList true) true
    let variant := Variant.compound "group".toList (some (.named "side".toList)) inner true
    design.FollowsCommonRules ∧
      (design.readVariantAt 7 "group-has-hover/side".toList).result = some variant ∧
      design.SoundNode variant ∧ design.SoundNode inner ∧
      (design.readCandidate "group-has-hover/side:flex".toList).result =
        some ⟨.static "flex".toList false, [variant], false⟩ ∧
      inner.compounds = true := by
  intro design inner variant
  have common : design.FollowsCommonRules := fun _ _ => rfl
  have found : (design.readVariantAt 7 "group-has-hover/side".toList).result = some variant := rfl
  have candidateFound : (design.readCandidate "group-has-hover/side:flex".toList).result =
      some ⟨.static "flex".toList false, [variant], false⟩ := rfl
  obtain ⟨sound, compounding⟩ := accepted_variants_are_well_formed common
  refine ⟨common, found, sound 7 _ variant found variant (by simp [variant, Variant.nodes]),
    sound 7 _ variant found inner (by simp [variant, inner, Variant.nodes]), candidateFound, ?_⟩
  exact compounding _ _ candidateFound variant (by simp) "group".toList
    (some (.named "side".toList)) inner true (by simp [variant, Variant.nodes])

end Design

end UtilityClass
