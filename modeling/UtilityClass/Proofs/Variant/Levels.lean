import UtilityClass.Proofs.Variant.Layer
import UtilityClass.Vocabulary.Stock

/-!
# Nesting levels

`ReadsVariant` builds a variant from the layers of its token without counting
them.  Reading with a number of levels left finds exactly the variants of the
token that have fewer layers, so the limit of a design selects among the
variants and has no other part in reading.
-/

namespace UtilityClass

namespace Design

/-- The design has no reading of its own for any token. -/
def FollowsCommonRules (design : Design) : Prop :=
  ∀ token depth, design.override token depth = none

/-- The same design with another limit on nested compound variants. -/
def withLimit (design : Design) (limit : Nat) : Design :=
  { design with maxVariantDepth := limit }

/-- The variants of a token, layer by layer.  A layer around another token is
completed by a variant of that token which compounds. -/
inductive ReadsVariant (design : Design) : Text → Variant → Prop where
  | complete {token : Text} {variant : Variant} :
      design.ReadsLayer token (.complete variant) →
      ReadsVariant design token variant
  | wrapping {token root nested : Text} {modifier : Option Modifier} {compounds : Bool}
      {inner : Variant} :
      design.ReadsLayer token (.wrapping root modifier compounds nested) →
      ReadsVariant design nested inner →
      inner.compounds = true →
      ReadsVariant design token (.compound root modifier inner compounds)

variable {design : Design}

theorem FollowsCommonRules.withLimit (common : design.FollowsCommonRules) (limit : Nat) :
    (design.withLimit limit).FollowsCommonRules :=
  common

theorem ReadsLayer.layers_eq_zero {token : Text} {variant : Variant}
    (reads : design.ReadsLayer token (.complete variant)) : variant.layers = 0 := by
  cases reads with
  | selector => rfl
  | static => rfl
  | functional => rfl

theorem ReadsLayer.length_lt {token root nested : Text} {modifier : Option Modifier}
    {compounds : Bool}
    (reads : design.ReadsLayer token (.wrapping root modifier compounds nested)) :
    nested.length < token.length := by
  cases reads with
  | compound rooted => exact rooted.length_lt

theorem ReadsVariant.layers_le_length {token : Text} {variant : Variant}
    (reads : design.ReadsVariant token variant) : variant.layers ≤ token.length := by
  induction reads with
  | complete layer => simp [layer.layers_eq_zero]
  | @wrapping token root nested modifier compounds inner layer nestedReads innerCompounds
      induction =>
      have shorter := layer.length_lt
      simp only [Variant.layers]
      omega

theorem readsLayer_withLimit_iff {limit : Nat} {token : Text} {layer : Layer} :
    (design.withLimit limit).ReadsLayer token layer ↔ design.ReadsLayer token layer := by
  rw [← readLayer_eq_ok_iff, ← readLayer_eq_ok_iff]
  rfl

theorem readsVariant_withLimit_iff {limit : Nat} {token : Text} {variant : Variant} :
    (design.withLimit limit).ReadsVariant token variant ↔ design.ReadsVariant token variant := by
  constructor
  · intro reads
    induction reads with
    | complete layer => exact .complete (readsLayer_withLimit_iff.mp layer)
    | wrapping layer _ innerCompounds induction =>
        exact .wrapping (readsLayer_withLimit_iff.mp layer) induction innerCompounds
  · intro reads
    induction reads with
    | complete layer => exact .complete (readsLayer_withLimit_iff.mpr layer)
    | wrapping layer _ innerCompounds induction =>
        exact .wrapping (readsLayer_withLimit_iff.mpr layer) induction innerCompounds

theorem wrap_result_eq_some_iff {token root : Text} {modifier : Option Modifier}
    {compounds : Bool} {nested : Traced Variant} {variant : Variant} :
    (wrap token root modifier compounds nested).result = some variant ↔
      ∃ inner, nested.result = some inner ∧ inner.compounds = true ∧
        variant = .compound root modifier inner compounds := by
  unfold wrap
  rw [Traced.andThen_result_eq_some_iff]
  refine exists_congr fun inner => ?_
  rw [Traced.orRecord_result]
  refine and_congr_right fun _ => ?_
  by_cases innerCompounds : inner.compounds = true
  · simp [innerCompounds, eq_comm]
  · simp [innerCompounds]

/-- With some levels left a reading finds the variants with fewer layers. -/
theorem readVariantWithin_result_eq_some_iff (common : design.FollowsCommonRules)
    {levels depth : Nat} {token : Text} {variant : Variant} :
    (design.readVariantWithin levels depth token).result = some variant ↔
      design.ReadsVariant token variant ∧ variant.layers < levels := by
  induction levels generalizing depth token variant with
  | zero => simp [readVariantWithin]
  | succ levels induction =>
      unfold readVariantWithin
      constructor
      · intro found
        split at found
        next fault => simp at found
        next complete layer =>
          obtain rfl := Option.some.inj found
          have reads := readLayer_eq_ok_iff.mp layer
          exact ⟨.complete reads, by simp [reads.layers_eq_zero]⟩
        next root modifier compounds nested layer =>
          obtain ⟨inner, innerFound, innerCompounds, rfl⟩ := wrap_result_eq_some_iff.mp found
          rw [common nested (depth + 1)] at innerFound
          obtain ⟨innerReads, fewer⟩ := induction.mp innerFound
          refine ⟨.wrapping (readLayer_eq_ok_iff.mp layer) innerReads innerCompounds, ?_⟩
          exact Nat.succ_lt_succ fewer
      · intro ⟨reads, fewer⟩
        cases reads with
        | complete layer => rw [readLayer_eq_ok_iff.mpr layer]; rfl
        | wrapping layer innerReads innerCompounds =>
            rw [readLayer_eq_ok_iff.mpr layer]
            apply wrap_result_eq_some_iff.mpr
            refine ⟨_, ?_, innerCompounds, rfl⟩
            rw [common]
            apply induction.mpr
            exact ⟨innerReads, Nat.lt_of_succ_lt_succ fewer⟩

theorem readVariantAt_result_eq_some_iff (common : design.FollowsCommonRules)
    {depth : Nat} {token : Text} {variant : Variant} :
    (design.readVariantAt depth token).result = some variant ↔
      design.ReadsVariant token variant ∧ depth + variant.layers ≤ design.maxVariantDepth := by
  unfold readVariantAt
  rw [readVariantWithin_result_eq_some_iff common]
  refine and_congr_right fun _ => ?_
  omega

theorem readVariant_result_eq_some_iff (common : design.FollowsCommonRules)
    {token : Text} {variant : Variant} :
    (design.readVariant token).result = some variant ↔
      design.ReadsVariant token variant ∧ variant.layers ≤ design.maxVariantDepth := by
  unfold readVariant
  rw [common token 0]
  have atTop : (design.readVariantAt 0 token).result = some variant ↔
      design.ReadsVariant token variant ∧ 0 + variant.layers ≤ design.maxVariantDepth :=
    readVariantAt_result_eq_some_iff common
  rw [Nat.zero_add] at atTop
  exact atTop

/-- The limit selects and does nothing else.  What is read at a depth under a
limit are the variants of the token that the limit leaves room for, out of
those that are read when there is a level for each character.  So only the
room between limit and depth counts, and more of it loses no variant. -/
theorem readVariantAt_filters_by_limit (common : design.FollowsCommonRules)
    (token : Text) (limit depth : Nat) :
    (∀ variant, ((design.withLimit limit).readVariantAt depth token).result = some variant ↔
        depth + variant.layers ≤ limit ∧
          ((design.withLimit token.length).readVariant token).result = some variant) ∧
      (∀ variant, ((design.withLimit limit).readVariantAt depth token).result = some variant →
        variant.layers ≤ token.length) ∧
      (∀ otherLimit otherDepth : Nat, (otherLimit : Int) - otherDepth = limit - depth →
        ((design.withLimit otherLimit).readVariantAt otherDepth token).result =
          ((design.withLimit limit).readVariantAt depth token).result) ∧
      ∀ higherLimit variant, limit ≤ higherLimit →
        ((design.withLimit limit).readVariantAt depth token).result = some variant →
        ((design.withLimit higherLimit).readVariantAt depth token).result = some variant := by
  have atLimit : ∀ limit depth variant,
      ((design.withLimit limit).readVariantAt depth token).result = some variant ↔
        design.ReadsVariant token variant ∧ depth + variant.layers ≤ limit := by
    intro limit depth variant
    rw [readVariantAt_result_eq_some_iff (common.withLimit limit), readsVariant_withLimit_iff]
    rfl
  have atLength : ∀ variant,
      ((design.withLimit token.length).readVariant token).result = some variant ↔
        design.ReadsVariant token variant := by
    intro variant
    rw [readVariant_result_eq_some_iff (common.withLimit token.length),
      readsVariant_withLimit_iff]
    exact and_iff_left_of_imp ReadsVariant.layers_le_length
  refine ⟨?_, ?_, ?_, ?_⟩
  · intro variant
    rw [atLimit, atLength]
    exact and_comm
  · intro variant found
    exact ((atLimit limit depth variant).mp found).1.layers_le_length
  · intro otherLimit otherDepth sameRoom
    apply Option.ext
    intro variant
    rw [atLimit, atLimit]
    refine and_congr_right fun _ => ?_
    omega
  · intro higherLimit variant higher found
    obtain ⟨reads, room⟩ := (atLimit limit depth variant).mp found
    exact (atLimit higherLimit depth variant).mpr ⟨reads, Nat.le_trans room higher⟩

/-- Two compound variants need two levels, at whatever depth they begin. -/
theorem readVariantAt_filters_by_limit_two_levels :
    let design := ((({} : Vocabulary).addVariants ["group", "has"] .compound true).addVariant
      "hover".toList .static true).design
    let token := "group-has-hover".toList
    let variant := Variant.compound "group".toList none
      (.compound "has".toList none (.static "hover".toList true) true) true
    design.FollowsCommonRules ∧
      ((design.withLimit 3).readVariantAt 1 token).result = some variant ∧
      ((design.withLimit token.length).readVariant token).result = some variant ∧
      variant.layers ≤ token.length ∧
      ((design.withLimit 2).readVariantAt 0 token).result =
        ((design.withLimit 3).readVariantAt 1 token).result ∧
      ((design.withLimit 4).readVariantAt 1 token).result = some variant ∧
      ((design.withLimit 2).readVariantAt 1 token).result ≠ some variant := by
  intro design token variant
  have common : design.FollowsCommonRules := fun _ _ => rfl
  have found : ((design.withLimit 3).readVariantAt 1 token).result = some variant := rfl
  obtain ⟨filters, short, sameRoom, monotone⟩ :=
    readVariantAt_filters_by_limit common token 3 1
  refine ⟨common, found, ((filters variant).mp found).2, short variant found,
    sameRoom 2 0 (by decide), monotone 4 variant (by decide) found, ?_⟩
  intro tooDeep
  have room := ((readVariantAt_filters_by_limit common token 2 1).1 variant).mp tooDeep
  exact absurd room.1 (by decide)

end Design

end UtilityClass
