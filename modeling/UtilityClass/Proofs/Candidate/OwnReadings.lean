import Mathlib.Data.Set.Defs
import UtilityClass.Proofs.Candidate.Agreement
import UtilityClass.Proofs.Candidate.Composition
import UtilityClass.Proofs.Variant.Levels

/-!
# Tokens that a design reads in its own way

A design may read some tokens in a way of its own and leave all others to the common rules.
A text in which none of those tokens occurs is read as if the design had no way of its own:
every token that is asked for on the way is a part of the text.
-/

namespace UtilityClass

namespace Text

/-- None of the tokens occurs in the text. -/
def Avoids (text : Text) (tokens : Set Text) : Prop :=
  ∀ token ∈ tokens, ¬token <:+: text

variable {text part : Text} {tokens : Set Text}

theorem Avoids.mono (avoids : text.Avoids tokens) (inText : part <:+: text) :
    part.Avoids tokens :=
  fun token member inPart => avoids token member (inPart.trans inText)

theorem Avoids.not_mem (avoids : text.Avoids tokens) : text ∉ tokens :=
  fun member => avoids text member List.infix_rfl

end Text

namespace Design

/-- The reading of a token that so many compound variants stand around, in the design's own
way if it has one. -/
def readNested (design : Design) (depth : Nat) (token : Text) : Traced Variant :=
  match design.override token depth with
  | some reading => reading
  | none => design.readVariantAt depth token

/-- The same design with readings of its own. -/
def withOverride (design : Design) (override : Text → Nat → Option (Traced Variant)) : Design :=
  { design with override }

variable {design : Design} {token : Text} {depth : Nat}

theorem readNested_of_override_eq_none (common : design.override token depth = none) :
    design.readNested depth token = design.readVariantAt depth token := by
  rw [readNested, common]

theorem readVariantAt_of_lt (tooDeep : design.maxVariantDepth < depth) :
    design.readVariantAt depth token = .reject (.variant token .tooDeep) := by
  have noLevel : design.maxVariantDepth + 1 - depth = 0 := by omega
  rw [readVariantAt, noLevel, readVariantWithin]

theorem readVariantAt_of_le (room : depth ≤ design.maxVariantDepth) :
    design.readVariantAt depth token =
      match design.readLayer token with
      | .error fault => .reject (.variant token fault)
      | .ok (.complete variant) => .accept variant
      | .ok (.wrapping root modifier compounds nested) =>
        wrap token root modifier compounds (design.readNested (depth + 1) nested) := by
  have levels : design.maxVariantDepth + 1 - depth =
      design.maxVariantDepth + 1 - (depth + 1) + 1 := by omega
  rw [readVariantAt, levels, readVariantWithin]
  rfl

theorem wrap_result_congr {root : Text} {modifier : Option Modifier} {compounds : Bool}
    {nested other : Traced Variant} (same : nested.result = other.result) :
    (wrap token root modifier compounds nested).result =
      (wrap token root modifier compounds other).result := by
  simp only [wrap, Traced.andThen_result, Traced.orRecord_result, same]

theorem readVariants_result_congr {other : Design} {tokens : List Text}
    (same : ∀ token ∈ tokens,
      (design.readVariant token).result = (other.readVariant token).result) :
    (design.readVariants tokens).result = (other.readVariants tokens).result := by
  induction tokens with
  | nil => rfl
  | cons token tokens induction =>
      obtain ⟨first, others⟩ := List.forall_mem_cons.mp same
      simp only [readVariants, Traced.andThen_result, first, induction others]

section WithOverride

variable {own : Set Text} {override : Text → Nat → Option (Traced Variant)}

theorem readVariantAt_withOverride (common : design.FollowsCommonRules)
    (defers : ∀ token, token ∉ own → ∀ depth,
      ((design.withOverride override).readNested depth token).result =
        ((design.withOverride override).readVariantAt depth token).result)
    (avoids : token.Avoids own) (depth : Nat) :
    ((design.withOverride override).readVariantAt depth token).result =
      (design.readVariantAt depth token).result := by
  -- The induction is on the levels that the limit leaves below the depth.  The nested token
  -- is a part of the one around it, so it is left to the common rules as well.
  induction levels : design.maxVariantDepth + 1 - depth generalizing depth token with
  | zero =>
      have tooDeep : design.maxVariantDepth < depth := by omega
      rw [readVariantAt_of_lt tooDeep]
      exact congrArg Traced.result (readVariantAt_of_lt tooDeep)
  | succ levels induction =>
      have room : depth ≤ design.maxVariantDepth := by omega
      have sameLayer : (design.withOverride override).readLayer token = design.readLayer token :=
        rfl
      have sameRoom : depth ≤ (design.withOverride override).maxVariantDepth := room
      rw [readVariantAt_of_le room, readVariantAt_of_le sameRoom, sameLayer]
      cases read : design.readLayer token with
      | error fault => rfl
      | ok layer =>
          cases layer with
          | complete variant => rfl
          | wrapping root modifier compounds nested =>
              have inToken : nested <:+: token := (readLayer_eq_ok_iff.mp read).infix_nested
              have nestedAvoids := avoids.mono inToken
              apply wrap_result_congr
              rw [defers nested nestedAvoids.not_mem (depth + 1),
                readNested_of_override_eq_none (common nested (depth + 1))]
              exact induction nestedAvoids (depth + 1) (by omega)

/-- A design's own readings do not show in a text that has none of their tokens, if all other
tokens are read as the common rules say. -/
theorem own_readings_are_invisible (common : design.FollowsCommonRules)
    (defers : ∀ token, token ∉ own → ∀ depth,
      ((design.withOverride override).readNested depth token).result =
        ((design.withOverride override).readVariantAt depth token).result) :
    (∀ token : Text, token.Avoids own →
        ((design.withOverride override).readVariant token).result =
          (design.readVariant token).result ∧
        ∀ depth, ((design.withOverride override).readVariantAt depth token).result =
          (design.readVariantAt depth token).result) ∧
      ∀ input : Text, input.Avoids own →
        ((design.withOverride override).readCandidate input).result =
          (design.readCandidate input).result := by
  have atDepth : ∀ token : Text, token.Avoids own → ∀ depth,
      ((design.withOverride override).readVariantAt depth token).result =
        (design.readVariantAt depth token).result :=
    fun token avoids depth => readVariantAt_withOverride common defers avoids depth
  have atTop : ∀ token : Text, token.Avoids own →
      ((design.withOverride override).readVariant token).result =
        (design.readVariant token).result := by
    intro token avoids
    have unchanged : design.readVariant token = design.readVariantAt 0 token :=
      readNested_of_override_eq_none (common token 0)
    rw [unchanged, ← atDepth token avoids 0]
    exact defers token avoids.not_mem 0
  refine ⟨fun token avoids => ⟨atTop token avoids, atDepth token avoids⟩, ?_⟩
  intro input avoids
  have sameEach : ∀ token ∈ (input.pieces ':').dropLast.reverse,
      ((design.withOverride override).readVariant token).result =
        (design.readVariant token).result := by
    intro token member
    have inPieces := List.dropLast_subset _ (List.mem_reverse.mp member)
    exact atTop token (avoids.mono (Text.infix_of_mem_pieces inPieces))
  have sameVariants := readVariants_result_congr sameEach
  rw [readCandidate_result_eq, readCandidate_result_eq, sameVariants]
  rfl

/-- The token `hocus` stands for two states, also inside `group-hocus`.  It shows in no text
without it. -/
theorem own_readings_are_invisible_hocus :
    let vocabulary := (({} : Vocabulary).addVariant "group".toList .compound true).addVariant
      "hover".toList .static true
    let design := (vocabulary.addStatic "flex".toList).design
    let own : Set Text := {"hocus".toList}
    let states : Variant := .arbitrary "&:is(:hover, :focus)".toList true
    let override : Text → Nat → Option (Traced Variant) := fun token _ =>
      if token = "hocus".toList then some (.accept states) else none
    let extended := design.withOverride override
    let token : Text := "group-hover".toList
    let input : Text := "hover:group-hover:flex!".toList
    design.FollowsCommonRules ∧
      (∀ token, token ∉ own → ∀ depth,
        (extended.readNested depth token).result = (extended.readVariantAt depth token).result) ∧
      token.Avoids own ∧ input.Avoids own ∧
      (extended.readVariant token).result = (design.readVariant token).result ∧
      (extended.readVariantAt 32 token).result = (design.readVariantAt 32 token).result ∧
      (extended.readCandidate input).result = (design.readCandidate input).result ∧
      (design.readCandidate input).result.isSome = true ∧
      (extended.readVariant "group-hocus".toList).result =
        some (.compound "group".toList none states true) ∧
      (design.readVariant "group-hocus".toList).result = none := by
  intro vocabulary design own states override extended token input
  have common : design.FollowsCommonRules := fun _ _ => rfl
  have defers : ∀ token, token ∉ own → ∀ depth,
      (extended.readNested depth token).result = (extended.readVariantAt depth token).result := by
    intro token notOwn depth
    have silent : extended.override token depth = none := if_neg notOwn
    rw [readNested_of_override_eq_none silent]
  -- Neither text has the letter `c`.
  have avoids : ∀ text : Text, 'c' ∉ text → text.Avoids own := by
    intro text absent found member inside
    obtain rfl : found = "hocus".toList := member
    exact absent (inside.subset (by simp))
  have tokenAvoids : token.Avoids own := avoids token (by decide)
  have inputAvoids : input.Avoids own := avoids input (by decide)
  obtain ⟨ofTokens, ofInputs⟩ := own_readings_are_invisible common defers
  obtain ⟨atTop, atDepth⟩ := ofTokens token tokenAvoids
  exact ⟨common, defers, tokenAvoids, inputAvoids, atTop, atDepth 32, ofInputs input inputAvoids,
    rfl, rfl, rfl⟩

/-- Where the other tokens are left to the common rules altogether, all answers about the
parts of the text are the same. -/
theorem withOverride_agreesWithin (common : design.FollowsCommonRules)
    (silent : ∀ token, token ∉ own → ∀ depth, override token depth = none) {text : Text}
    (avoids : text.Avoids own) : (design.withOverride override).AgreesWithin design text where
  hasUtility _ _ _ := rfl
  hasVariant _ _ := rfl
  variantKind _ _ := rfl
  variantCompounds _ _ := rfl
  override token depth inText := by
    rw [common token depth]
    exact silent token (avoids.mono inText).not_mem depth
  maxVariantDepth := rfl

/-- Then the records of what is rejected are the same too. -/
theorem own_readings_leave_no_records (common : design.FollowsCommonRules)
    (silent : ∀ token, token ∉ own → ∀ depth, override token depth = none) {text : Text}
    (avoids : text.Avoids own) :
    (design.withOverride override).readVariant text = design.readVariant text ∧
      (∀ depth, (design.withOverride override).readVariantAt depth text =
        design.readVariantAt depth text) ∧
      (design.withOverride override).readCandidate text = design.readCandidate text := by
  have agrees := withOverride_agreesWithin common silent avoids
  exact ⟨agrees.readVariant_eq, agrees.readVariantAt_eq, agrees.readCandidate_eq⟩

end WithOverride

end Design

end UtilityClass
