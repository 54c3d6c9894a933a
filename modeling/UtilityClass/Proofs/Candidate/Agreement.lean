import UtilityClass.Candidate.Reading
import UtilityClass.Proofs.Candidate.Value
import UtilityClass.Proofs.Text.Parts
import UtilityClass.Proofs.Variant.Layer

/-!
# What a reading asks

Everything a reading asks a design about is a part of the text that is read: a
root, the token of a variant, or the token nested in one.  Designs that give
the same answers about the parts of a text therefore read it alike, down to
the records.
-/

namespace UtilityClass

namespace Markers

theorem infix_takeImportant (base : Text) : (takeImportant base).1 <:+: base := by
  unfold takeImportant
  split
  next found => exact Text.infix_of_withoutFinal found
  next =>
    split
    next found => exact Text.infix_of_withoutFirst found
    next => exact List.infix_rfl

theorem infix_takeNegative (base : Text) : (takeNegative base).1 <:+: base := by
  unfold takeNegative
  split
  next found => exact Text.infix_of_withoutFirst found
  next => exact List.infix_rfl

theorem infix_core (base : Text) : (ofBase base).core <:+: base :=
  (infix_takeNegative _).trans (infix_takeImportant base)

end Markers

namespace Design

theorem ReadsLayer.infix_nested {design : Design} {token root nested : Text}
    {modifier : Option Modifier} {compounds : Bool}
    (reads : design.ReadsLayer token (.wrapping root modifier compounds nested)) :
    nested <:+: token := by
  cases reads with
  | compound rooted =>
      obtain ⟨head, cut, found⟩ := rooted.cut
      have inHead : nested <:+: head := Text.value_infix_of_longestRoot?_eq_some found
      exact inHead.trans (Modifier.infix_of_cut?_eq_some cut)

/-- Two designs give the same answers about every part of a text. -/
structure AgreesWithin (design other : Design) (text : Text) : Prop where
  hasUtility : ∀ kind name, name <:+: text →
    design.hasUtility kind name = other.hasUtility kind name
  hasVariant : ∀ name, name <:+: text → design.hasVariant name = other.hasVariant name
  variantKind : ∀ name, name <:+: text → design.variantKind name = other.variantKind name
  variantCompounds : ∀ name, name <:+: text →
    design.variantCompounds name = other.variantCompounds name
  override : ∀ token depth, token <:+: text →
    design.override token depth = other.override token depth
  maxVariantDepth : design.maxVariantDepth = other.maxVariantDepth

namespace AgreesWithin

variable {design other : Design} {text token head : Text}

theorem mono {part : Text} (agrees : design.AgreesWithin other text)
    (inText : part <:+: text) : design.AgreesWithin other part where
  hasUtility kind name inPart := agrees.hasUtility kind name (inPart.trans inText)
  hasVariant name inPart := agrees.hasVariant name (inPart.trans inText)
  variantKind name inPart := agrees.variantKind name (inPart.trans inText)
  variantCompounds name inPart := agrees.variantCompounds name (inPart.trans inText)
  override token depth inPart := agrees.override token depth (inPart.trans inText)
  maxVariantDepth := agrees.maxVariantDepth

theorem readLayer_eq (agrees : design.AgreesWithin other token) :
    design.readLayer token = other.readLayer token := by
  unfold readLayer
  cases token.bracketed? with
  | some raw => rfl
  | none =>
      cases cut : Modifier.cut? token with
      | none => rfl
      | some parts =>
          obtain ⟨head, modifier⟩ := parts
          have headInToken : head <:+: token := Modifier.infix_of_cut?_eq_some cut
          have sameRoot : head.longestRoot? design.hasVariant =
              head.longestRoot? other.hasVariant :=
            Text.longestRoot?_congr (agrees.mono headInToken).hasVariant
          simp only [sameRoot]
          cases found : head.longestRoot? other.hasVariant with
          | none => rfl
          | some rootAndValue =>
              obtain ⟨root, value⟩ := rootAndValue
              have rootInToken : root <:+: token :=
                (Text.root_infix_of_longestRoot?_eq_some found).trans headInToken
              simp only [agrees.variantKind root rootInToken,
                agrees.variantCompounds root rootInToken]

theorem readVariantWithin_eq (agrees : design.AgreesWithin other token) (levels depth : Nat) :
    design.readVariantWithin levels depth token = other.readVariantWithin levels depth token := by
  -- The induction is on the levels.  The token of each further level is part of
  -- the one around it, so the designs agree within it as well.
  induction levels generalizing depth token with
  | zero => rfl
  | succ levels induction =>
      unfold readVariantWithin
      rw [agrees.readLayer_eq]
      cases read : other.readLayer token with
      | error fault => rfl
      | ok layer =>
          cases layer with
          | complete variant => rfl
          | wrapping root modifier compounds nested =>
              have nestedInToken : nested <:+: token := (readLayer_eq_ok_iff.mp read).infix_nested
              simp only [agrees.override nested (depth + 1) nestedInToken,
                induction (agrees.mono nestedInToken)]

theorem readVariantAt_eq (agrees : design.AgreesWithin other token) (depth : Nat) :
    design.readVariantAt depth token = other.readVariantAt depth token := by
  unfold readVariantAt
  rw [agrees.maxVariantDepth]
  exact agrees.readVariantWithin_eq _ depth

theorem readVariant_eq (agrees : design.AgreesWithin other token) :
    design.readVariant token = other.readVariant token := by
  unfold readVariant
  rw [agrees.override token 0 List.infix_rfl, agrees.readVariantAt_eq 0]

theorem readVariants_eq {tokens : List Text}
    (agree : ∀ token ∈ tokens, design.AgreesWithin other token) :
    design.readVariants tokens = other.readVariants tokens := by
  induction tokens with
  | nil => rfl
  | cons token tokens induction =>
      obtain ⟨agrees, agreeLater⟩ := List.forall_mem_cons.mp agree
      simp only [readVariants, agrees.readVariant_eq, induction agreeLater]

theorem functionalRoot_eq (agrees : design.AgreesWithin other head) :
    design.functionalRoot head = other.functionalRoot head := by
  unfold functionalRoot
  split
  next closed =>
    cases cut : Utility.cutAtBracket head with
    | none => rfl
    | some parts =>
        obtain ⟨root, value⟩ := parts
        obtain ⟨_, _, split, _⟩ := Utility.cutAtBracket_eq_some_iff.mp cut
        have rootInHead : root <:+: head := by
          rw [split]
          exact Text.infix_before_dash root value
        simp only [agrees.hasUtility .functional root rootInHead]
  next => simp only [Text.longestRoot?_congr (agrees.hasUtility .functional)]

theorem readFunctional_eq (agrees : design.AgreesWithin other head)
    (modifier : Option Modifier) (negative : Bool) :
    design.readFunctional head modifier negative =
      other.readFunctional head modifier negative := by
  unfold readFunctional
  rw [agrees.functionalRoot_eq]

theorem readUtility_eq {core : Text} (agrees : design.AgreesWithin other core)
    (negative : Bool) : design.readUtility core negative = other.readUtility core negative := by
  unfold readUtility
  rw [agrees.hasUtility .static core List.infix_rfl]
  cases cut : Modifier.cut? core with
  | none => rfl
  | some parts =>
      obtain ⟨head, tail⟩ := parts
      have headInCore : head <:+: core := Modifier.infix_of_cut?_eq_some cut
      simp only [(agrees.mono headInCore).readFunctional_eq]

theorem readCandidate_eq (agrees : design.AgreesWithin other text) :
    design.readCandidate text = other.readCandidate text := by
  have agreeWithinPiece : ∀ piece ∈ text.pieces ':', design.AgreesWithin other piece := by
    intro piece member
    exact agrees.mono (Text.infix_of_mem_pieces member)
  have sameVariants : design.readVariants (text.pieces ':').dropLast.reverse =
      other.readVariants (text.pieces ':').dropLast.reverse := by
    apply readVariants_eq
    intro token member
    apply agreeWithinPiece
    exact List.dropLast_subset _ (List.mem_reverse.mp member)
  have baseMember : (text.pieces ':').getLastD [] ∈ text.pieces ':' := by
    rw [List.getLastD_eq_getLast?, List.getLast?_eq_some_getLast (Text.pieces_ne_nil _ _)]
    exact List.getLast_mem _
  have agreesWithinCore := (agreeWithinPiece _ baseMember).mono (Markers.infix_core _)
  simp only [readCandidate, sameVariants, agreesWithinCore.readUtility_eq]

end AgreesWithin

end Design

end UtilityClass
