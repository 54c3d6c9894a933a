import Mathlib.Data.List.Chain
import UtilityClass.Proofs.Candidate.Agreement
import UtilityClass.Proofs.Candidate.Composition
import UtilityClass.Proofs.Variant.Levels

/-!
# The records of a rejection

What is accepted leaves no record.  What is not accepted leaves one chain of
them: the innermost token with a fault of its own comes first, each token
around it is told to be invalid inside, and the candidate comes last.
-/

namespace UtilityClass

/-- A contiguous part of a text that is not the whole text. -/
structure Text.ProperPart (part whole : Text) : Prop where
  inWhole : part <:+: whole
  shorter : part.length < whole.length

theorem Text.properPart_of_pieces {separator : Char} {text token base : Text}
    {before after : List Text}
    (pieces : text.pieces separator = before ++ token :: (after ++ [base])) :
    token.ProperPart text := by
  have member : token ∈ text.pieces separator := by simp [pieces]
  have inText := infix_of_mem_pieces member
  refine ⟨inText, Nat.lt_of_le_of_ne inText.length_le ?_⟩
  intro same
  -- The whole text would be its own only piece, but the base is another one.
  obtain rfl := inText.eq_of_length same
  have lengths := congrArg List.length (pieces.symm.trans (pieces_eq_singleton_of_mem member))
  simp only [List.length_append, List.length_cons, List.length_nil] at lengths
  omega

namespace Rejection

/-- The reason as it is recorded. -/
def reason : Rejection → String
  | variant _ fault => fault.message
  | candidate _ fault => fault.message

/-- The records of a rejected variant token, from the innermost token outward. -/
inductive Trail : Text → List Rejection → Prop where
  | own {token : Text} {fault : VariantFault} :
      fault ≠ .nestedInvalid → Trail token [.variant token fault]
  | around {token nested : Text} {records : List Rejection} :
      Trail nested records → nested.ProperPart token →
      Trail token (records ++ [.variant token .nestedInvalid])

/-- Records that end in the record of `token`, each one about a proper part of
what the next one is about. -/
structure ChainTo (token : Text) (records : List Rejection) : Prop where
  last : (records.map Rejection.token).getLast? = some token
  parts : (records.map Rejection.token).IsChain Text.ProperPart

theorem ChainTo.append {token outer : Text} {records : List Rejection} {record : Rejection}
    (chain : ChainTo token records) (isOuter : record.token = outer)
    (part : token.ProperPart outer) : ChainTo outer (records ++ [record]) := by
  constructor
  · simp [isOuter]
  · rw [List.map_append]
    apply List.isChain_append.mpr
    refine ⟨chain.parts, List.isChain_singleton _, ?_⟩
    intro inner isLast next isFirst
    rw [chain.last] at isLast
    obtain rfl := Option.some.inj isLast
    obtain rfl : outer = next := by simpa [isOuter] using isFirst
    exact part

namespace Trail

variable {token : Text} {records : List Rejection}

theorem chainTo (trail : Trail token records) : ChainTo token records := by
  induction trail with
  | own => exact ⟨rfl, List.isChain_singleton _⟩
  | around _ part induction => exact induction.append rfl part

theorem ne_nil (trail : Trail token records) : records ≠ [] := by
  cases trail with
  | own => exact List.cons_ne_nil _ _
  | around => exact List.concat_ne_nil _ _

theorem ofVariants (trail : Trail token records) :
    ∀ record ∈ records, ∃ part fault, record = .variant part fault := by
  induction trail with
  | own =>
      intro record member
      exact ⟨_, _, List.mem_singleton.mp member⟩
  | around _ _ induction =>
      intro record member
      rcases List.mem_append.mp member with inner | last
      · exact induction record inner
      · exact ⟨_, _, List.mem_singleton.mp last⟩

/-- Only the first record gives a reason of its own. -/
theorem reasons (trail : Trail token records) :
    ∃ first others, records = first :: others ∧
      first.reason ≠ "nested variant is invalid" ∧
      ∀ other ∈ others, other.reason = "nested variant is invalid" := by
  induction trail with
  | @own token fault own =>
      refine ⟨_, [], rfl, ?_, by simp⟩
      cases fault <;> simp_all [reason, VariantFault.message]
  | @around token nested records _ _ induction =>
      obtain ⟨first, others, rfl, firstOwn, othersNested⟩ := induction
      refine ⟨first, others ++ [.variant token .nestedInvalid], rfl, firstOwn, ?_⟩
      intro other member
      rcases List.mem_append.mp member with inner | last
      · exact othersNested other inner
      · obtain rfl := List.mem_singleton.mp last
        rfl

end Trail

end Rejection

open Rejection (Trail)

namespace Traced

variable {α β : Type} {first : Traced α}

@[simp] theorem accept_andThen (value : α) (next : α → Traced β) :
    (accept value).andThen next = next value := rfl

@[simp] theorem accept_orRecord (value : α) (record : Rejection) :
    (accept value).orRecord record = accept value := rfl

@[simp] theorem none_andThen (records : List Rejection) (next : α → Traced β) :
    (⟨none, records⟩ : Traced α).andThen next = ⟨none, records⟩ := rfl

@[simp] theorem none_orRecord (records : List Rejection) (record : Rejection) :
    (⟨none, records⟩ : Traced α).orRecord record = ⟨none, records ++ [record]⟩ := rfl

end Traced

/-- A reading of a variant token leaves nothing when it accepts the token, and
a trail of the token when it does not. -/
inductive LeavesTrail (token : Text) : Traced Variant → Prop where
  | accepted (variant : Variant) : LeavesTrail token (.accept variant)
  | rejected {records : List Rejection} : Trail token records →
      LeavesTrail token ⟨none, records⟩

theorem LeavesTrail.own {token : Text} {fault : VariantFault} (own : fault ≠ .nestedInvalid) :
    LeavesTrail token (.reject (.variant token fault)) :=
  .rejected (.own own)

theorem LeavesTrail.wrap {token root nested : Text} {modifier : Option Modifier}
    {compounds : Bool} {reading : Traced Variant} (leaves : LeavesTrail nested reading)
    (part : nested.ProperPart token) :
    LeavesTrail token (Design.wrap token root modifier compounds reading) := by
  unfold Design.wrap
  cases leaves with
  | rejected trail =>
      rw [Traced.none_orRecord, Traced.none_andThen]
      exact .rejected (.around trail part)
  | accepted inner =>
      rw [Traced.accept_orRecord, Traced.accept_andThen]
      split
      next => exact .accepted _
      next => exact .own (by simp)

namespace Layer

theorem ofSelector_ne_nestedInvalid (raw : Text) : ofSelector raw ≠ .error .nestedInvalid := by
  unfold ofSelector
  split <;> simp

theorem ofKind_ne_nestedInvalid (root : Text) (value modifier : Option Text) (compounds : Bool)
    (kind : VariantKind) :
    ofKind root value modifier compounds kind ≠ .error .nestedInvalid := by
  cases kind with
  | static => cases value <;> cases modifier <;> simp [ofKind]
  | functional => cases value <;> simp [ofKind]
  | compound => cases value <;> simp [ofKind]

end Layer

namespace Design

variable {design : Design}

theorem readLayer_ne_nestedInvalid (token : Text) :
    design.readLayer token ≠ .error .nestedInvalid := by
  unfold readLayer
  split
  next => exact Layer.ofSelector_ne_nestedInvalid _
  next =>
    split
    next => simp
    next =>
      split
      next => simp
      next =>
        split
        next => simp
        next => exact Layer.ofKind_ne_nestedInvalid _ _ _ _ _

theorem ReadsLayer.properPart_nested {token root nested : Text} {modifier : Option Modifier}
    {compounds : Bool}
    (reads : design.ReadsLayer token (.wrapping root modifier compounds nested)) :
    nested.ProperPart token :=
  ⟨reads.infix_nested, reads.length_lt⟩

theorem readVariantWithin_leavesTrail (common : design.FollowsCommonRules)
    (levels depth : Nat) (token : Text) :
    LeavesTrail token (design.readVariantWithin levels depth token) := by
  -- The induction is on the levels.  Running out of them is a fault of the
  -- token that needs one more.
  induction levels generalizing depth token with
  | zero => exact .own (by simp)
  | succ levels induction =>
      unfold readVariantWithin
      cases read : design.readLayer token with
      | error fault =>
          apply LeavesTrail.own
          rintro rfl
          exact readLayer_ne_nestedInvalid token read
      | ok layer =>
          cases layer with
          | complete variant => exact .accepted variant
          | wrapping root modifier compounds nested =>
              have inner := induction (depth + 1) nested
              simp only [common nested (depth + 1)]
              exact inner.wrap (readLayer_eq_ok_iff.mp read).properPart_nested

theorem readVariant_leavesTrail (common : design.FollowsCommonRules) (token : Text) :
    LeavesTrail token (design.readVariant token) := by
  unfold readVariant
  rw [common token 0]
  exact readVariantWithin_leavesTrail common _ 0 token

/-- Variants are read up to the first token that is not accepted, and only that
token leaves records. -/
theorem readVariants_cases (common : design.FollowsCommonRules) (tokens : List Text) :
    (∃ variants, design.readVariants tokens = .accept variants) ∨
      ∃ before token after records, tokens = before ++ token :: after ∧
        (∀ earlier ∈ before, (design.readVariant earlier).result.isSome = true) ∧
        (design.readVariant token).result = none ∧ Trail token records ∧
        design.readVariants tokens = ⟨none, records⟩ := by
  induction tokens with
  | nil => exact .inl ⟨[], rfl⟩
  | cons token tokens induction =>
      have leaves := readVariant_leavesTrail common token
      generalize read : design.readVariant token = reading at leaves
      unfold readVariants
      rw [read]
      cases leaves with
      | @rejected records trail =>
          exact .inr ⟨[], token, tokens, records, rfl, by simp, by rw [read], trail, rfl⟩
      | accepted variant =>
          rw [Traced.accept_andThen]
          rcases induction with ⟨variants, accepted⟩ | ⟨before, first, after, records, rfl,
            beforeAccepted, rejected, trail, stopped⟩
          · rw [accepted]
            exact .inl ⟨variant :: variants, rfl⟩
          · rw [stopped]
            have accepted : (design.readVariant token).result.isSome = true := by rw [read]; rfl
            exact .inr ⟨token :: before, first, after, records, rfl,
              List.forall_mem_cons.mpr ⟨accepted, beforeAccepted⟩, rejected, trail, rfl⟩

end Design

namespace Utility

theorem ofProperty_ne_invalidVariant (rest : Text) (modifier : Option Modifier) :
    ofProperty rest modifier ≠ .error .invalidVariant := by
  unfold ofProperty
  split
  next => simp
  next =>
    split
    next =>
      split
      next => simp
      next => split <;> simp
    next => simp

theorem readValue_ne_invalidVariant (value : Text) (modifier : Option Modifier) :
    readValue value modifier ≠ .error .invalidVariant := by
  unfold readValue
  split
  next => simp
  next => split <;> simp

end Utility

namespace Design

variable {design : Design}

theorem functionalRoot_ne_invalidVariant (head : Text) :
    design.functionalRoot head ≠ .error .invalidVariant := by
  unfold functionalRoot
  dsimp only
  split
  next =>
    split
    next => simp
    next => split <;> simp
  next => split <;> simp

theorem readFunctional_ne_invalidVariant (head : Text) (modifier : Option Modifier)
    (negative : Bool) :
    design.readFunctional head modifier negative ≠ .error .invalidVariant := by
  unfold readFunctional
  cases found : design.functionalRoot head with
  | error fault =>
      intro failed
      obtain rfl : fault = .invalidVariant := Except.error.inj failed
      exact functionalRoot_ne_invalidVariant head found
  | ok rootAndValue =>
      obtain ⟨root, value⟩ := rootAndValue
      match value with
      | none => exact nofun
      | some [] => exact nofun
      | some (first :: rest) =>
          cases read : Utility.readValue (first :: rest) modifier with
          | error fault =>
              simp only [bind, Except.bind, read]
              intro failed
              obtain rfl := Except.error.inj failed
              exact Utility.readValue_ne_invalidVariant _ modifier read
          | ok parsed => simp [bind, Except.bind, read, pure, Except.pure]

theorem readUtility_ne_invalidVariant (core : Text) (negative : Bool) :
    design.readUtility core negative ≠ .error .invalidVariant := by
  unfold readUtility
  split
  next => simp
  next =>
    split
    next => simp
    next =>
      split
      next => exact Utility.ofProperty_ne_invalidVariant _ _
      next => exact readFunctional_ne_invalidVariant _ _ negative

theorem readCandidate_cases (common : design.FollowsCommonRules) (input : Text) :
    (∃ candidate, design.readCandidate input = .accept candidate) ∨
      (∃ fault, fault ≠ .invalidVariant ∧
        design.readCandidate input = .reject (.candidate input fault)) ∨
      ∃ before token after base records,
        input.pieces ':' = before ++ token :: (after ++ [base]) ∧
          (design.readVariant token).result = none ∧
          (∀ later ∈ after, (design.readVariant later).result.isSome = true) ∧
          Trail token records ∧
          design.readCandidate input = ⟨none, records ++ [.candidate input .invalidVariant]⟩ := by
  obtain ⟨tokens, base, pieces⟩ :=
    (List.eq_nil_or_concat' (input.pieces ':')).resolve_left (Text.pieces_ne_nil ':' input)
  rw [readCandidate_eq_of_pieces pieces]
  rcases readVariants_cases common tokens.reverse with ⟨variants, accepted⟩ |
    ⟨after, token, before, records, split, valid, invalid, trail, stopped⟩
  · rw [accepted, Traced.accept_orRecord, Traced.accept_andThen]
    cases read : design.readUtility (Markers.ofBase base).core (Markers.ofBase base).negative with
    | ok utility => exact .inl ⟨_, rfl⟩
    | error fault =>
        refine .inr (.inl ⟨fault, ?_, rfl⟩)
        rintro rfl
        exact readUtility_ne_invalidVariant _ _ read
  · -- The tokens are read from the base outward, so those read before stand after.
    rw [stopped, Traced.none_orRecord, Traced.none_andThen]
    have tokens_eq : tokens = before.reverse ++ token :: after.reverse := by
      simpa using congrArg List.reverse split
    refine .inr (.inr ⟨before.reverse, token, after.reverse, base, records, ?_, invalid, ?_,
      trail, rfl⟩)
    · simp [pieces, tokens_eq]
    · simpa using valid

theorem message_eq_invalidVariant_iff {fault : CandidateFault} :
    fault.message = "invalid variant" ↔ fault = .invalidVariant := by
  cases fault <;> simp [CandidateFault.message]

/-- An accepted candidate is silent.  A rejected one leaves records of variants
and then one of its own, each about a proper part of what the next is about.
There are records of variants exactly when a variant is to blame.  They end in
the invalid token that is next to the base, and only the first of them gives
another reason than that the token inside is invalid. -/
theorem rejections_form_one_chain (common : design.FollowsCommonRules) (input : Text) :
    ((design.readCandidate input).result.isSome = true →
        (design.readCandidate input).records = []) ∧
      ((design.readCandidate input).result = none →
        ∃ ofVariants fault,
          (design.readCandidate input).records = ofVariants ++ [.candidate input fault] ∧
          (∀ record ∈ ofVariants, ∃ part fault, record = .variant part fault) ∧
          ((design.readCandidate input).records.map Rejection.token).IsChain
            Text.ProperPart ∧
          (ofVariants ≠ [] ↔ fault.message = "invalid variant") ∧
          (ofVariants ≠ [] →
            (∃ before token after base,
              input.pieces ':' = before ++ token :: (after ++ [base]) ∧
                (design.readVariant token).result = none ∧
                (∀ later ∈ after, (design.readVariant later).result.isSome = true) ∧
                (ofVariants.map Rejection.token).getLast? = some token) ∧
            ∃ first others, ofVariants = first :: others ∧
              first.reason ≠ "nested variant is invalid" ∧
              ∀ other ∈ others, other.reason = "nested variant is invalid")) := by
  rcases readCandidate_cases common input with ⟨candidate, accepted⟩ | ⟨fault, own, rejected⟩ |
    ⟨before, token, after, base, records, pieces, invalid, valid, trail, rejected⟩
  · rw [accepted]
    exact ⟨fun _ => rfl, nofun⟩
  · rw [rejected]
    have otherMessage : fault.message ≠ "invalid variant" :=
      mt message_eq_invalidVariant_iff.mp own
    refine ⟨nofun, fun _ => ⟨[], fault, rfl, by simp, List.isChain_singleton _, ?_, nofun⟩⟩
    simpa using otherMessage
  · rw [rejected]
    have chain : Rejection.ChainTo input (records ++ [.candidate input .invalidVariant]) :=
      trail.chainTo.append rfl (Text.properPart_of_pieces pieces)
    refine ⟨nofun, fun _ => ⟨records, .invalidVariant, rfl, trail.ofVariants, chain.parts,
      ?_, fun _ => ⟨?_, trail.reasons⟩⟩⟩
    · exact iff_of_true trail.ne_nil rfl
    · exact ⟨before, token, after, base, pieces, invalid, valid, trail.chainTo.last⟩

/-- The second of four variants is invalid inside, two levels down. -/
theorem rejections_form_one_chain_two_levels :
    let design := (((({} : Vocabulary).addVariants ["group", "has"] .compound true).addVariants
      ["hover", "focus"] .static true).addStatic "flex".toList).design
    let input := "odd:group-has-even:hover:focus:flex".toList
    let chain := [Rejection.variant "even".toList .unknown,
      .variant "has-even".toList .nestedInvalid, .variant "group-has-even".toList .nestedInvalid]
    design.FollowsCommonRules ∧ (design.readCandidate input).result = none ∧
      (design.readCandidate input).records = chain ++ [.candidate input .invalidVariant] ∧
      ((design.readCandidate input).records.map Rejection.token).IsChain Text.ProperPart ∧
      (design.readCandidate "hover:flex".toList).records = [] := by
  intro design input chain
  have common : design.FollowsCommonRules := fun _ _ => rfl
  have rejected : (design.readCandidate input).result = none := rfl
  obtain ⟨_, traces⟩ := rejections_form_one_chain common input
  obtain ⟨ofVariants, fault, records, _, parts, _⟩ := traces rejected
  obtain ⟨silent, _⟩ := rejections_form_one_chain common "hover:flex".toList
  exact ⟨common, rejected, rfl, parts, silent rfl⟩

end Design

end UtilityClass
