import Mathlib.Data.List.Forall2
import UtilityClass.Candidate.Reading
import UtilityClass.Proofs.Text.Pieces
import UtilityClass.Vocabulary.Stock

/-!
# Candidates compose over colons

A candidate is read piece by piece, and no piece knows of the others.  The
variants of a candidate are therefore those of its tokens, and all else is what
the base gives when it is read alone.
-/

namespace UtilityClass

namespace Traced

variable {α β : Type}

theorem andThen_result (first : Traced α) (next : α → Traced β) :
    (first.andThen next).result = first.result.bind fun value => (next value).result := by
  unfold andThen
  cases first.result with
  | none => rfl
  | some value => rfl

theorem ofExcept_result {ε : Type} (record : ε → Rejection) (checked : Except ε α) :
    (ofExcept record checked).result = checked.toOption := by
  cases checked with
  | error fault => rfl
  | ok value => rfl

end Traced

namespace Design

/-- Each token reads as the variant at its place. -/
def ReadsEach (design : Design) (tokens : List Text) (variants : List Variant) : Prop :=
  List.Forall₂ (fun token variant => (design.readVariant token).result = some variant)
    tokens variants

variable {design : Design}

theorem readVariants_result_eq_some_iff {tokens : List Text} {variants : List Variant} :
    (design.readVariants tokens).result = some variants ↔ design.ReadsEach tokens variants := by
  induction tokens generalizing variants with
  | nil =>
      constructor
      · intro found
        obtain rfl := Option.some.inj found
        exact .nil
      · intro reads
        cases reads
        rfl
  | cons token tokens induction =>
      simp only [readVariants, Traced.andThen_result_eq_some_iff, Traced.accept_result]
      constructor
      · intro ⟨variant, first, others, later, same⟩
        obtain rfl := Option.some.inj same
        exact .cons first (induction.mp later)
      · intro reads
        cases reads with
        | cons first later => exact ⟨_, first, _, induction.mpr later, rfl⟩

theorem exists_readsEach_iff {tokens : List Text} :
    (∃ variants, design.ReadsEach tokens variants) ↔
      ∀ token ∈ tokens, (design.readVariant token).result.isSome = true := by
  induction tokens with
  | nil => exact ⟨fun _ => by simp, fun _ => ⟨[], .nil⟩⟩
  | cons token tokens induction =>
      rw [List.forall_mem_cons, ← induction, Option.isSome_iff_exists]
      constructor
      · intro ⟨variants, reads⟩
        cases reads with
        | cons first later => exact ⟨⟨_, first⟩, _, later⟩
      · intro ⟨⟨variant, first⟩, variants, later⟩
        exact ⟨variant :: variants, .cons first later⟩

theorem ReadsEach.reverse {tokens : List Text} {variants : List Variant}
    (reads : design.ReadsEach tokens variants) :
    design.ReadsEach tokens.reverse variants.reverse :=
  List.rel_reverse reads

theorem ReadsEach.exists_token {tokens : List Text} {variants : List Variant}
    (reads : design.ReadsEach tokens variants) {variant : Variant} (member : variant ∈ variants) :
    ∃ token ∈ tokens, (design.readVariant token).result = some variant := by
  induction reads with
  | nil => exact absurd member List.not_mem_nil
  | @cons token first tokens later read _ induction =>
      rcases List.mem_cons.mp member with rfl | inLater
      · exact ⟨token, List.mem_cons_self, read⟩
      · obtain ⟨found, foundMember, foundRead⟩ := induction inLater
        exact ⟨found, List.mem_cons_of_mem _ foundMember, foundRead⟩

/-- A candidate is a reading of its base under the variants of the tokens
before it, the nearest one first. -/
theorem readCandidate_result_eq_some_iff {input base : Text} {tokens : List Text}
    (pieces : input.pieces ':' = tokens ++ [base]) {candidate : Candidate} :
    (design.readCandidate input).result = some candidate ↔
      design.ReadsEach tokens.reverse candidate.variants ∧
        design.readUtility (Markers.ofBase base).core (Markers.ofBase base).negative =
          .ok candidate.utility ∧
        candidate.important = (Markers.ofBase base).important := by
  have baseLast : (input.pieces ':').getLastD [] = base := by simp [pieces]
  have tokensFirst : (input.pieces ':').dropLast = tokens := by simp [pieces]
  simp only [readCandidate, baseLast, tokensFirst, Traced.andThen_result_eq_some_iff,
    Traced.orRecord_result, Traced.ofExcept_result_eq_some_iff, Traced.accept_result,
    readVariants_result_eq_some_iff]
  constructor
  · intro ⟨variants, reads, utility, found, same⟩
    obtain rfl := Option.some.inj same
    exact ⟨reads, found, rfl⟩
  · intro ⟨reads, found, important⟩
    refine ⟨_, reads, _, found, ?_⟩
    rw [← important]

theorem readCandidate_eq_of_pieces {input base : Text} {tokens : List Text}
    (pieces : input.pieces ':' = tokens ++ [base]) :
    design.readCandidate input =
      ((design.readVariants tokens.reverse).orRecord
          (.candidate input .invalidVariant)).andThen fun variants =>
        (Traced.ofExcept (.candidate input)
            (design.readUtility (Markers.ofBase base).core
              (Markers.ofBase base).negative)).andThen fun utility =>
          .accept ⟨utility, variants, (Markers.ofBase base).important⟩ := by
  have baseLast : (input.pieces ':').getLastD [] = base := by simp [pieces]
  have tokensFirst : (input.pieces ':').dropLast = tokens := by simp [pieces]
  simp only [readCandidate, baseLast, tokensFirst]

theorem readCandidate_result_eq (input : Text) :
    let marked := Markers.ofBase ((input.pieces ':').getLastD [])
    (design.readCandidate input).result =
      (design.readVariants (input.pieces ':').dropLast.reverse).result.bind fun variants =>
        (design.readUtility marked.core marked.negative).toOption.map fun utility =>
          ⟨utility, variants, marked.important⟩ := by
  simp only [readCandidate, Traced.andThen_result, Traced.orRecord_result,
    Traced.ofExcept_result, Traced.accept_result, Option.map_eq_bind, Function.comp_def]

theorem exists_token_of_mem_variants {input : Text} {candidate : Candidate}
    (found : (design.readCandidate input).result = some candidate) {variant : Variant}
    (member : variant ∈ candidate.variants) :
    ∃ token ∈ input.pieces ':', (design.readVariant token).result = some variant := by
  obtain ⟨tokens, base, pieces⟩ :=
    (List.eq_nil_or_concat' (input.pieces ':')).resolve_left (Text.pieces_ne_nil ':' input)
  obtain ⟨reads, _, _⟩ := (readCandidate_result_eq_some_iff pieces).mp found
  obtain ⟨token, tokenMember, read⟩ := reads.exists_token member
  refine ⟨token, ?_, read⟩
  rw [pieces]
  exact List.mem_append_left _ (List.mem_reverse.mp tokenMember)

theorem readCandidate_base_result_eq_some_iff {base : Text} (whole : base.pieces ':' = [base])
    {candidate : Candidate} :
    (design.readCandidate base).result = some candidate ↔
      candidate.variants = [] ∧
        design.readUtility (Markers.ofBase base).core (Markers.ofBase base).negative =
          .ok candidate.utility ∧
        candidate.important = (Markers.ofBase base).important := by
  rw [@readCandidate_result_eq_some_iff design base base [] whole]
  exact and_congr_left' (List.forall₂_nil_left_iff)

/-- A candidate is accepted when its base is and each of its variants is.  It
is then the candidate of the base, under the variants from the base outward. -/
theorem readCandidate_composes {input base : Text} {tokens : List Text}
    (pieces : input.pieces ':' = tokens ++ [base]) :
    ((design.readCandidate input).result.isSome = true ↔
        (∀ token ∈ tokens, (design.readVariant token).result.isSome = true) ∧
          (design.readCandidate base).result.isSome = true) ∧
      ∀ variants candidate,
        List.Forall₂ (fun token variant => (design.readVariant token).result = some variant)
          tokens variants →
        (design.readCandidate base).result = some candidate →
        candidate.variants = [] ∧
          (design.readCandidate input).result =
            some { candidate with variants := variants.reverse } := by
  have member : base ∈ input.pieces ':' := by simp [pieces]
  have whole : base.pieces ':' = [base] := Text.pieces_eq_singleton_of_mem member
  have composed : ∀ variants candidate, design.ReadsEach tokens variants →
      (design.readCandidate base).result = some candidate →
      candidate.variants = [] ∧
        (design.readCandidate input).result =
          some { candidate with variants := variants.reverse } := by
    intro variants candidate reads found
    obtain ⟨noVariants, utility, important⟩ :=
      (readCandidate_base_result_eq_some_iff whole).mp found
    refine ⟨noVariants, ?_⟩
    apply (readCandidate_result_eq_some_iff pieces).mpr
    exact ⟨reads.reverse, utility, important⟩
  refine ⟨?_, composed⟩
  constructor
  · intro accepted
    obtain ⟨candidate, found⟩ := Option.isSome_iff_exists.mp accepted
    obtain ⟨reads, utility, important⟩ := (readCandidate_result_eq_some_iff pieces).mp found
    constructor
    · apply exists_readsEach_iff.mp
      exact ⟨candidate.variants.reverse, by simpa using reads.reverse⟩
    · rw [Option.isSome_iff_exists]
      refine ⟨{ candidate with variants := [] }, ?_⟩
      apply (readCandidate_base_result_eq_some_iff whole).mpr
      exact ⟨rfl, utility, important⟩
  · intro ⟨eachAccepted, baseAccepted⟩
    obtain ⟨variants, reads⟩ := exists_readsEach_iff.mpr eachAccepted
    obtain ⟨candidate, found⟩ := Option.isSome_iff_exists.mp baseAccepted
    rw [(composed variants candidate reads found).2]
    rfl

/-- Two variants in front of `-mx-4!`. -/
theorem readCandidate_composes_two_variants :
    let design := ((({} : Vocabulary).addVariants ["hover", "focus"] .static true).addFunctional
      "mx".toList).design
    let hover := Variant.static "hover".toList true
    let focus := Variant.static "focus".toList true
    let utility := Utility.functional "mx".toList (some (.named "4".toList none)) none true
    Text.pieces ':' "hover:focus:-mx-4!".toList =
        ["hover".toList, "focus".toList] ++ ["-mx-4!".toList] ∧
      (design.readCandidate "-mx-4!".toList).result = some ⟨utility, [], true⟩ ∧
      (design.readCandidate "hover:focus:-mx-4!".toList).result =
        some ⟨utility, [focus, hover], true⟩ := by
  intro design hover focus utility
  have pieces : Text.pieces ':' "hover:focus:-mx-4!".toList =
      ["hover".toList, "focus".toList] ++ ["-mx-4!".toList] := rfl
  have base : (design.readCandidate "-mx-4!".toList).result = some ⟨utility, [], true⟩ := rfl
  have reads : design.ReadsEach ["hover".toList, "focus".toList] [hover, focus] :=
    .cons rfl (.cons rfl .nil)
  have composed := (readCandidate_composes pieces).2 [hover, focus] _ reads base
  exact ⟨pieces, base, composed.2⟩

end Design

end UtilityClass
