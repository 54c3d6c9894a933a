import UtilityClass.Proofs.Candidate.Importance

/-!
# Markers of a base

An exclamation mark or a minus says one thing about a utility and is not part of
its text.  A base with a marker is therefore read as the base without it, and
only the field of that marker is set.
-/

namespace UtilityClass

/-- The utility behind a minus.  A property has no sign and stays as it is. -/
def Utility.negated : Utility → Utility
  | .property name value modifier => .property name value modifier
  | .static root _ => .static root true
  | .functional root value modifier _ => .functional root value modifier true

namespace Markers

variable {base : Text}

theorem takeImportant_cons (last : base.getLast? ≠ some '!') :
    takeImportant ('!' :: base) = (base, true) := by
  cases base with
  | nil => rfl
  | cons character rest =>
      have noFinal : ('!' :: character :: rest).getLast? ≠ some '!' := by
        rw [List.getLast?_cons_cons]
        exact last
      simp only [takeImportant, Text.withoutFinal_eq_none_iff.mpr noFinal, Text.withoutFirst,
        if_true]

theorem takeImportant_cons_minus (last : base.getLast? ≠ some '!') :
    takeImportant ('-' :: base) = ('-' :: base, false) := by
  apply takeImportant_of_unmarked
  · simp
  · cases base with
    | nil => decide
    | cons character rest =>
        rw [List.getLast?_cons_cons]
        exact last

theorem takeNegative_of_unsigned (unsigned : base.head? ≠ some '-') :
    takeNegative base = (base, false) := by
  simp only [takeNegative, Text.withoutFirst_eq_none_iff.mpr unsigned]

theorem ofBase_of_unmarked (first : base.head? ≠ some '!') (last : base.getLast? ≠ some '!') :
    ofBase base = ⟨(takeNegative base).1, false, (takeNegative base).2⟩ := by
  simp only [ofBase, takeImportant_of_unmarked first last]

theorem ofBase_concat (first : base.head? ≠ some '!') (last : base.getLast? ≠ some '!') :
    ofBase (base ++ ['!']) = { ofBase base with important := true } := by
  rw [ofBase_of_unmarked first last]
  simp only [ofBase, takeImportant_concat]

theorem ofBase_cons (first : base.head? ≠ some '!') (last : base.getLast? ≠ some '!') :
    ofBase ('!' :: base) = { ofBase base with important := true } := by
  rw [ofBase_of_unmarked first last]
  simp only [ofBase, takeImportant_cons last]

theorem ofBase_cons_minus (first : base.head? ≠ some '!') (last : base.getLast? ≠ some '!')
    (unsigned : base.head? ≠ some '-') :
    ofBase ('-' :: base) = { ofBase base with negative := true } := by
  rw [ofBase_of_unmarked first last, takeNegative_of_unsigned unsigned]
  simp only [ofBase, takeImportant_cons_minus last, takeNegative, Text.withoutFirst, if_true]

end Markers

namespace Utility

theorem negated_of_ofProperty {rest : Text} {modifier : Option Modifier} :
    (ofProperty rest modifier).map negated = ofProperty rest modifier := by
  cases read : ofProperty rest modifier with
  | error fault => rfl
  | ok utility =>
      obtain ⟨_, _, _, _, rfl, _⟩ := exists_property_of_ofProperty read
      rfl

end Utility

namespace Design

variable {design : Design} {base : Text}

theorem readFunctional_negative (head : Text) (modifier : Option Modifier) :
    design.readFunctional head modifier true =
      (design.readFunctional head modifier false).map Utility.negated := by
  unfold readFunctional
  cases design.functionalRoot head with
  | error fault => rfl
  | ok found =>
      obtain ⟨root, value⟩ := found
      cases value with
      | none => rfl
      | some word =>
          cases word with
          | nil => rfl
          | cons first rest =>
              cases read : Utility.readValue (first :: rest) modifier with
              | error fault => simp [bind, Except.bind, read, Except.map]
              | ok parsed =>
                  simp [bind, Except.bind, pure, Except.pure, read, Except.map, Utility.negated]

/-- A minus changes the sign of what is read and no other part of it. -/
theorem readUtility_negative (core : Text) :
    design.readUtility core true = (design.readUtility core false).map Utility.negated := by
  unfold readUtility
  cases isStatic : design.hasUtility .static core && !core.contains '[' with
  | true => rfl
  | false =>
      simp only [Bool.false_eq_true, if_false]
      cases Modifier.cut? core with
      | none => rfl
      | some parts =>
          obtain ⟨head, tail⟩ := parts
          cases opened : head.withoutFirst '[' with
          | none => simp only [opened, readFunctional_negative]
          | some rest => simp only [opened, Utility.negated_of_ofProperty]

theorem isNegative_of_readUtility {core : Text} {utility : Utility}
    (read : design.readUtility core false = .ok utility) : utility.isNegative = false := by
  rcases readUtility_eq_ok_iff.mp read with ⟨_, rfl⟩ | ⟨_, head, tail, _, either⟩
  · rfl
  · rcases either with ⟨rest, _, property⟩ | ⟨_, functional⟩
    · obtain ⟨_, _, _, _, rfl, _⟩ := Utility.exists_property_of_ofProperty property
      rfl
    · obtain ⟨_, _, rfl, _⟩ := readFunctional_eq_ok_iff.mp functional
      rfl

theorem readCandidate_result_of_whole (whole : base.pieces ':' = [base]) :
    (design.readCandidate base).result =
      (design.readUtility (Markers.ofBase base).core (Markers.ofBase base).negative).toOption.map
        fun utility => ⟨utility, [], (Markers.ofBase base).important⟩ := by
  have byPieces := design.readCandidate_result_eq base
  simpa [whole, readVariants] using byPieces

theorem readCandidate_of_important {marked : Text} (whole : base.pieces ':' = [base])
    (markedWhole : marked.pieces ':' = [marked])
    (same : Markers.ofBase marked = { Markers.ofBase base with important := true }) :
    (design.readCandidate marked).result =
      (design.readCandidate base).result.map fun candidate =>
        { candidate with important := true } := by
  rw [readCandidate_result_of_whole whole, readCandidate_result_of_whole markedWhole, same,
    Option.map_map]
  rfl

/-- A marker around an unmarked base sets its own field in what the base is read
as, and it makes no base readable or unreadable. -/
theorem markers_set_their_fields (whole : base.pieces ':' = [base])
    (first : base.head? ≠ some '!') (last : base.getLast? ≠ some '!') :
    ((design.readCandidate (base ++ ['!'])).result =
        (design.readCandidate base).result.map fun candidate =>
          { candidate with important := true }) ∧
      ((design.readCandidate ('!' :: base)).result =
        (design.readCandidate base).result.map fun candidate =>
          { candidate with important := true }) ∧
      (base.head? ≠ some '-' →
        (design.readCandidate ('-' :: base)).result =
          (design.readCandidate base).result.map fun candidate =>
            { candidate with utility := candidate.utility.negated }) ∧
      ∀ candidate, (design.readCandidate base).result = some candidate →
        candidate.important = false ∧
          (base.head? ≠ some '-' → candidate.utility.isNegative = false) := by
  have unmarked := Markers.ofBase_of_unmarked first last
  have endWhole : (base ++ ['!']).pieces ':' = [base ++ ['!']] :=
    Text.pieces_concat_of_whole (by decide) whole
  have frontWhole : Text.pieces ':' ('!' :: base) = ['!' :: base] :=
    Text.pieces_cons_of_whole (by decide) (by decide) rfl whole
  have minusWhole : Text.pieces ':' ('-' :: base) = ['-' :: base] :=
    Text.pieces_cons_of_whole (by decide) (by decide) rfl whole
  refine ⟨?_, ?_, ?_, ?_⟩
  · exact readCandidate_of_important whole endWhole (Markers.ofBase_concat first last)
  · exact readCandidate_of_important whole frontWhole (Markers.ofBase_cons first last)
  · intro unsigned
    rw [readCandidate_result_of_whole whole, readCandidate_result_of_whole minusWhole,
      Markers.ofBase_cons_minus first last unsigned, unmarked,
      Markers.takeNegative_of_unsigned unsigned, readUtility_negative]
    cases design.readUtility base false with
    | error fault => rfl
    | ok utility => rfl
  · intro candidate found
    obtain ⟨_, read, important⟩ := (readCandidate_base_result_eq_some_iff whole).mp found
    rw [unmarked] at read important
    refine ⟨important, ?_⟩
    intro unsigned
    rw [Markers.takeNegative_of_unsigned unsigned] at read
    exact isNegative_of_readUtility read

/-- A value with a parenthesis that is never closed, under each of the markers. -/
theorem markers_set_their_fields_open_parenthesis :
    let design := (({} : Vocabulary).addFunctional "bg".toList).design
    let base := "bg-[a(b:c]".toList
    let utility := Utility.functional "bg".toList (some (.arbitrary none ⟨"a(b:c".toList, none⟩))
      none
    Text.pieces ':' base = [base] ∧ base.head? ≠ some '!' ∧ base.getLast? ≠ some '!' ∧
      base.head? ≠ some '-' ∧
      (design.readCandidate base).result = some ⟨utility false, [], false⟩ ∧
      (design.readCandidate "bg-[a(b:c]!".toList).result = some ⟨utility false, [], true⟩ ∧
      (design.readCandidate "!bg-[a(b:c]".toList).result = some ⟨utility false, [], true⟩ ∧
      (design.readCandidate "-bg-[a(b:c]".toList).result = some ⟨utility true, [], false⟩ := by
  intro design base utility
  have whole : Text.pieces ':' base = [base] := rfl
  have first : base.head? ≠ some '!' := by decide
  have last : base.getLast? ≠ some '!' := by decide
  have unsigned : base.head? ≠ some '-' := by decide
  have found : (design.readCandidate base).result = some ⟨utility false, [], false⟩ := rfl
  obtain ⟨atEnd, atFront, minus, _⟩ := markers_set_their_fields whole first last
  rw [found] at atEnd atFront minus
  exact ⟨whole, first, last, unsigned, found, atEnd, atFront, minus unsigned⟩

end Design

end UtilityClass
