import UtilityClass.Proofs.Candidate.Functional

/-!
# The grammar of properties

A property is written in brackets, as `[color:red]`: a name, the first colon
and a value.  Which names are registered plays no part in reading one, because
nothing else is read in a base that starts with an opening bracket.
-/

namespace UtilityClass

namespace Text

theorem cutAtFirst_append_cons {mark : Char} {front : Text} (absent : mark ∉ front)
    (rest : Text) : cutAtFirst mark (front ++ mark :: rest) = some (front, rest) := by
  induction front with
  | nil => simp [cutAtFirst]
  | cons character front induction =>
      obtain ⟨different, later⟩ := not_or.mp (mt List.mem_cons.mpr absent)
      simp [cutAtFirst, Ne.symm different, induction later]

end Text

namespace Modifier

theorem head?_of_cut?_eq_some {token head : Text} {tail : Option Text} {mark : Char}
    (cut : cut? token = some (head, tail)) (starts : token.head? = some mark)
    (different : mark ≠ '/') : head.head? = some mark := by
  have whole := eq_of_cut?_eq_some cut
  cases head with
  | cons character head => simpa [whole] using starts
  | nil =>
      cases tail with
      | none => simp [whole] at starts
      | some tail =>
          obtain rfl : '/' = mark := by simpa [whole] using starts
          exact absurd rfl different

theorem exists_cut?_iff {token head : Text} {modifier : Option Modifier} :
    (∃ tail, cut? token = some (head, tail) ∧ modifier = tail.map ofText) ↔
      (token.pieces '/' = [head] ∧ modifier = none) ∨
        ∃ tail, token.pieces '/' = [head, tail] ∧ modifier = some (.ofText tail) := by
  simp only [cut?_eq_some_iff]
  constructor
  · intro ⟨tail, pieces, modifier_eq⟩
    cases tail with
    | none => exact .inl ⟨pieces, modifier_eq⟩
    | some tail => exact .inr ⟨tail, pieces, modifier_eq⟩
  · intro either
    rcases either with ⟨one, modifier_eq⟩ | ⟨tail, two, modifier_eq⟩
    · exact ⟨none, one, modifier_eq⟩
    · exact ⟨some tail, two, modifier_eq⟩

end Modifier

namespace Utility

/-- A name and a value in brackets with a colon between them.  The name may
start with the dash of a vendor's name. -/
structure PropertyForm (head name raw : Text) : Prop where
  split : head = Text.inBrackets (name ++ ':' :: raw)
  starts : ∃ first rest, name = first :: rest ∧ (first = '-' ∨ ('a' ≤ first ∧ first ≤ 'z'))
  noColon : ':' ∉ name
  valued : raw ≠ []

theorem isNameCharacter_iff {character : Char} :
    isNameCharacter character = true ↔
      character = '-' ∨ ('a' ≤ character ∧ character ≤ 'z') := by
  simp [isNameCharacter]

theorem PropertyForm.ofProperty_eq {rest name raw : Text}
    (form : PropertyForm ('[' :: rest) name raw) (modifier : Option Modifier) :
    ofProperty rest modifier = .ok (.property name raw.decode modifier) := by
  obtain ⟨first, others, name_eq, starts⟩ := form.starts
  obtain ⟨_, rest_eq⟩ := List.cons_eq_cons.mp form.split
  have closed : rest.withoutFinal ']' = some (name ++ ':' :: raw) :=
    Text.withoutFinal_eq_some_iff.mpr rest_eq
  have named : (name ++ ':' :: raw).head?.any isNameCharacter = true := by
    simpa [name_eq] using isNameCharacter_iff.mpr starts
  have cut : Text.cutAtFirst ':' (name ++ ':' :: raw) = some (name, raw) :=
    Text.cutAtFirst_append_cons form.noColon raw
  simp only [ofProperty, closed, named, cut, form.valued, if_true, if_false]

theorem ofProperty_eq_ok_iff {rest : Text} {modifier : Option Modifier} {utility : Utility} :
    ofProperty rest modifier = .ok utility ↔
      ∃ name raw, PropertyForm ('[' :: rest) name raw ∧
        utility = .property name raw.decode modifier := by
  constructor
  · intro read
    unfold ofProperty at read
    cases closed : rest.withoutFinal ']' with
    | none => simp [closed] at read
    | some inner =>
        by_cases starts : inner.head?.any isNameCharacter = true
        · cases cut : inner.cutAtFirst ':' with
          | none => simp [closed, starts, cut] at read
          | some parts =>
              obtain ⟨name, raw⟩ := parts
              by_cases empty : raw = []
              · simp [closed, starts, cut, empty] at read
              · simp only [closed, starts, cut, empty, if_true, if_false, Except.ok.injEq] at read
                obtain rfl := Text.withoutFinal_eq_some_iff.mp closed
                obtain ⟨rfl, noColon⟩ := Text.cutAtFirst_eq_some cut
                refine ⟨name, raw, ⟨rfl, ?_, noColon, empty⟩, read.symm⟩
                cases name with
                | nil => simp [isNameCharacter] at starts
                | cons first others =>
                    exact ⟨first, others, rfl, isNameCharacter_iff.mp (by simpa using starts)⟩
        · simp [closed, starts] at read
  · intro ⟨name, raw, form, utility_eq⟩
    rw [form.ofProperty_eq, utility_eq]

end Utility

/-- A text is a property, which a slash and a modifier may follow. -/
def Text.SpellsProperty (core name value : Text) (modifier : Option Modifier) : Prop :=
  ∃ head raw,
    ((core.pieces '/' = [head] ∧ modifier = none) ∨
      ∃ tail, core.pieces '/' = [head, tail] ∧ modifier = some (.ofText tail)) ∧
    Utility.PropertyForm head name raw ∧ value = raw.decode

namespace Design

variable {design : Design} {core : Text} {negative : Bool} {utility : Utility}

theorem readUtility_eq_property_iff {name value : Text} {modifier : Option Modifier} :
    design.readUtility core negative = .ok (.property name value modifier) ↔
      core.SpellsProperty name value modifier := by
  rw [readUtility_eq_ok_iff]
  constructor
  · intro either
    rcases either with ⟨_, isStatic⟩ | ⟨_, head, tail, cut, ⟨rest, rfl, property⟩ | ⟨_, functional⟩⟩
    · cases isStatic
    · obtain ⟨_, raw, form, same⟩ := Utility.ofProperty_eq_ok_iff.mp property
      obtain ⟨rfl, rfl, rfl⟩ := Utility.property.inj same
      exact ⟨'[' :: rest, raw, Modifier.exists_cut?_iff.mp ⟨tail, cut, rfl⟩, form, rfl⟩
    · obtain ⟨_, _, isFunctional, _⟩ := readFunctional_eq_ok_iff.mp functional
      cases isFunctional
  · intro ⟨head, raw, shape, form, value_eq⟩
    obtain ⟨tail, cut, rfl⟩ := Modifier.exists_cut?_iff.mpr shape
    obtain ⟨rest, rfl⟩ : ∃ rest, head = '[' :: rest := ⟨_, form.split⟩
    have opened : '[' ∈ core := by
      rw [Modifier.eq_of_cut?_eq_some cut]
      simp
    refine .inr ⟨fun isStatic => isStatic.2 opened, _, tail, cut, .inl ⟨rest, rfl, ?_⟩⟩
    rw [form.ofProperty_eq, value_eq]

theorem property_of_readUtility (opened : core.head? = some '[')
    (read : design.readUtility core negative = .ok utility) :
    ∃ name value modifier, utility = .property name value modifier := by
  rcases readUtility_eq_ok_iff.mp read with ⟨⟨_, absent⟩, _⟩ | ⟨_, head, tail, cut, either⟩
  · exact absurd (List.mem_of_mem_head? opened) absent
  · rcases either with ⟨rest, _, property⟩ | ⟨notProperty, _⟩
    · obtain ⟨name, raw, _, utility_eq⟩ := Utility.ofProperty_eq_ok_iff.mp property
      exact ⟨name, _, _, utility_eq⟩
    · exact absurd (Modifier.head?_of_cut?_eq_some cut opened (by decide)) notProperty

/-- The grammar of properties.  Once the variants before it are accepted, a base
is read as the property it spells, and one that starts with an opening bracket
is not read as anything else. -/
theorem readCandidate_property_iff {input base : Text} {tokens : List Text}
    (pieces : input.pieces ':' = tokens ++ [base])
    (variantsAccepted : ∀ token ∈ tokens, (design.readVariant token).result.isSome = true)
    (core_eq : core = (Markers.ofBase base).core) :
    (∀ name value modifier,
        (∃ candidate, (design.readCandidate input).result = some candidate ∧
          candidate.utility = .property name value modifier) ↔
          core.SpellsProperty name value modifier) ∧
      (core.head? = some '[' →
        (¬∃ name value modifier, core.SpellsProperty name value modifier) →
        (design.readCandidate input).result = none) := by
  subst core_eq
  constructor
  · intro name value modifier
    constructor
    · intro ⟨candidate, found, utility_eq⟩
      obtain ⟨_, read, _⟩ := (readCandidate_result_eq_some_iff pieces).mp found
      rw [utility_eq] at read
      exact readUtility_eq_property_iff.mp read
    · intro spells
      obtain ⟨variants, reads⟩ := exists_readsEach_iff.mpr variantsAccepted
      let marked := Markers.ofBase base
      have read : design.readUtility marked.core marked.negative =
          .ok (.property name value modifier) := readUtility_eq_property_iff.mpr spells
      refine ⟨⟨.property name value modifier, variants.reverse, marked.important⟩, ?_, rfl⟩
      apply (readCandidate_result_eq_some_iff pieces).mpr
      exact ⟨reads.reverse, read, rfl⟩
  · intro opened noProperty
    cases found : (design.readCandidate input).result with
    | none => rfl
    | some candidate =>
        obtain ⟨_, read, _⟩ := (readCandidate_result_eq_some_iff pieces).mp found
        obtain ⟨name, value, modifier, utility_eq⟩ := property_of_readUtility opened read
        rw [utility_eq] at read
        exact absurd ⟨name, value, modifier, readUtility_eq_property_iff.mp read⟩ noProperty

/-- A slash in the value and one before the modifier, and brackets that are
registered as utilities and still are no property. -/
theorem readCandidate_property_iff_registered_brackets :
    let vocabulary := (({} : Vocabulary).addVariant "hover".toList .static true).addStatic
      "[Color:red]".toList
    let design := (vocabulary.addFunctional "[Color:red]".toList).design
    let core : Text := "[background:url(a/b)]/[50%]".toList
    Text.pieces ':' "hover:[background:url(a/b)]/[50%]!".toList =
        ["hover".toList] ++ ["[background:url(a/b)]/[50%]!".toList] ∧
      (∀ token ∈ ["hover".toList], (design.readVariant token).result.isSome = true) ∧
      core = (Markers.ofBase "[background:url(a/b)]/[50%]!".toList).core ∧
      (∃ candidate,
        (design.readCandidate "hover:[background:url(a/b)]/[50%]!".toList).result =
            some candidate ∧
          candidate.utility = .property "background".toList "url(a/b)".toList
            (some (.arbitrary ⟨"50%".toList, none⟩))) ∧
      Text.pieces ':' "[Color:red]".toList = [] ++ ["[Color:red]".toList] ∧
      (¬∃ name value modifier, Text.SpellsProperty "[Color:red]".toList name value modifier) ∧
      (design.readCandidate "[Color:red]".toList).result = none := by
  intro vocabulary design core
  have pieces : Text.pieces ':' "hover:[background:url(a/b)]/[50%]!".toList =
      ["hover".toList] ++ ["[background:url(a/b)]/[50%]!".toList] := rfl
  have variantsAccepted : ∀ token ∈ ["hover".toList],
      (design.readVariant token).result.isSome = true := by
    intro token member
    obtain rfl := List.mem_singleton.mp member
    rfl
  have form : Utility.PropertyForm "[background:url(a/b)]".toList "background".toList
      "url(a/b)".toList :=
    ⟨rfl, ⟨'b', "ackground".toList, rfl, by decide⟩, by decide, List.cons_ne_nil _ _⟩
  have spells : core.SpellsProperty "background".toList "url(a/b)".toList
      (some (.arbitrary ⟨"50%".toList, none⟩)) :=
    ⟨_, _, .inr ⟨"[50%]".toList, rfl, rfl⟩, form, rfl⟩
  have found := ((readCandidate_property_iff pieces variantsAccepted rfl).1 _ _ _).mpr spells
  have alone : Text.pieces ':' "[Color:red]".toList = [] ++ ["[Color:red]".toList] := rfl
  have unread : design.readUtility "[Color:red]".toList false = .error .badPropertyStart := rfl
  have noProperty : ¬∃ name value modifier,
      Text.SpellsProperty "[Color:red]".toList name value modifier := by
    intro ⟨name, value, modifier, spells⟩
    rw [readUtility_eq_property_iff.mpr spells] at unread
    cases unread
  have noVariants : ∀ token ∈ [], (design.readVariant token).result.isSome = true := by simp
  have rejected := (readCandidate_property_iff alone noVariants rfl).2 rfl noProperty
  exact ⟨pieces, variantsAccepted, rfl, found, alone, noProperty, rejected⟩

end Design

end UtilityClass
