import UtilityClass.Proofs.Candidate.Functional
import UtilityClass.Proofs.Vocabulary.Table

/-!
# Registering one more utility

A new name cannot disturb a reading that has nothing to do with it.  As a
static utility it is read where it is the whole base.  As a functional utility
it may take over texts that were read by a shorter root, and what it takes
over is read by it, except the name with a dash and nothing behind it.
-/

namespace UtilityClass

namespace Text

variable {known more : Text → Bool} {name text : Text}

/-- A dash is never escaped for what follows it, so a bracket behind a dash is
escaped exactly when it is in the whole text. -/
theorem HasUnescaped.behind_dash {mark : Char} {value : Text} (has : value.HasUnescaped mark)
    (front : Text) : HasUnescaped mark (front ++ '-' :: value) := by
  obtain ⟨before, rest, rfl, free⟩ := has
  refine ⟨front ++ '-' :: before, rest, by simp, ?_⟩
  have fresh : ((Nesting.outside.after front).step '-').escaped = Nesting.outside.escaped := by
    simp [Nesting.escaped_step, Nesting.outside]
  rw [Nesting.after_append, Nesting.after_cons, Nesting.escaped_after_congr fresh]
  exact free

theorem find?_grown_eq (grows : ∀ other, more other = (decide (other = name) || known other))
    (cuts : List (Text × Text)) :
    (cuts.find? fun cut => more cut.1) = cuts.find? (fun cut => known cut.1) ∨
      ∃ value, (cuts.find? fun cut => more cut.1) = some (name, value) := by
  induction cuts with
  | nil => exact .inl rfl
  | cons cut cuts induction =>
      obtain ⟨front, value⟩ := cut
      by_cases same : front = name
      · subst same
        exact .inr ⟨value, by simp [grows]⟩
      · cases isKnown : known front with
        | true => exact .inl (by simp [grows, isKnown])
        | false => simpa [grows, isKnown, same] using induction

/-- One more known name leaves the longest root as it is or becomes the longest
root itself. -/
theorem longestRoot?_grown_eq
    (grows : ∀ other, more other = (decide (other = name) || known other)) (text : Text) :
    text.longestRoot? more = text.longestRoot? known ∨
      ∃ value, text.longestRoot? more = some (name, value) := by
  by_cases whole : text = name
  · subst whole
    exact .inr ⟨none, by simp [longestRoot?, grows]⟩
  have sameWhole : more text = known text := by simp [grows, whole]
  unfold longestRoot?
  rw [sameWhole]
  split
  next => exact .inl rfl
  next =>
    split
    next =>
      cases text with
      | nil => exact .inl rfl
      | cons character rest =>
          by_cases atSign : name = ['@']
          · by_cases starts : character = '@'
            · exact .inr ⟨some rest, by simp [atRoot?, grows, starts, atSign]⟩
            · exact .inl (by simp [atRoot?, starts])
          · exact .inl (by simp [atRoot?, grows, Ne.symm atSign])
    next =>
      rcases find?_grown_eq grows text.rootCuts with same | ⟨value, found⟩
      · exact .inl (by rw [same])
      · exact .inr ⟨some value, by rw [found]; rfl⟩

/-- The value behind a root ends in the value behind any longer root, so it has
the brackets of that one. -/
theorem hasUnescaped_of_grown {root value word : Text} {mark : Char}
    (grows : ∀ other, more other = (decide (other = name) || known other))
    (found : text.longestRoot? more = some (name, some value))
    (foundBefore : text.longestRoot? known = some (root, some word))
    (has : value.HasUnescaped mark) : word.HasUnescaped mark := by
  obtain ⟨_, longest | atRoot⟩ := longestRoot?_eq_some_some_iff.mp found
  · obtain ⟨longest, _⟩ := longest
    obtain ⟨_, ⟨before, _⟩ | before⟩ := longestRoot?_eq_some_some_iff.mp foundBefore
    · have notLonger : root.length ≤ name.length := by
        apply Nat.le_of_not_lt
        intro longer
        have unknown := longest.longest root word before.split longer
        simp [grows, before.isKnown] at unknown
      have lengths := congrArg List.length (before.split.symm.trans longest.split)
      simp only [List.length_append, List.length_cons] at lengths
      have ends : '-' :: value <:+ '-' :: word := by
        apply List.suffix_of_suffix_length_le ⟨name, longest.split.symm⟩ ⟨root, before.split.symm⟩
        simp only [List.length_cons]
        omega
      obtain ⟨front, joined⟩ := ends
      cases front with
      | nil =>
          obtain ⟨_, rfl⟩ := List.cons_eq_cons.mp joined
          exact has
      | cons dash front =>
          obtain ⟨_, rfl⟩ := List.cons_eq_cons.mp joined
          exact has.behind_dash front
    · exact absurd (by simp [longest.split]) before.noDash
  · obtain ⟨_, ⟨before, _⟩ | before⟩ := longestRoot?_eq_some_some_iff.mp foundBefore
    · exact absurd (by simp [before.split]) atRoot.noDash
    · obtain ⟨_, rfl⟩ := List.cons_eq_cons.mp (before.split.symm.trans atRoot.split)
      exact has

end Text

namespace Design

/-- The design with one more utility. -/
def withUtility (design : Design) (kind : UtilityKind) (name : Text) : Design :=
  { design with
    hasUtility := fun other text =>
      decide (other = kind ∧ text = name) || design.hasUtility other text }

variable {design : Design} {kind : UtilityKind} {name : Text}

theorem readVariantWithin_withUtility (levels depth : Nat) (token : Text) :
    (design.withUtility kind name).readVariantWithin levels depth token =
      design.readVariantWithin levels depth token := by
  induction levels generalizing depth token with
  | zero => rfl
  | succ levels induction =>
      have sameLayer : (design.withUtility kind name).readLayer token = design.readLayer token :=
        rfl
      have sameOverride : (design.withUtility kind name).override = design.override := rfl
      simp only [readVariantWithin, sameLayer, sameOverride, induction]

theorem readVariant_withUtility (token : Text) :
    (design.withUtility kind name).readVariant token = design.readVariant token := by
  have sameOverride : (design.withUtility kind name).override = design.override := rfl
  simp only [readVariant, readVariantAt, sameOverride, readVariantWithin_withUtility]
  rfl

theorem readVariants_withUtility (tokens : List Text) :
    (design.withUtility kind name).readVariants tokens = design.readVariants tokens := by
  induction tokens with
  | nil => rfl
  | cons token tokens induction =>
      simp only [readVariants, readVariant_withUtility, induction]

theorem readCandidate_withUtility_eq {input : Text}
    (same : let marked := Markers.ofBase ((input.pieces ':').getLastD [])
      (design.withUtility kind name).readUtility marked.core marked.negative =
        design.readUtility marked.core marked.negative) :
    (design.withUtility kind name).readCandidate input = design.readCandidate input := by
  simp only [readCandidate, readVariants_withUtility, same]

theorem readFunctional_withStatic (head : Text) (modifier : Option Modifier) (negative : Bool) :
    (design.withUtility .static name).readFunctional head modifier negative =
      design.readFunctional head modifier negative := by
  have sameKnown : (design.withUtility .static name).hasUtility .functional =
      design.hasUtility .functional := by
    funext text
    simp [withUtility]
  simp only [readFunctional, functionalRoot, sameKnown]

theorem readUtility_withStatic (core : Text) (negative : Bool) :
    (design.withUtility .static name).readUtility core negative =
      if core = name ∧ '[' ∉ name then .ok (.static name negative)
      else design.readUtility core negative := by
  by_cases captured : core = name ∧ '[' ∉ name
  · obtain ⟨rfl, noBracket⟩ := captured
    simp [readUtility, withUtility, noBracket]
  · rw [if_neg captured]
    have sameStatic : ((design.withUtility .static name).hasUtility .static core &&
        !core.contains '[') = (design.hasUtility .static core && !core.contains '[') := by
      by_cases same : core = name
      · subst same
        have bracket : '[' ∈ core := by simpa using captured
        simp [bracket]
      · simp [withUtility, same]
    simp only [readUtility, sameStatic, readFunctional_withStatic]

theorem hasUtility_withFunctional (other : Text) :
    (design.withUtility .functional name).hasUtility .functional other =
      (decide (other = name) || design.hasUtility .functional other) := by
  simp [withUtility]

variable {head : Text} {modifier : Option Modifier}

theorem not_readFunctional_of_unclosed (open_end : head.getLast? ≠ some ']') {value : Text}
    (found : head.longestRoot? ((design.withUtility .functional name).hasUtility .functional) =
      some (name, some value))
    (bracket : value.HasUnescaped '[') {negative : Bool} {utility : Utility} :
    design.readFunctional head modifier negative ≠ .ok utility := by
  intro read
  obtain ⟨root, parsed, _, either⟩ := readFunctional_eq_ok_iff.mp read
  simp only [functionalRoot_eq_ok_iff_of_open open_end] at either
  rcases either with ⟨whole, _⟩ | ⟨word, _, foundBefore, nonempty, parsedRead, _⟩
  · obtain ⟨registered, _⟩ := Text.longestRoot?_eq_some_none_iff.mp whole
    obtain ⟨unregistered, _⟩ := Text.longestRoot?_eq_some_some_iff.mp found
    simp [hasUtility_withFunctional, registered] at unregistered
  · have wordOpen : word.getLast? ≠ some ']' := by
      rw [getLast?_word_of_longestRoot? foundBefore nonempty]
      exact open_end
    obtain ⟨noBracket, _⟩ := (Utility.readValue_eq_ok_iff_of_open wordOpen).mp parsedRead
    exact noBracket (Text.hasUnescaped_of_grown hasUtility_withFunctional found foundBefore bracket)

/-- Before a closing bracket the new name is the root or plays no part. -/
theorem readFunctional_withFunctional_of_closed (closed : head.getLast? = some ']')
    {negative : Bool} :
    (design.withUtility .functional name).readFunctional head modifier negative =
        design.readFunctional head modifier negative ∨
      ∃ value, (design.withUtility .functional name).readFunctional head modifier negative =
        .ok (.functional name value modifier negative) := by
  cases cut : Utility.cutAtBracket head with
  | none =>
      left
      simp only [readFunctional, functionalRoot, if_pos closed, cut]
  | some parts =>
      obtain ⟨root, word⟩ := parts
      by_cases same : root = name
      · right
        subst same
        obtain ⟨inner, rfl, split, last⟩ :=
          (Utility.cutAtBracket_eq_some_iff_of_closed closed).mp cut
        have registered : (design.withUtility .functional root).hasUtility .functional root =
            true := by simp [hasUtility_withFunctional]
        have found : (design.withUtility .functional root).functionalRoot head =
            .ok (root, some ('[' :: (inner ++ [']']))) :=
          (functionalRoot_eq_ok_iff_of_closed closed).mpr ⟨registered, inner, rfl, split, last⟩
        have hinted : Utility.Hinted inner (Utility.takeHint inner).1 (Utility.takeHint inner).2 :=
          Utility.takeHint_eq_iff.mp rfl
        have parsedRead : Utility.readValue ('[' :: (inner ++ [']'])) modifier =
            .ok (.arbitrary (Utility.takeHint inner).1 (.ofRaw (Utility.takeHint inner).2)) :=
          Utility.readValue_bracket_eq_ok_iff.mpr ⟨_, _, hinted, rfl⟩
        exact ⟨_, readFunctional_eq_ok_iff.mpr ⟨root, _, rfl,
          .inr ⟨_, _, found, List.cons_ne_nil _ _, parsedRead, rfl⟩⟩⟩
      · left
        have sameKnown : (design.withUtility .functional name).hasUtility .functional root =
            design.hasUtility .functional root := by
          simp [hasUtility_withFunctional, same]
        simp only [readFunctional, functionalRoot, if_pos closed, cut, sameKnown]

theorem split_of_readFunctional_eq_error (open_end : head.getLast? ≠ some ']') {root : Text}
    {value : Option Text}
    (found : head.longestRoot? (design.hasUtility .functional) = some (root, value))
    {negative : Bool} {fault : CandidateFault}
    (rejected : design.readFunctional head modifier negative = .error fault) :
    head = root ++ ['-'] ∨ ∃ word, value = some word ∧ word.HasUnescaped '[' := by
  have rooted := (functionalRoot_eq_ok_iff_of_open open_end).mpr found
  cases value with
  | none =>
      have read : design.readFunctional head modifier negative =
          .ok (.functional root none modifier negative) :=
        readFunctional_eq_ok_iff.mpr ⟨root, none, rfl, .inl ⟨rooted, rfl⟩⟩
      exact absurd (read.symm.trans rejected) (by simp)
  | some word =>
      obtain ⟨unregistered, forms⟩ := Text.longestRoot?_eq_some_some_iff.mp found
      by_cases nonempty : word = []
      · subst nonempty
        rcases forms with ⟨longest, _⟩ | atRoot
        · exact .inl longest.split
        · -- The text is `@` itself, and that is registered.
          rw [atRoot.split, atRoot.isKnown] at unregistered
          exact absurd unregistered (by simp)
      · refine .inr ⟨word, rfl, ?_⟩
        apply Classical.byContradiction
        intro noBracket
        rw [readFunctional_of_word open_end found nonempty noBracket] at rejected
        cases rejected

/-- Elsewhere what stands behind the new name is read by it, unless it was not
read before or there is nothing behind the dash. -/
theorem readFunctional_withFunctional_of_open (open_end : head.getLast? ≠ some ']')
    {negative : Bool} :
    (design.withUtility .functional name).readFunctional head modifier negative =
        design.readFunctional head modifier negative ∨
      (∃ value, (design.withUtility .functional name).readFunctional head modifier negative =
        .ok (.functional name value modifier negative)) ∨
      (∃ fault, (design.withUtility .functional name).readFunctional head modifier negative =
          .error fault) ∧
        (head = name ++ ['-'] ∨
          ∃ fault, design.readFunctional head modifier negative = .error fault) := by
  have grows : ∀ other, (design.withUtility .functional name).hasUtility .functional other =
      (decide (other = name) || design.hasUtility .functional other) := hasUtility_withFunctional
  rcases Text.longestRoot?_grown_eq grows head with same | ⟨value, found⟩
  · left
    simp only [readFunctional, functionalRoot, if_neg open_end, same]
  right
  cases read : (design.withUtility .functional name).readFunctional head modifier negative with
  | ok utility =>
      left
      have rooted := (functionalRoot_eq_ok_iff_of_open open_end).mpr found
      obtain ⟨root, parsed, rfl, either⟩ := readFunctional_eq_ok_iff.mp read
      simp only [rooted, Except.ok.injEq, Prod.mk.injEq] at either
      obtain ⟨⟨rfl, _⟩, _⟩ | ⟨_, _, ⟨rfl, _⟩, _⟩ := either
      · exact ⟨parsed, rfl⟩
      · exact ⟨parsed, rfl⟩
  | error fault =>
      right
      refine ⟨⟨fault, rfl⟩, ?_⟩
      rcases split_of_readFunctional_eq_error open_end found read with
        split | ⟨word, rfl, bracket⟩
      · exact .inl split
      · right
        cases before : design.readFunctional head modifier negative with
        | error fault => exact ⟨fault, rfl⟩
        | ok utility =>
            exact absurd before (not_readFunctional_of_unclosed open_end found bracket)

theorem readUtility_withFunctional (core : Text) (negative : Bool) :
    (design.withUtility .functional name).readUtility core negative =
        design.readUtility core negative ∨
      (∃ value modifier, (design.withUtility .functional name).readUtility core negative =
        .ok (.functional name value modifier negative)) ∨
      (∃ fault, (design.withUtility .functional name).readUtility core negative = .error fault) ∧
        ((∃ tail, Modifier.cut? core = some (name ++ ['-'], tail)) ∨
          ∃ fault, design.readUtility core negative = .error fault) := by
  have sameStatic : (design.withUtility .functional name).hasUtility .static core =
      design.hasUtility .static core := by simp [withUtility]
  unfold readUtility
  rw [sameStatic]
  split
  next => exact .inl rfl
  next =>
    cases cut : Modifier.cut? core with
    | none => exact .inl rfl
    | some parts =>
        obtain ⟨head, tail⟩ := parts
        cases property : head.withoutFirst '[' with
        | some rest => exact .inl (by simp only [property])
        | none =>
            simp only [property]
            by_cases closed : head.getLast? = some ']'
            · rcases readFunctional_withFunctional_of_closed closed with same | ⟨value, read⟩
              · exact .inl same
              · exact .inr (.inl ⟨value, _, read⟩)
            · rcases readFunctional_withFunctional_of_open closed with
                same | ⟨value, read⟩ | ⟨rejected, split | before⟩
              · exact .inl same
              · exact .inr (.inl ⟨value, _, read⟩)
              · exact .inr (.inr ⟨rejected, .inl ⟨tail, by rw [split]⟩⟩)
              · exact .inr (.inr ⟨rejected, .inr before⟩)

variable {input : Text}

theorem readCandidate_withStatic_eq_of_not
    (other : ¬((Markers.ofBase ((input.pieces ':').getLastD [])).core = name ∧ '[' ∉ name)) :
    (design.withUtility .static name).readCandidate input = design.readCandidate input := by
  apply readCandidate_withUtility_eq
  simp only [readUtility_withStatic, if_neg other]

theorem readCandidate_withStatic
    (whole : (Markers.ofBase ((input.pieces ':').getLastD [])).core = name ∧ '[' ∉ name)
    (accepted : ∀ token ∈ (input.pieces ':').dropLast,
      (design.readVariant token).result.isSome = true) :
    ∃ candidate, ((design.withUtility .static name).readCandidate input).result =
        some candidate ∧
      candidate.utility =
        .static name (Markers.ofBase ((input.pieces ':').getLastD [])).negative := by
  obtain ⟨variants, reads⟩ := exists_readsEach_iff.mpr accepted
  have variantsRead := readVariants_result_eq_some_iff.mpr reads.reverse
  let marked := Markers.ofBase ((input.pieces ':').getLastD [])
  refine ⟨⟨.static name marked.negative, variants.reverse, marked.important⟩, ?_, rfl⟩
  rw [readCandidate_result_eq, readVariants_withUtility, variantsRead, readUtility_withStatic,
    if_pos whole]
  rfl

/-- A candidate is read as before or by the new functional name, or it is lost
behind that name and a single dash. -/
theorem readCandidate_withFunctional (name input : Text) :
    let marked := Markers.ofBase ((input.pieces ':').getLastD [])
    let before := (design.readCandidate input).result
    let after := ((design.withUtility .functional name).readCandidate input).result
    after = before ∨
      (∃ candidate value modifier, after = some candidate ∧
        candidate.utility = .functional name value modifier marked.negative) ∨
      (after = none ∧ ∃ tail, Modifier.cut? marked.core = some (name ++ ['-'], tail)) := by
  intro marked before after
  have before_eq : before = _ := readCandidate_result_eq input
  have after_eq : after = _ := readCandidate_result_eq input
  rw [readVariants_withUtility] at after_eq
  cases variantsRead : (design.readVariants (input.pieces ':').dropLast.reverse).result with
  | none =>
      left
      rw [before_eq, after_eq, variantsRead]
      rfl
  | some variants =>
      rcases @readUtility_withFunctional design name marked.core marked.negative with
        same | ⟨value, modifier, read⟩ | ⟨⟨fault, rejected⟩, split | old⟩
      · left
        rw [before_eq, after_eq, same]
      · right; left
        refine ⟨⟨_, variants, marked.important⟩, value, modifier, ?_, rfl⟩
        rw [after_eq, variantsRead, read]
        rfl
      · right; right
        refine ⟨?_, split⟩
        rw [after_eq, variantsRead, rejected]
        rfl
      · left
        obtain ⟨oldFault, oldRejected⟩ := old
        rw [before_eq, after_eq, variantsRead, rejected, oldRejected]
        rfl

end Design

theorem Table.contains_insert {Entry : Type} (table : Table Entry) (name other : Text)
    (entry : Entry) :
    (table.insert name entry).contains other = (decide (other = name) || table.contains other) := by
  by_cases same : other = name
  · simp [contains, same]
  · simp [contains, same]

namespace Vocabulary

variable {vocabulary : Vocabulary} {name : Text}

theorem design_addStatic :
    (vocabulary.addStatic name).design = vocabulary.design.withUtility .static name := by
  have answers : (vocabulary.addStatic name).hasUtility =
      (vocabulary.design.withUtility .static name).hasUtility := by
    funext kind other
    cases kind with
    | static => simp [hasUtility, addStatic, Design.withUtility, design, Table.contains_insert]
    | functional => simp [hasUtility, addStatic, Design.withUtility, design]
  exact congrArg (fun answers => { vocabulary.design with hasUtility := answers }) answers

theorem design_addFunctional :
    (vocabulary.addFunctional name).design = vocabulary.design.withUtility .functional name := by
  have answers : (vocabulary.addFunctional name).hasUtility =
      (vocabulary.design.withUtility .functional name).hasUtility := by
    funext kind other
    cases kind with
    | static => simp [hasUtility, addFunctional, Design.withUtility, design]
    | functional =>
        simp [hasUtility, addFunctional, Design.withUtility, design, Table.contains_insert]
  exact congrArg (fun answers => { vocabulary.design with hasUtility := answers }) answers

/-- One more utility is contained.  A static one is read where it is the whole
base, and nowhere else does anything change.  A functional one leaves a reading
as it is, or is read itself, or the reading is lost: that happens only behind
the new name and a single dash. -/
theorem registering_a_utility_is_contained (vocabulary : Vocabulary) (name input : Text) :
    let tokens := (input.pieces ':').dropLast
    let base := Markers.ofBase ((input.pieces ':').getLastD [])
    let before := vocabulary.design.readCandidate input
    let withStatic := (vocabulary.addStatic name).design.readCandidate input
    let withFunctional := (vocabulary.addFunctional name).design.readCandidate input
    let Lost := ∃ tail, Modifier.cut? base.core = some (name ++ ['-'], tail)
    (withStatic ≠ before → base.core = name ∧ '[' ∉ name) ∧
      (base.core = name ∧ '[' ∉ name →
        (∀ token ∈ tokens, (vocabulary.design.readVariant token).result.isSome = true) →
          ∃ candidate, withStatic.result = some candidate ∧
            candidate.utility = .static name base.negative) ∧
      (withFunctional.result = before.result ∨
        (∃ candidate value modifier, withFunctional.result = some candidate ∧
          candidate.utility = .functional name value modifier base.negative) ∨
        (withFunctional.result = none ∧ Lost)) ∧
      (before.result.isSome = true → withFunctional.result = none → Lost) := by
  intro tokens base before withStatic withFunctional Lost
  have threeWays : withFunctional.result = before.result ∨
      (∃ candidate value modifier, withFunctional.result = some candidate ∧
        candidate.utility = .functional name value modifier base.negative) ∨
      (withFunctional.result = none ∧ Lost) := by
    have ways := @Design.readCandidate_withFunctional vocabulary.design name input
    rwa [← design_addFunctional] at ways
  refine ⟨?_, ?_, threeWays, ?_⟩
  · intro changed
    apply Classical.byContradiction
    intro other
    apply changed
    have same := @Design.readCandidate_withStatic_eq_of_not vocabulary.design name input other
    rwa [← design_addStatic] at same
  · intro whole accepted
    have read := Design.readCandidate_withStatic whole accepted
    rwa [← design_addStatic] at read
  · intro accepted rejected
    rcases threeWays with same | ⟨_, _, _, read, _⟩ | ⟨_, lost⟩
    · rw [← same, rejected] at accepted
      cases accepted
    · exact absurd (rejected.symm.trans read) (by simp)
    · exact lost

-- A word may end in a dash, and is lost when all before the dash becomes a
-- name.  The markers around the base are not part of that name.
example :
    let vocabulary := ({} : Vocabulary).addFunctional "bg".toList
    let more := vocabulary.addFunctional "bg-red".toList
    Markers.ofBase "-bg-red-!".toList = ⟨"bg-red-".toList, true, true⟩ ∧
      (vocabulary.design.readCandidate "-bg-red-!".toList).result =
        some ⟨.functional "bg".toList (some (.named "red-".toList none)) none true, [], true⟩ ∧
      (more.design.readCandidate "-bg-red-!".toList).result = none ∧
      ((vocabulary.addStatic "bg-red-".toList).design.readCandidate "-bg-red-!".toList).result =
        some ⟨.static "bg-red-".toList true, [], true⟩ :=
  ⟨rfl, rfl, rfl, rfl⟩

end Vocabulary

end UtilityClass
