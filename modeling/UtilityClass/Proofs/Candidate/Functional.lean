import UtilityClass.Proofs.Candidate.Composition
import UtilityClass.Proofs.Candidate.Value
import UtilityClass.Proofs.Text.Root

/-!
# The grammar of functional utilities

A functional utility has three forms: a registered name alone, the longest
registered name with a word after it, and a registered name with brackets
after it.  The forms are conditions on the text.  Reading a candidate finds a
functional utility exactly where one of them holds, and never two at once.
-/

namespace UtilityClass

/-- One of three statements holds and the two others do not. -/
def ExactlyOne (first second third : Prop) : Prop :=
  (first ∧ ¬second ∧ ¬third) ∨ (¬first ∧ second ∧ ¬third) ∨ (¬first ∧ ¬second ∧ third)

namespace Design

/-- A registered name alone, as `shadow`. -/
structure BareForm (design : Design) (head root : Text) (value : Option UtilityValue) :
    Prop where
  open_end : head.getLast? ≠ some ']'
  registered : design.hasUtility .functional head = true
  root_eq : root = head
  value_eq : value = none

/-- A word after the longest registered name, as `bg-red-500`, or after `@`. -/
structure NamedForm (design : Design) (head : Text) (modifier : Option Modifier) (root : Text)
    (value : Option UtilityValue) : Prop where
  open_end : head.getLast? ≠ some ']'
  unregistered : design.hasUtility .functional head = false
  word : ∃ word : Text, word ≠ [] ∧ ¬word.HasUnescaped '[' ∧
    value = some (.named word (Utility.fraction? word modifier)) ∧
    (Text.LongestRoot (design.hasUtility .functional) head root word ∨
      Text.AtRoot (design.hasUtility .functional) head root word)

/-- Brackets after a registered name, as `bg-[color:red]`.  They open at the
last dash with a bracket behind it. -/
structure BracketForm (design : Design) (head root : Text) (value : Option UtilityValue) :
    Prop where
  registered : design.hasUtility .functional root = true
  brackets : ∃ inner hint raw, head = root ++ '-' :: '[' :: (inner ++ [']']) ∧
    ¬['-', '['] <:+: inner ∧ Utility.Hinted inner hint raw ∧
    value = some (.arbitrary hint (.ofRaw raw))

variable {design : Design} {head root : Text} {modifier : Option Modifier}
  {value : Option UtilityValue}

theorem BracketForm.getLast?_eq (form : design.BracketForm head root value) :
    head.getLast? = some ']' := by
  obtain ⟨inner, _, _, split, _⟩ := form.brackets
  have whole : head = (root ++ '-' :: '[' :: inner) ++ [']'] := by simp [split]
  rw [whole, List.getLast?_concat]

theorem exactlyOne_form_iff :
    ExactlyOne (design.BareForm head root value) (design.NamedForm head modifier root value)
        (design.BracketForm head root value) ↔
      design.BareForm head root value ∨ design.NamedForm head modifier root value ∨
        design.BracketForm head root value := by
  have bareNamed : design.BareForm head root value →
      ¬design.NamedForm head modifier root value := by
    intro bare named
    exact absurd bare.registered (by simp [named.unregistered])
  have bareBracket : design.BareForm head root value →
      ¬design.BracketForm head root value := by
    intro bare bracket
    exact bare.open_end bracket.getLast?_eq
  have namedBracket : design.NamedForm head modifier root value →
      ¬design.BracketForm head root value := by
    intro named bracket
    exact named.open_end bracket.getLast?_eq
  unfold ExactlyOne
  constructor
  · intro exactly
    rcases exactly with ⟨bare, _, _⟩ | ⟨_, named, _⟩ | ⟨_, _, bracket⟩
    · exact .inl bare
    · exact .inr (.inl named)
    · exact .inr (.inr bracket)
  · intro either
    rcases either with bare | named | bracket
    · exact .inl ⟨bare, bareNamed bare, bareBracket bare⟩
    · exact .inr (.inl ⟨fun bare => bareNamed bare named, named, namedBracket named⟩)
    · exact .inr (.inr ⟨fun bare => bareBracket bare bracket,
        fun named => namedBracket named bracket, bracket⟩)

theorem readFunctional_eq_ok_iff {negative : Bool} {utility : Utility} :
    design.readFunctional head modifier negative = .ok utility ↔
      ∃ root value, utility = .functional root value modifier negative ∧
        ((design.functionalRoot head = .ok (root, none) ∧ value = none) ∨
          ∃ word parsed, design.functionalRoot head = .ok (root, some word) ∧ word ≠ [] ∧
            Utility.readValue word modifier = .ok parsed ∧ value = some parsed) := by
  unfold readFunctional
  cases found : design.functionalRoot head with
  | error fault => simp [bind, Except.bind]
  | ok rootAndValue =>
      obtain ⟨root, value⟩ := rootAndValue
      cases value with
      | none => simp [bind, Except.bind, pure, Except.pure, eq_comm]
      | some word =>
          cases word with
          | nil => simp [bind, Except.bind, throw, throwThe, MonadExceptOf.throw]
          | cons first rest =>
              cases read : Utility.readValue (first :: rest) modifier with
              | error fault => simp [bind, Except.bind, read]
              | ok parsed => simp [bind, Except.bind, pure, Except.pure, read, eq_comm]

theorem functionalRoot_eq_ok_iff_of_closed (closed : head.getLast? = some ']')
    {value : Option Text} :
    design.functionalRoot head = .ok (root, value) ↔
      design.hasUtility .functional root = true ∧
        ∃ inner, value = some ('[' :: (inner ++ [']'])) ∧
          head = root ++ '-' :: '[' :: (inner ++ [']']) ∧ ¬['-', '['] <:+: inner := by
  have atCut : ∀ word, Utility.cutAtBracket head = some (root, word) ↔
      ∃ inner, word = '[' :: (inner ++ [']']) ∧ head = root ++ '-' :: word ∧
        ¬['-', '['] <:+: inner :=
    fun _ => Utility.cutAtBracket_eq_some_iff_of_closed closed
  unfold functionalRoot
  rw [if_pos closed]
  constructor
  · intro found
    cases cut : Utility.cutAtBracket head with
    | none => simp [cut] at found
    | some parts =>
        obtain ⟨cutRoot, word⟩ := parts
        by_cases registered : design.hasUtility .functional cutRoot = true
        · simp only [cut, registered, if_true, Except.ok.injEq, Prod.mk.injEq] at found
          obtain ⟨rfl, rfl⟩ := found
          obtain ⟨inner, rfl, split, last⟩ := (atCut word).mp cut
          exact ⟨registered, inner, rfl, split, last⟩
        · simp [cut, registered] at found
  · intro ⟨registered, inner, value_eq, split, last⟩
    have cut := (atCut _).mpr ⟨inner, rfl, split, last⟩
    simp [cut, registered, value_eq]

theorem functionalRoot_eq_ok_iff_of_open (open_end : head.getLast? ≠ some ']')
    {value : Option Text} :
    design.functionalRoot head = .ok (root, value) ↔
      head.longestRoot? (design.hasUtility .functional) = some (root, value) := by
  unfold functionalRoot
  rw [if_neg open_end]
  cases found : head.longestRoot? (design.hasUtility .functional) with
  | none => simp
  | some parts => simp

theorem getLast?_word_eq {word : Text} (nonempty : word ≠ [])
    (split : head = root ++ '-' :: word ∨ head = '@' :: word) :
    word.getLast? = head.getLast? := by
  obtain ⟨front, final, rfl⟩ := (List.eq_nil_or_concat' word).resolve_left nonempty
  rcases split with rfl | rfl
  · have whole : root ++ '-' :: (front ++ [final]) = (root ++ '-' :: front) ++ [final] := by simp
    rw [whole, List.getLast?_concat, List.getLast?_concat]
  · rw [← List.cons_append, List.getLast?_concat, List.getLast?_concat]

theorem getLast?_word_of_longestRoot? {known : Text → Bool} {word : Text}
    (found : head.longestRoot? known = some (root, some word)) (nonempty : word ≠ []) :
    word.getLast? = head.getLast? := by
  obtain ⟨_, forms⟩ := Text.longestRoot?_eq_some_some_iff.mp found
  apply getLast?_word_eq nonempty
  rcases forms with ⟨longest, _⟩ | atRoot
  · exact .inl longest.split
  · exact .inr atRoot.split

theorem readFunctional_of_word (open_end : head.getLast? ≠ some ']') {word : Text}
    (found : head.longestRoot? (design.hasUtility .functional) = some (root, some word))
    (nonempty : word ≠ []) (noBracket : ¬word.HasUnescaped '[') {negative : Bool} :
    design.readFunctional head modifier negative =
      .ok (.functional root (some (.named word (Utility.fraction? word modifier))) modifier
        negative) := by
  have rooted := (functionalRoot_eq_ok_iff_of_open open_end).mpr found
  have wordOpen : word.getLast? ≠ some ']' := by
    rw [getLast?_word_of_longestRoot? found nonempty]
    exact open_end
  have parsedRead : Utility.readValue word modifier =
      .ok (.named word (Utility.fraction? word modifier)) :=
    (Utility.readValue_eq_ok_iff_of_open wordOpen).mpr ⟨noBracket, rfl⟩
  exact readFunctional_eq_ok_iff.mpr ⟨root, _, rfl,
    .inr ⟨word, _, rooted, nonempty, parsedRead, rfl⟩⟩

theorem bracketForm_iff_of_closed (closed : head.getLast? = some ']') :
    ((design.functionalRoot head = .ok (root, none) ∧ value = none) ∨
        ∃ word parsed, design.functionalRoot head = .ok (root, some word) ∧ word ≠ [] ∧
          Utility.readValue word modifier = .ok parsed ∧ value = some parsed) ↔
      design.BracketForm head root value := by
  constructor
  · intro read
    rcases read with ⟨found, _⟩ | ⟨word, parsed, found, _, parsedRead, value_eq⟩
    · obtain ⟨_, inner, absent, _⟩ := (functionalRoot_eq_ok_iff_of_closed closed).mp found
      exact absurd absent (by simp)
    · obtain ⟨registered, inner, word_eq, split, last⟩ :=
        (functionalRoot_eq_ok_iff_of_closed closed).mp found
      obtain rfl := Option.some.inj word_eq
      obtain ⟨hint, raw, hinted, rfl⟩ := Utility.readValue_bracket_eq_ok_iff.mp parsedRead
      exact ⟨registered, inner, hint, raw, split, last, hinted, value_eq⟩
  · intro ⟨registered, inner, hint, raw, split, last, hinted, value_eq⟩
    have found : design.functionalRoot head = .ok (root, some ('[' :: (inner ++ [']']))) :=
      (functionalRoot_eq_ok_iff_of_closed closed).mpr ⟨registered, inner, rfl, split, last⟩
    have parsedRead : Utility.readValue ('[' :: (inner ++ [']'])) modifier =
        .ok (.arbitrary hint (.ofRaw raw)) :=
      Utility.readValue_bracket_eq_ok_iff.mpr ⟨hint, raw, hinted, rfl⟩
    exact .inr ⟨_, _, found, List.cons_ne_nil _ _, parsedRead, value_eq⟩

theorem namedForm_iff_of_open (noEmptyName : design.hasUtility .functional [] = false)
    (open_end : head.getLast? ≠ some ']') :
    (∃ word parsed, head.longestRoot? (design.hasUtility .functional) = some (root, some word) ∧
        word ≠ [] ∧ Utility.readValue word modifier = .ok parsed ∧ value = some parsed) ↔
      design.NamedForm head modifier root value := by
  constructor
  · intro ⟨word, parsed, found, nonempty, parsedRead, value_eq⟩
    obtain ⟨unregistered, rooted⟩ := Text.longestRoot?_eq_some_some_iff.mp found
    have forms := rooted.imp_left And.left
    have wordOpen : word.getLast? ≠ some ']' := by
      rw [getLast?_word_of_longestRoot? found nonempty]
      exact open_end
    obtain ⟨noBracket, rfl⟩ := (Utility.readValue_eq_ok_iff_of_open wordOpen).mp parsedRead
    exact ⟨open_end, unregistered, word, nonempty, noBracket, value_eq, forms⟩
  · intro ⟨_, unregistered, word, nonempty, noBracket, value_eq, forms⟩
    have wordOpen : word.getLast? ≠ some ']' := by
      rw [getLast?_word_eq nonempty (forms.imp (·.split) (·.split))]
      exact open_end
    have parsedRead : Utility.readValue word modifier =
        .ok (.named word (Utility.fraction? word modifier)) :=
      (Utility.readValue_eq_ok_iff_of_open wordOpen).mpr ⟨noBracket, rfl⟩
    refine ⟨word, _, ?_, nonempty, parsedRead, value_eq⟩
    apply Text.longestRoot?_eq_some_some_iff.mpr
    refine ⟨unregistered, forms.imp_left ?_⟩
    intro longest
    refine ⟨longest, .inl ?_⟩
    -- The empty root is not registered, so it is not the longest one either.
    intro empty
    have registered := longest.isKnown
    rw [empty, noEmptyName] at registered
    exact absurd registered (by simp)

theorem readFunctional_eq_ok_iff_form (noEmptyName : design.hasUtility .functional [] = false)
    {negative : Bool} {utility : Utility} :
    design.readFunctional head modifier negative = .ok utility ↔
      ∃ root value, utility = .functional root value modifier negative ∧
        (design.BareForm head root value ∨ design.NamedForm head modifier root value ∨
          design.BracketForm head root value) := by
  rw [readFunctional_eq_ok_iff]
  refine exists_congr fun root => exists_congr fun value => and_congr_right fun _ => ?_
  by_cases closed : head.getLast? = some ']'
  · rw [bracketForm_iff_of_closed closed]
    constructor
    · intro bracket
      exact .inr (.inr bracket)
    · intro either
      rcases either with bare | named | bracket
      · exact absurd closed bare.open_end
      · exact absurd closed named.open_end
      · exact bracket
  · have noBracket : ¬design.BracketForm head root value :=
      fun bracket => closed bracket.getLast?_eq
    simp only [functionalRoot_eq_ok_iff_of_open closed]
    rw [namedForm_iff_of_open noEmptyName closed, Text.longestRoot?_eq_some_none_iff]
    have bareForm : ((design.hasUtility .functional head = true ∧ root = head) ∧ value = none) ↔
        design.BareForm head root value :=
      ⟨fun ⟨⟨registered, root_eq⟩, value_eq⟩ => ⟨closed, registered, root_eq, value_eq⟩,
        fun bare => ⟨⟨bare.registered, bare.root_eq⟩, bare.value_eq⟩⟩
    rw [bareForm]
    simp [noBracket]

/-- The three ways of reading a base, in the order in which they are tried. -/
theorem readUtility_eq_ok_iff {core : Text} {negative : Bool} {utility : Utility} :
    design.readUtility core negative = .ok utility ↔
      ((design.hasUtility .static core = true ∧ '[' ∉ core) ∧ utility = .static core negative) ∨
        (¬(design.hasUtility .static core = true ∧ '[' ∉ core) ∧
          ∃ head tail, Modifier.cut? core = some (head, tail) ∧
            ((∃ rest, head = '[' :: rest ∧
                Utility.ofProperty rest (tail.map .ofText) = .ok utility) ∨
              (head.head? ≠ some '[' ∧
                design.readFunctional head (tail.map .ofText) negative = .ok utility))) := by
  by_cases isStatic : design.hasUtility .static core = true ∧ '[' ∉ core
  · simp [readUtility, isStatic, eq_comm]
  · have noStatic : (design.hasUtility .static core && !core.contains '[') = false := by
      simpa using isStatic
    unfold readUtility
    rw [noStatic]
    cases cut : Modifier.cut? core with
    | none => simp [isStatic]
    | some parts =>
        obtain ⟨head, tail⟩ := parts
        cases opened : head.withoutFirst '[' with
        | none =>
            have notProperty := Text.withoutFirst_eq_none_iff.mp opened
            have noRest : ∀ rest, head ≠ '[' :: rest := by
              intro rest same
              exact notProperty (by rw [same]; rfl)
            simp [isStatic, opened, notProperty, noRest]
        | some rest =>
            obtain rfl := Text.withoutFirst_eq_some_iff.mp opened
            simp [isStatic, opened]

/-- What is neither a static utility nor a property is read as a functional
utility with what follows its slash as the modifier. -/
theorem readUtility_eq_readFunctional {core : Text} {negative : Bool} {utility : Utility}
    (notStatic : ¬(design.hasUtility .static core = true ∧ '[' ∉ core))
    (notProperty : core.head? ≠ some '[') :
    design.readUtility core negative = .ok utility ↔
      ∃ head tail, Modifier.cut? core = some (head, tail) ∧
        design.readFunctional head (tail.map .ofText) negative = .ok utility := by
  have headFirst : ∀ {head tail}, Modifier.cut? core = some (head, tail) →
      head.head? ≠ some '[' := by
    intro head tail cut opened
    rw [Modifier.eq_of_cut?_eq_some cut, List.head?_append, opened] at notProperty
    exact notProperty rfl
  rw [readUtility_eq_ok_iff]
  constructor
  · intro either
    rcases either with ⟨isStatic, _⟩ | ⟨_, head, tail, cut, ⟨rest, rfl, _⟩ | ⟨_, functional⟩⟩
    · exact absurd isStatic notStatic
    · exact absurd rfl (headFirst cut)
    · exact ⟨head, tail, cut, functional⟩
  · intro ⟨head, tail, cut, functional⟩
    exact .inr ⟨notStatic, head, tail, cut, .inr ⟨headFirst cut, functional⟩⟩

/-- The grammar of functional utilities.  Once the variants before it are
accepted, a base that is neither a static utility nor a property is read as the
functional utility whose form it has, with at most one modifier. -/
theorem readCandidate_functional_iff
    (noEmptyName : design.hasUtility .functional [] = false)
    {input base core : Text} {tokens : List Text}
    (pieces : input.pieces ':' = tokens ++ [base])
    (variantsAccepted : ∀ token ∈ tokens, (design.readVariant token).result.isSome = true)
    (core_eq : core = (Markers.ofBase base).core)
    (notStatic : ¬(design.hasUtility .static core = true ∧ '[' ∉ core))
    (notProperty : core.head? ≠ some '[')
    {root : Text} {value : Option UtilityValue} {modifier : Option Modifier} :
    (∃ candidate negative, (design.readCandidate input).result = some candidate ∧
        candidate.utility = .functional root value modifier negative) ↔
      ∃ head,
        ((core.pieces '/' = [head] ∧ modifier = none) ∨
          ∃ tail, core.pieces '/' = [head, tail] ∧ modifier = some (.ofText tail)) ∧
        ExactlyOne (design.BareForm head root value)
          (design.NamedForm head modifier root value)
          (design.BracketForm head root value) := by
  have cutIff : ∀ head, ((core.pieces '/' = [head] ∧ modifier = none) ∨
      ∃ tail, core.pieces '/' = [head, tail] ∧ modifier = some (.ofText tail)) ↔
        ∃ tail, Modifier.cut? core = some (head, tail) ∧ modifier = tail.map .ofText := by
    intro head
    simp only [Modifier.cut?_eq_some_iff]
    constructor
    · intro either
      rcases either with ⟨only, rfl⟩ | ⟨tail, two, rfl⟩
      · exact ⟨none, only, rfl⟩
      · exact ⟨some tail, two, rfl⟩
    · intro ⟨tail, cut, modifier_eq⟩
      cases tail with
      | none => exact .inl ⟨cut, modifier_eq⟩
      | some tail => exact .inr ⟨tail, cut, modifier_eq⟩
  subst core_eq
  constructor
  · intro ⟨candidate, negative, found, utility_eq⟩
    obtain ⟨_, read, _⟩ := (readCandidate_result_eq_some_iff pieces).mp found
    obtain ⟨head, tail, cut, functional⟩ :=
      (readUtility_eq_readFunctional notStatic notProperty).mp read
    obtain ⟨_, _, same, form⟩ := (readFunctional_eq_ok_iff_form noEmptyName).mp functional
    rw [utility_eq] at same
    obtain ⟨rfl, rfl, rfl, _⟩ := Utility.functional.inj same
    exact ⟨head, (cutIff head).mpr ⟨tail, cut, rfl⟩, exactlyOne_form_iff.mpr form⟩
  · intro ⟨head, shape, exactly⟩
    obtain ⟨tail, cut, rfl⟩ := (cutIff head).mp shape
    have form := exactlyOne_form_iff.mp exactly
    obtain ⟨variants, reads⟩ := exists_readsEach_iff.mpr variantsAccepted
    let marked := Markers.ofBase base
    let utility := Utility.functional root value (tail.map .ofText) marked.negative
    have functional : design.readFunctional head (tail.map .ofText) marked.negative =
        .ok utility :=
      (readFunctional_eq_ok_iff_form noEmptyName).mpr ⟨root, value, rfl, form⟩
    have read : design.readUtility marked.core marked.negative = .ok utility :=
      (readUtility_eq_readFunctional notStatic notProperty).mpr ⟨head, tail, cut, functional⟩
    refine ⟨⟨utility, variants.reverse, marked.important⟩, marked.negative, ?_, rfl⟩
    apply (readCandidate_result_eq_some_iff pieces).mpr
    exact ⟨reads.reverse, read, rfl⟩

/-- A custom property behind a type hint, which is kept as it is written, with a
modifier that is decoded, under a variant and with both markers. -/
theorem readCandidate_functional_iff_brackets :
    let design := ((({} : Vocabulary).addVariant "hover".toList .static true).addFunctional
      "bg".toList).design
    let base := "-bg-[color:--deep_red]/[one_half]!".toList
    let core := "bg-[color:--deep_red]/[one_half]".toList
    design.hasUtility .functional [] = false ∧
      Text.pieces ':' ("hover:".toList ++ base) = ["hover".toList] ++ [base] ∧
      core = (Markers.ofBase base).core ∧
      ¬(design.hasUtility .static core = true ∧ '[' ∉ core) ∧
      core.head? ≠ some '[' ∧
      ∃ candidate negative,
        (design.readCandidate ("hover:".toList ++ base)).result = some candidate ∧
          candidate.utility = .functional "bg".toList
            (some (.arbitrary (some "color".toList)
              ⟨"var(--deep_red)".toList, some "--deep_red".toList⟩))
            (some (.arbitrary ⟨"one half".toList, none⟩)) negative := by
  intro design base core
  have noEmptyName : design.hasUtility .functional [] = false := rfl
  have pieces : Text.pieces ':' ("hover:".toList ++ base) = ["hover".toList] ++ [base] := rfl
  have notStatic : ¬(design.hasUtility .static core = true ∧ '[' ∉ core) := by decide
  have notProperty : core.head? ≠ some '[' := by decide
  have variantsAccepted : ∀ token ∈ ["hover".toList],
      (design.readVariant token).result.isSome = true := by
    intro token member
    obtain rfl := List.mem_singleton.mp member
    rfl
  have named : ∀ character ∈ "color".toList, Utility.isNameCharacter character = true :=
    List.all_eq_true.mp rfl
  have hinted : Utility.Hinted ("color".toList ++ ':' :: "--deep_red".toList)
      (some "color".toList) "--deep_red".toList :=
    .hint (List.cons_ne_nil 'c' "olor".toList) named
  have form : design.BracketForm "bg-[color:--deep_red]".toList "bg".toList
      (some (.arbitrary (some "color".toList)
        ⟨"var(--deep_red)".toList, some "--deep_red".toList⟩)) :=
    ⟨rfl, "color:--deep_red".toList, _, _, rfl, Utility.cutAtBracket_eq_none_iff.mp rfl, hinted,
      rfl⟩
  refine ⟨noEmptyName, pieces, rfl, notStatic, notProperty, ?_⟩
  apply (readCandidate_functional_iff noEmptyName pieces variantsAccepted rfl notStatic
    notProperty).mpr
  exact ⟨"bg-[color:--deep_red]".toList, .inr ⟨"[one_half]".toList, rfl, rfl⟩,
    exactlyOne_form_iff.mpr (.inr (.inr form))⟩

end Design

end UtilityClass
