import Mathlib.Data.List.DropRight
import Mathlib.Data.List.TakeWhile
import Mathlib.Data.Nat.Digits.Defs
import Mathlib.Tactic.Ring
import UtilityClass.Vocabulary.DepthSetting

/-!
# Which settings are read

A setting is read when it is a positive decimal number of 64 bits, possibly
with white space around it, a plus before it and leading zeros.  The number is
that of the digits by their places, so none of those beyond 64 bits is taken
for a smaller one.
-/

namespace UtilityClass

namespace Text

variable {text core before after : Text}

/-- The number that ASCII digits write in decimal, whatever zeros lead it. -/
def decimalValue (digits : Text) : Nat :=
  Nat.ofDigits 10 (digits.reverse.map fun digit => digit.toNat - '0'.toNat)

theorem decimalValue_cons (digit : Char) (digits : Text) :
    decimalValue (digit :: digits) =
      (digit.toNat - '0'.toNat) * 10 ^ digits.length + decimalValue digits := by
  simp only [decimalValue, List.reverse_cons, List.map_append, Nat.ofDigits_append,
    List.length_map, List.length_reverse, List.map_cons, List.map_nil, Nat.ofDigits_singleton]
  rw [Nat.add_comm, Nat.mul_comm]

/-- Digits are read as if those of the value stood in front of them. -/
theorem naturalFrom?_eq_some_iff {value number : Nat} :
    naturalFrom? value text = some number ↔
      (∀ digit ∈ text, digit.isDigit = true) ∧
        value * 10 ^ text.length + decimalValue text = number := by
  induction text generalizing value with
  | nil => simp [naturalFrom?, decimalValue]
  | cons digit digits induction =>
      rw [naturalFrom?, Option.bind_eq_some_iff]
      simp only [digit?_eq_some_iff, induction, List.forall_mem_cons, decimalValue_cons,
        List.length_cons]
      constructor
      · rintro ⟨_, ⟨first, rfl⟩, others, rfl⟩
        refine ⟨⟨first, others⟩, ?_⟩
        ring
      · rintro ⟨⟨first, others⟩, rfl⟩
        refine ⟨_, ⟨first, rfl⟩, others, ?_⟩
        ring

theorem natural?_eq_some_iff {number : Nat} :
    text.natural? = some number ↔
      text ≠ [] ∧ (∀ digit ∈ text, digit.isDigit = true) ∧ decimalValue text = number := by
  unfold natural?
  split
  next empty => simp [empty]
  next nonempty => simp [nonempty, naturalFrom?_eq_some_iff]

theorem trim_eq_rdropWhile (text : Text) :
    text.trim = (text.dropWhile isBlankCharacter).rdropWhile isBlankCharacter := rfl

theorem exists_eq_trim (text : Text) :
    ∃ before after, text = before ++ text.trim ++ after ∧
      ∀ character ∈ before ++ after, isBlankCharacter character = true := by
  refine ⟨text.takeWhile isBlankCharacter,
    (text.dropWhile isBlankCharacter).rtakeWhile isBlankCharacter, ?_, ?_⟩
  · rw [trim_eq_rdropWhile, List.append_assoc, List.rdropWhile_append_rtakeWhile,
      List.takeWhile_append_dropWhile]
  · intro character member
    rcases List.mem_append.mp member with inFront | atEnd
    · exact List.mem_takeWhile_imp inFront
    · exact List.mem_rtakeWhile_imp atEnd

theorem dropWhile_blank_append (blank : ∀ character ∈ before, isBlankCharacter character = true)
    (solid : ∀ character ∈ core, isBlankCharacter character = false) (nonempty : core ≠ []) :
    (before ++ (core ++ after)).dropWhile isBlankCharacter = core ++ after := by
  obtain ⟨first, rest, rfl⟩ := List.exists_cons_of_ne_nil nonempty
  rw [List.dropWhile_append_of_pos blank, List.cons_append, List.dropWhile_cons_of_neg]
  simp [solid first]

theorem trim_eq (blank : ∀ character ∈ before ++ after, isBlankCharacter character = true)
    (solid : ∀ character ∈ core, isBlankCharacter character = false) (nonempty : core ≠ []) :
    (before ++ core ++ after).trim = core := by
  obtain ⟨blankBefore, blankAfter⟩ := List.forall_mem_append.mp blank
  have last : ((core ++ after).reverse.dropWhile isBlankCharacter).reverse = core := by
    have reversed := @dropWhile_blank_append core.reverse after.reverse []
      (by simpa using blankAfter) (by simpa using solid) (by simpa using nonempty)
    rw [List.reverse_append]
    simpa using congrArg List.reverse reversed
  rw [trim, List.append_assoc, dropWhile_blank_append blankBefore solid nonempty, last]

end Text

namespace Vocabulary

/-- The texts that set a depth: decimal digits, of which the first may be zeros,
behind at most one plus and with white space around. -/
inductive SetsDepth : Text → Nat → Prop where
  | intro {before sign digits after : Text}
      (blank : ∀ character ∈ before ++ after, isBlankCharacter character = true)
      (plus : sign = [] ∨ sign = ['+']) (nonempty : digits ≠ [])
      (decimal : ∀ digit ∈ digits, digit.isDigit = true) :
      SetsDepth (before ++ (sign ++ digits) ++ after) digits.decimalValue

theorem not_blank_of_isDigit {character : Char} (digit : character.isDigit = true) :
    isBlankCharacter character = false := by
  have bounds : 48 ≤ character.toNat ∧ character.toNat ≤ 57 := by
    simpa [Char.isDigit, UInt32.le_iff_toNat_le] using digit
  simp only [isBlankCharacter, blankRanges, List.any_cons, List.any_nil, Bool.or_false,
    Bool.or_eq_false_iff, Bool.and_eq_false_iff, decide_eq_false_iff_not]
  omega

theorem not_blank_of_signed {sign digits : Text} (plus : sign = [] ∨ sign = ['+'])
    (decimal : ∀ digit ∈ digits, digit.isDigit = true) :
    ∀ character ∈ sign ++ digits, isBlankCharacter character = false := by
  intro character member
  rcases List.mem_append.mp member with inSign | inDigits
  · rcases plus with rfl | rfl
    · exact absurd inSign List.not_mem_nil
    · obtain rfl := List.mem_singleton.mp inSign
      decide
  · exact not_blank_of_isDigit (decimal character inDigits)

theorem settingDigits_sign {sign digits : Text} (plus : sign = [] ∨ sign = ['+'])
    (decimal : ∀ digit ∈ digits, digit.isDigit = true) :
    settingDigits (sign ++ digits) = digits := by
  rcases plus with rfl | rfl
  · have noPlus : digits.head? ≠ some '+' := by
      intro first
      exact absurd (decimal _ (List.mem_of_head? first)) (by decide)
    rw [List.nil_append, settingDigits, Text.withoutFirst_eq_none_iff.mpr noPlus]
    rfl
  · rfl

theorem exists_sign_eq (text : Text) :
    ∃ sign, (sign = [] ∨ sign = ['+']) ∧ text = sign ++ settingDigits text := by
  cases found : text.withoutFirst '+' with
  | none => exact ⟨[], .inl rfl, by simp [settingDigits, found]⟩
  | some rest =>
      refine ⟨['+'], .inr rfl, ?_⟩
      rw [settingDigits, found]
      exact Text.withoutFirst_eq_some_iff.mp found

/-- A depth is set exactly by what is read as its digits. -/
theorem natural?_settingDigits_eq_some_iff {raw : Text} {depth : Nat} :
    (settingDigits raw.trim).natural? = some depth ↔ SetsDepth raw depth := by
  constructor
  · intro read
    obtain ⟨nonempty, decimal, rfl⟩ := Text.natural?_eq_some_iff.mp read
    obtain ⟨before, after, trimmed, blank⟩ := Text.exists_eq_trim raw
    obtain ⟨sign, plus, signed⟩ := exists_sign_eq raw.trim
    have sets := SetsDepth.intro blank plus nonempty decimal
    rwa [← signed, ← trimmed] at sets
  · intro sets
    cases sets with
    | @intro before sign digits after blank plus nonempty decimal =>
        have solid := not_blank_of_signed plus decimal
        have filled : sign ++ digits ≠ [] := by simp [nonempty]
        rw [Text.trim_eq blank solid filled, settingDigits_sign plus decimal]
        exact Text.natural?_eq_some_iff.mpr ⟨nonempty, decimal, rfl⟩

theorem SetsDepth.unique {raw : Text} {depth other : Nat} (sets : SetsDepth raw depth)
    (setsOther : SetsDepth raw other) : depth = other := by
  rw [← natural?_settingDigits_eq_some_iff] at sets setsOther
  exact Option.some.inj (sets.symm.trans setsOther)

theorem readDepth_eq_ok_iff {raw : Text} {depth : Nat} :
    readDepth raw = .ok depth ↔ SetsDepth raw depth ∧ 0 < depth ∧ depth < 2 ^ 64 := by
  have limit : UInt64.size = 2 ^ 64 := rfl
  rw [← natural?_settingDigits_eq_some_iff, readDepth, limit]
  cases (settingDigits raw.trim).natural? with
  | none => simp
  | some number =>
      simp only [Option.some.injEq]
      constructor
      · intro read
        split at read
        next fits =>
          obtain rfl := Except.ok.inj read
          exact ⟨rfl, fits⟩
        next => nomatch read
      · rintro ⟨rfl, fits⟩
        rw [if_pos fits]

theorem readDepth_eq_error_of_not_ok {raw : Text} (refused : ∀ depth, readDepth raw ≠ .ok depth) :
    readDepth raw = .error (.badDepthSetting raw) := by
  unfold readDepth at refused ⊢
  split
  next => rfl
  next number found =>
    split
    next fits => exact absurd (by simp [found, fits]) (refused number)
    next => rfl

/-- A depth is read from exactly the texts that set it, if it is positive and
fits 64 bits.  Any other text is refused, however many digits it has, and is
quoted as it was written. -/
theorem depth_settings_are_read_exactly (raw : Text) :
    (∀ depth, depthOfSetting (some raw) = .ok depth ↔
        SetsDepth raw depth ∧ 0 < depth ∧ depth < 2 ^ 64) ∧
      ((¬ ∃ depth, SetsDepth raw depth ∧ 0 < depth ∧ depth < 2 ^ 64) →
        depthOfSetting (some raw) = .error (.badDepthSetting raw)) ∧
      (∀ depth, SetsDepth raw depth → 2 ^ 64 ≤ depth →
        depthOfSetting (some raw) = .error (.badDepthSetting raw)) ∧
      (LoadError.badDepthSetting raw).message =
        "invalid configuration: invalid variant depth '".toList ++ raw ++
          "', expected a positive integer".toList := by
  have reads (depth : Nat) := @readDepth_eq_ok_iff raw depth
  refine ⟨reads, ?_, ?_, ?_⟩
  · intro unset
    apply readDepth_eq_error_of_not_ok
    intro depth read
    exact unset ⟨depth, (reads depth).mp read⟩
  · intro depth sets large
    apply readDepth_eq_error_of_not_ok
    intro other read
    obtain ⟨setsOther, _, fits⟩ := (reads other).mp read
    have same := sets.unique setsOther
    omega
  · have joined : "invalid configuration: invalid variant depth '".toList =
        "invalid configuration: ".toList ++ "invalid variant depth '".toList := rfl
    rw [joined, List.append_assoc, List.append_assoc]
    rfl

/-- The greatest depth with all that may stand around its digits, the number
after it, and a number behind two pluses. -/
theorem depth_settings_are_read_exactly_greatest :
    let greatest : Text := "\u3000 +0018446744073709551615\n".toList
    let next : Text := "18446744073709551616".toList
    let pluses : Text := " ++4".toList
    SetsDepth greatest (2 ^ 64 - 1) ∧ depthOfSetting (some greatest) = .ok (2 ^ 64 - 1) ∧
      SetsDepth next (2 ^ 64) ∧ depthOfSetting (some next) = .error (.badDepthSetting next) ∧
      (¬ ∃ depth, SetsDepth pluses depth ∧ 0 < depth ∧ depth < 2 ^ 64) ∧
      depthOfSetting (some pluses) = .error (.badDepthSetting pluses) := by
  intro greatest next pluses
  obtain ⟨reads, _, _, _⟩ := depth_settings_are_read_exactly greatest
  obtain ⟨_, _, overflows, _⟩ := depth_settings_are_read_exactly next
  obtain ⟨_, refuses, _, _⟩ := depth_settings_are_read_exactly pluses
  have sets : SetsDepth greatest (2 ^ 64 - 1) := natural?_settingDigits_eq_some_iff.mp rfl
  have setsNext : SetsDepth next (2 ^ 64) := natural?_settingDigits_eq_some_iff.mp rfl
  have unset : ¬ ∃ depth, SetsDepth pluses depth ∧ 0 < depth ∧ depth < 2 ^ 64 := by
    rintro ⟨depth, setsPluses, _⟩
    have read := natural?_settingDigits_eq_some_iff.mpr setsPluses
    have unread : (settingDigits pluses.trim).natural? = none := rfl
    rw [unread] at read
    exact absurd read (by simp)
  exact ⟨sets, (reads _).mpr ⟨sets, by decide⟩, setsNext, overflows _ setsNext (le_refl _), unset,
    refuses unset⟩

end Vocabulary

end UtilityClass
