import UtilityClass.Text.Basic

/-!
# Natural numbers in decimal

`Text.ofNatural` writes a number with the ten ASCII digits and no leading
zeros.  `Text.natural?` reads any non-empty run of ASCII digits, leading zeros
included, so it reads back what `Text.ofNatural` writes.
-/

namespace UtilityClass

def digit? (character : Char) : Option Nat :=
  if '0' ≤ character ∧ character ≤ '9' then some (character.toNat - '0'.toNat) else none

theorem digit?_eq_some_iff {character : Char} {value : Nat} :
    digit? character = some value ↔
      character.isDigit = true ∧ character.toNat - '0'.toNat = value := by
  have bounds : ('0' ≤ character ∧ character ≤ '9') ↔ character.isDigit = true := by
    rw [Char.isDigit, Bool.and_eq_true, decide_eq_true_eq, decide_eq_true_eq]
    rfl
  unfold digit?
  rw [← bounds]
  split
  next digit => simp [digit]
  next noDigit => simp [noDigit]

namespace Text

/-- Reads the digits of a text behind the digits of `value`. -/
def naturalFrom? : Nat → Text → Option Nat
  | value, [] => some value
  | value, character :: rest =>
    (digit? character).bind fun digit => naturalFrom? (10 * value + digit) rest

/-- The number that a non-empty run of ASCII digits writes. -/
def natural? (text : Text) : Option Nat :=
  if text = [] then none else naturalFrom? 0 text

def ofNatural (number : Nat) : Text :=
  Nat.toDigits 10 number

end Text

end UtilityClass
