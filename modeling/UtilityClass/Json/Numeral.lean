import UtilityClass.Json.Token

/-!
# Numerals

The written form of a JSON number and the value it is read as.  A numeral is
an optional minus, digits without a leading zero, an optional fraction and an
optional exponent.  Without fraction and exponent it is an integer if it fits
64 bits.  Otherwise its leading digits, as many as fit 64 bits, are scaled by a
power of ten in double arithmetic, and a result beyond the doubles is an error.
-/

namespace UtilityClass.Json

/-- The parts of a written number: its digits, and those after the point, each
with their text still in hand. -/
structure Numeral where
  negative : Bool
  digits : Text
  fraction : Option Text
  exponent : Option Int

namespace Numeral

def isDigit (character : Char) : Bool := (digit? character).isSome

/-- The number a row of digits writes. -/
def valueOf (digits : Text) : Nat :=
  (Text.naturalFrom? 0 digits).getD 0

/-- What a reader answers when something is missing before `rest`. -/
def breakBefore (rest : Text) : Break :=
  if rest = [] then .truncated else .malformed

/-- Reads the digits of an integer part, without a leading zero. -/
def readDigits (text : Text) : Except Break (Text × Text) :=
  let digits := text.takeWhile isDigit
  let rest := text.dropWhile isDigit
  match digits with
  | [] => .error (breakBefore rest)
  | '0' :: _ :: _ => .error .malformed
  | _ => .ok (digits, rest)

def readFraction : Text → Except Break (Option Text × Text)
  | '.' :: text =>
    let digits := text.takeWhile isDigit
    let rest := text.dropWhile isDigit
    if digits = [] then .error (breakBefore rest) else .ok (some digits, rest)
  | text => .ok (none, text)

def readSign : Text → Bool × Text
  | '+' :: rest => (false, rest)
  | '-' :: rest => (true, rest)
  | rest => (false, rest)

def readExponent (text : Text) : Except Break (Option Int × Text) :=
  match text with
  | [] => .ok (none, [])
  | mark :: tail =>
    if mark = 'e' ∨ mark = 'E' then
      let (negative, signless) := readSign tail
      let digits := signless.takeWhile isDigit
      let rest := signless.dropWhile isDigit
      if digits = [] then .error (breakBefore rest)
      else
        let magnitude : Int := valueOf digits
        .ok (some (if negative then -magnitude else magnitude), rest)
    else .ok (none, text)

def readUnsigned (negative : Bool) (text : Text) : Except Break (Numeral × Text) := do
  let (digits, afterDigits) ← readDigits text
  let (fraction, afterFraction) ← readFraction afterDigits
  let (exponent, rest) ← readExponent afterFraction
  return (⟨negative, digits, fraction, exponent⟩, rest)

def read : Text → Except Break (Numeral × Text)
  | '-' :: text => readUnsigned true text
  | text => readUnsigned false text

theorem dropWhile_length_le (text : Text) :
    (text.dropWhile isDigit).length ≤ text.length :=
  (List.dropWhile_sublist isDigit).length_le

theorem readDigits_length {text digits rest : Text}
    (read : readDigits text = .ok (digits, rest)) : rest.length < text.length := by
  have joined : text.takeWhile isDigit ++ text.dropWhile isDigit = text :=
    List.takeWhile_append_dropWhile
  have whole := congrArg List.length joined
  simp only [List.length_append] at whole
  simp only [readDigits] at read
  split at read
  · simp at read
  · simp at read
  next nonempty _ =>
    simp only [Except.ok.injEq, Prod.mk.injEq] at read
    obtain ⟨-, rfl⟩ := read
    have : 0 < (text.takeWhile isDigit).length := List.length_pos_iff.mpr nonempty
    omega

theorem readFraction_length {text rest : Text} {fraction : Option Text}
    (read : readFraction text = .ok (fraction, rest)) : rest.length ≤ text.length := by
  unfold readFraction at read
  split at read
  next tail =>
    dsimp only at read
    split at read
    · simp at read
    · simp only [Except.ok.injEq, Prod.mk.injEq] at read
      obtain ⟨-, rfl⟩ := read
      have := dropWhile_length_le tail
      simp only [List.length_cons]
      omega
  · simp only [Except.ok.injEq, Prod.mk.injEq] at read
    simp [read.2]

theorem readSign_length (text : Text) : (readSign text).2.length ≤ text.length := by
  unfold readSign
  split <;> simp

theorem readExponent_length {text rest : Text} {exponent : Option Int}
    (read : readExponent text = .ok (exponent, rest)) : rest.length ≤ text.length := by
  unfold readExponent at read
  split at read
  · simp only [Except.ok.injEq, Prod.mk.injEq] at read
    simp [← read.2]
  next mark tail =>
    split at read
    · have signless := readSign_length tail
      have digits := dropWhile_length_le (readSign tail).2
      dsimp only at read
      split at read
      · simp at read
      · simp only [Except.ok.injEq, Prod.mk.injEq] at read
        obtain ⟨-, rfl⟩ := read
        simp only [List.length_cons]
        omega
    · simp only [Except.ok.injEq, Prod.mk.injEq] at read
      simp [← read.2]

theorem readUnsigned_length {negative : Bool} {text rest : Text} {numeral : Numeral}
    (read : readUnsigned negative text = .ok (numeral, rest)) : rest.length < text.length := by
  obtain ⟨⟨digits, afterDigits⟩, first, read⟩ := bind_eq_ok_iff.mp read
  obtain ⟨⟨fraction, afterFraction⟩, second, read⟩ := bind_eq_ok_iff.mp read
  obtain ⟨⟨exponent, final⟩, third, joined⟩ := bind_eq_ok_iff.mp read
  have := readDigits_length first
  have := readFraction_length second
  have := readExponent_length third
  cases joined
  omega

theorem read_length {text rest : Text} {numeral : Numeral}
    (result : read text = .ok (numeral, rest)) : rest.length < text.length := by
  unfold read at result
  split at result
  · have := readUnsigned_length result
    simp only [List.length_cons]
    omega
  · exact readUnsigned_length result

/-- Takes in digits behind `significand` as long as 64 bits hold the number, and
answers how many are left over. -/
def absorb (significand : Nat) : Text → Nat × Nat
  | [] => (significand, 0)
  | character :: rest =>
    let next := 10 * significand + (digit? character).getD 0
    if next < UInt64.size then absorb next rest else (significand, rest.length + 1)

/-- Scales a double by a power of ten.  Powers beyond the table of doubles are
applied in steps, and a result beyond the doubles is no number. -/
def scale (value : Float) (exponent : Int) : Option Float :=
  if exponent.natAbs ≤ 308 then
    let power := Float.ofScientific 1 false exponent.natAbs
    if 0 ≤ exponent then
      let scaled := value * power
      if scaled.isInf then none else some scaled
    else some (value / power)
  else if value == 0 then some value
  else if 0 ≤ exponent then none
  else scale (value / Float.ofScientific 1 false 308) (exponent + 308)
termination_by exponent.natAbs

/-- The double that the leading digits and the exponent stand for. -/
def real? (negative : Bool) (significand : Nat) (exponent : Int) : Option Number :=
  (scale (UInt64.ofNat significand).toFloat exponent).map fun magnitude =>
    .real (if negative then -magnitude else magnitude)

/-- The number a numeral is read as.  There is none when it overflows. -/
def number? (numeral : Numeral) : Option Number :=
  let (whole, surplus) := absorb 0 numeral.digits
  match numeral.fraction, numeral.exponent with
  | none, none =>
    if surplus ≠ 0 then real? numeral.negative whole surplus
    else if ¬numeral.negative then some (.natural whole)
    else if 1 ≤ whole ∧ whole ≤ UInt64.size / 2 then some (.negative whole)
    else real? true whole 0
  | fraction, exponent =>
    let digits := fraction.getD []
    let (significand, unused) := absorb whole digits
    let places : Int := (digits.length : Int) - unused
    real? numeral.negative significand (surplus - places + exponent.getD 0)

end Numeral

end UtilityClass.Json
