import UtilityClass.Json.Token

/-!
# Reading JSON strings

A string ends at the first quote that no backslash escapes.  Control characters
must be escaped.  `\u` takes four hexadecimal digits; a code unit of the upper
surrogates must be followed by one of the lower, and the two together stand for
one character.
-/

namespace UtilityClass.Json

/-- The value of a hexadecimal digit of either case. -/
def hexDigit? (character : Char) : Option Nat :=
  if '0' ≤ character ∧ character ≤ '9' then some (character.toNat - '0'.toNat)
  else if 'a' ≤ character ∧ character ≤ 'f' then some (character.toNat - 'a'.toNat + 10)
  else if 'A' ≤ character ∧ character ≤ 'F' then some (character.toNat - 'A'.toNat + 10)
  else none

/-- The number four hexadecimal digits write. -/
def codeUnit? (first second third fourth : Char) : Option Nat := do
  let a ← hexDigit? first
  let b ← hexDigit? second
  let c ← hexDigit? third
  let d ← hexDigit? fourth
  return ((a * 16 + b) * 16 + c) * 16 + d

/-- The length of a text in UTF-8. -/
def utf8Length (text : Text) : Nat :=
  text.foldl (fun length character => length + character.utf8Size) 0

/-- Reads the four digits after `\u`.  The text has ended early when fewer than
four bytes are left of it. -/
def readCodeUnit : Text → Except Break (Nat × Text)
  | first :: second :: third :: fourth :: rest =>
    match codeUnit? first second third fourth with
    | some code => .ok (code, rest)
    | none => .error .malformed
  | text => .error (if utf8Length text < 4 then .truncated else .malformed)

/-- Reads one given character of a string. -/
def readExactly (expected : Char) : Text → Except Break Text
  | [] => .error .truncated
  | character :: rest => if character = expected then .ok rest else .error .malformed

/-- Whether a code unit is the first half of a pair. -/
def isUpperSurrogate (code : Nat) : Bool := 0xD800 ≤ code && code ≤ 0xDBFF

/-- Whether a code unit is the second half of a pair. -/
def isLowerSurrogate (code : Nat) : Bool := 0xDC00 ≤ code && code ≤ 0xDFFF

/-- Reads what follows `\u`. -/
def readUnicode (text : Text) : Except Break (Char × Text) := do
  let (code, rest) ← readCodeUnit text
  if isLowerSurrogate code then throw .malformed
  else if isUpperSurrogate code then
    let afterBackslash ← readExactly '\\' rest
    let afterMark ← readExactly 'u' afterBackslash
    let (lower, final) ← readCodeUnit afterMark
    if isLowerSurrogate lower then
      return (.ofNat (0x10000 + (code - 0xD800) * 0x400 + (lower - 0xDC00)), final)
    else throw .malformed
  else return (.ofNat code, rest)

/-- Reads what follows a backslash. -/
def readEscape : Text → Except Break (Char × Text)
  | [] => .error .truncated
  | character :: rest =>
    if character = 'u' then readUnicode rest
    else if character = '"' ∨ character = '\\' ∨ character = '/' then .ok (character, rest)
    else if character = 'b' then .ok ('\x08', rest)
    else if character = 'f' then .ok ('\x0c', rest)
    else if character = 'n' then .ok ('\n', rest)
    else if character = 'r' then .ok ('\r', rest)
    else if character = 't' then .ok ('\t', rest)
    else .error .malformed

theorem readCodeUnit_length {text rest : Text} {code : Nat}
    (read : readCodeUnit text = .ok (code, rest)) : rest.length < text.length := by
  unfold readCodeUnit at read
  split at read
  · split at read
    · simp only [Except.ok.injEq, Prod.mk.injEq] at read
      obtain ⟨-, rfl⟩ := read
      simp only [List.length_cons]
      omega
    · simp at read
  · simp at read

theorem readExactly_length {expected : Char} {text rest : Text}
    (read : readExactly expected text = .ok rest) : rest.length < text.length := by
  cases text with
  | nil => simp [readExactly] at read
  | cons character tail =>
    simp only [readExactly] at read
    split at read
    · simp only [Except.ok.injEq] at read
      simp [read]
    · simp at read

theorem readUnicode_length {text rest : Text} {character : Char}
    (read : readUnicode text = .ok (character, rest)) : rest.length < text.length := by
  obtain ⟨⟨code, afterFirst⟩, first, behind⟩ := bind_eq_ok_iff.mp read
  have shorter := readCodeUnit_length first
  dsimp only at behind
  split at behind
  · cases behind
  · split at behind
    · obtain ⟨afterBackslash, backslash, behind⟩ := bind_eq_ok_iff.mp behind
      obtain ⟨afterMark, mark, behind⟩ := bind_eq_ok_iff.mp behind
      obtain ⟨⟨lower, final⟩, second, behind⟩ := bind_eq_ok_iff.mp behind
      have := readExactly_length backslash
      have := readExactly_length mark
      have := readCodeUnit_length second
      dsimp only at behind
      split at behind
      · obtain rfl : final = rest := congrArg Prod.snd (Except.ok.inj behind)
        omega
      · cases behind
    · obtain rfl : afterFirst = rest := congrArg Prod.snd (Except.ok.inj behind)
      exact shorter

theorem readEscape_length {text rest : Text} {character : Char}
    (read : readEscape text = .ok (character, rest)) : rest.length < text.length := by
  cases text with
  | nil => simp [readEscape] at read
  | cons head tail =>
    simp only [readEscape] at read
    split at read
    · have := readUnicode_length read
      simp only [List.length_cons]
      omega
    · repeat' split at read
      all_goals first
        | (simp only [Except.ok.injEq, Prod.mk.injEq] at read
           obtain ⟨-, rfl⟩ := read
           simp)
        | simp at read

/-- Reads the contents of a string and its closing quote. -/
def readString (text : Text) : Except Break (Text × Text) :=
  match text with
  | [] => .error .truncated
  | character :: rest =>
    if character = '"' then .ok ([], rest)
    else if character = '\\' then
      match escaped : readEscape rest with
      | .error cause => .error cause
      | .ok (meant, afterEscape) =>
        have : afterEscape.length < rest.length := readEscape_length escaped
        (readString afterEscape).map fun (contents, final) => (meant :: contents, final)
    else if character.toNat < 0x20 then .error .malformed
    else (readString rest).map fun (contents, final) => (character :: contents, final)
termination_by text.length

theorem readString_length {text contents rest : Text}
    (read : readString text = .ok (contents, rest)) : rest.length < text.length := by
  induction size : text.length using Nat.strongRecOn generalizing text contents rest with
  | _ length induction =>
    cases text with
    | nil => simp [readString] at read
    | cons character tail =>
      simp only [List.length_cons] at size
      rw [readString] at read
      split at read
      · cases read
        omega
      · split at read
        · split at read
          · simp at read
          next meant afterEscape escaped =>
            have shorter := readEscape_length escaped
            obtain ⟨⟨innerContents, innerRest⟩, inner, joined⟩ := map_eq_ok_iff.mp read
            have := induction _ (by omega) inner rfl
            cases joined
            omega
        · split at read
          · simp at read
          · obtain ⟨⟨innerContents, innerRest⟩, inner, joined⟩ := map_eq_ok_iff.mp read
            have := induction _ (by omega) inner rfl
            cases joined
            omega

end UtilityClass.Json
