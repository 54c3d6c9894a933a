import UtilityClass.Json.Numeral
import UtilityClass.Json.Quoted

/-!
# From text to tokens

`lex` reads as many whole tokens as a text holds and says how the row ends.
White space is a space, a tab, a line feed or a carriage return.  A text that
breaks off, or breaks down, inside a token keeps the tokens before it: whether
and how the break matters depends on what a reader expects at that place.
-/

namespace UtilityClass.Json

/-- How a row of tokens ends. -/
inductive Stop where
  | finished
  /-- A number or a literal begins but does not go on as one. -/
  | brokenScalar (cause : Break)
  /-- A string that cannot be read, or a character that begins no token. -/
  | broken (cause : Break)

def isSpace (character : Char) : Bool :=
  character == ' ' || character == '\t' || character == '\n' || character == '\r'

def punctuation? (character : Char) : Option Token :=
  if character = '{' then some .openBrace
  else if character = '}' then some .closeBrace
  else if character = '[' then some .openBracket
  else if character = ']' then some .closeBracket
  else if character = ',' then some .comma
  else if character = ':' then some .colon
  else none

def readWord : Text → Text → Except Break Text
  | [], text => .ok text
  | expected :: word, text => (readExactly expected text).bind (readWord word)

def readNumber (first : Char) (rest : Text) : Except Break (Token × Text) :=
  (Numeral.read (first :: rest)).bind fun (numeral, final) =>
    match numeral.number? with
    | some number => .ok (.number number, final)
    | none => .error .malformed

/-- Reads a literal whose first letter has been read. -/
def readLiteral (token : Token) (letters : String) (rest : Text) : Except Break (Token × Text) :=
  (readWord letters.toList rest).map fun final => (token, final)

/-- Tells a break inside a number or a literal from other breaks. -/
def asScalar : Except Break (Token × Text) → Except Stop (Token × Text) :=
  Except.mapError .brokenScalar

/-- Reads a token that is no punctuation and starts with `first`. -/
def readScalar (first : Char) (rest : Text) : Except Stop (Token × Text) :=
  if first = '"' then
    ((readString rest).map fun (contents, final) => (.string contents, final)).mapError .broken
  else if first = 'n' then asScalar (readLiteral .null "ull" rest)
  else if first = 't' then asScalar (readLiteral (.bool true) "rue" rest)
  else if first = 'f' then asScalar (readLiteral (.bool false) "alse" rest)
  else if first = '-' ∨ Numeral.isDigit first then asScalar (readNumber first rest)
  else .error (.broken .malformed)

theorem readWord_length {word text rest : Text} (read : readWord word text = .ok rest) :
    rest.length ≤ text.length := by
  induction word generalizing text with
  | nil =>
    simp only [readWord, Except.ok.injEq] at read
    simp [read]
  | cons expected word induction =>
    obtain ⟨afterFirst, first, others⟩ := bind_eq_ok_iff.mp read
    have := readExactly_length first
    have := induction others
    omega

theorem readNumber_length {first : Char} {rest final : Text} {token : Token}
    (read : readNumber first rest = .ok (token, final)) : final.length ≤ rest.length := by
  obtain ⟨⟨numeral, afterNumeral⟩, whole, valued⟩ := bind_eq_ok_iff.mp read
  have shorter := Numeral.read_length whole
  simp only [List.length_cons] at shorter
  dsimp only at valued
  split at valued
  · cases valued
    omega
  · cases valued

theorem readLiteral_length {token found : Token} {letters : String} {rest final : Text}
    (read : readLiteral token letters rest = .ok (found, final)) :
    final.length ≤ rest.length := by
  obtain ⟨afterWord, word, joined⟩ := map_eq_ok_iff.mp read
  cases joined
  exact readWord_length word

theorem asScalar_eq_ok {result : Except Break (Token × Text)} {found : Token × Text}
    (read : asScalar result = .ok found) : result = .ok found := by
  cases result with
  | error cause => cases read
  | ok value =>
    cases read
    rfl

theorem readScalar_length {first : Char} {rest final : Text} {token : Token}
    (read : readScalar first rest = .ok (token, final)) : final.length ≤ rest.length := by
  unfold readScalar at read
  split at read
  · cases contents : readString rest with
    | error cause =>
      rw [contents] at read
      cases read
    | ok result =>
      have := readString_length contents
      rw [contents] at read
      cases read
      omega
  · split at read
    · exact readLiteral_length (asScalar_eq_ok read)
    · split at read
      · exact readLiteral_length (asScalar_eq_ok read)
      · split at read
        · exact readLiteral_length (asScalar_eq_ok read)
        · split at read
          · exact readNumber_length (asScalar_eq_ok read)
          · simp at read

/-- The tokens of a text, and how their row ends. -/
def lex (text : Text) : List Token × Stop :=
  match text with
  | [] => ([], .finished)
  | first :: rest =>
    if isSpace first then lex rest
    else
      match punctuation? first with
      | some token =>
        let (tokens, stop) := lex rest
        (token :: tokens, stop)
      | none =>
        match scalar : readScalar first rest with
        | .error stop => ([], stop)
        | .ok (token, final) =>
          have : final.length ≤ rest.length := readScalar_length scalar
          let (tokens, stop) := lex final
          (token :: tokens, stop)
termination_by text.length

end UtilityClass.Json
