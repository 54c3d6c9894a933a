import Mathlib.Data.List.Chain
import UtilityClass.Json.Lexer

/-!
# Reading the spelling of a token

A token that is written is the token that is read, whatever follows it, except
that a number goes on as long as its next character could belong to it.
-/

namespace UtilityClass.Json

/-- Whether a number goes on when this follows its digits. -/
def extendsNumber (rest : Text) : Bool :=
  rest.head?.any fun character =>
    Numeral.isDigit character || character == '.' || character == 'e' || character == 'E'

namespace Numeral

theorem digit?_of_isDigit {character : Char} (digit : character.isDigit = true) :
    digit? character = some (character.toNat - '0'.toNat) :=
  digit?_eq_some_iff.mpr ⟨digit, rfl⟩

theorem isDigit_of_isDigit {character : Char} (digit : character.isDigit = true) :
    isDigit character = true := by
  rw [isDigit, digit?_of_isDigit digit]
  rfl

theorem isDigit_of_mem_ofNatural {number : Nat} {character : Char}
    (member : character ∈ Text.ofNatural number) : character.isDigit = true :=
  Nat.isDigit_of_mem_toDigits (by decide) (by decide) member

theorem head?_ofNatural_ne_zero {number : Nat} (positive : 0 < number) :
    (Text.ofNatural number).head? ≠ some '0' := by
  unfold Text.ofNatural
  induction number using Nat.strongRecOn with
  | _ number induction =>
      by_cases short : number < 10
      · rw [Nat.toDigits_of_lt_base short]
        have digits : ∀ digit < 10, 0 < digit → Nat.digitChar digit ≠ '0' := by decide
        simpa using digits number short positive
      · rw [Nat.toDigits_of_base_le (by decide) (by omega)]
        rw [List.head?_append_of_ne_nil _ Nat.toDigits_ne_nil]
        exact induction (number / 10) (by omega) (by omega)

theorem le_ofDigitChars (digits : Text) (value : Nat) :
    value ≤ Nat.ofDigitChars 10 digits value := by
  induction digits generalizing value with
  | nil => simp [Nat.ofDigitChars]
  | cons digit digits induction =>
      rw [Nat.ofDigitChars_cons]
      have step := induction (10 * value + (digit.toNat - '0'.toNat))
      omega

/-- Digits are taken in as long as the number they write fits. -/
theorem absorb_eq {digits : Text} (allDigits : ∀ character ∈ digits, character.isDigit = true)
    {value : Nat} (fits : Nat.ofDigitChars 10 digits value < UInt64.size) :
    absorb value digits = (Nat.ofDigitChars 10 digits value, 0) := by
  induction digits generalizing value with
  | nil => rfl
  | cons digit digits induction =>
      obtain ⟨first, others⟩ := List.forall_mem_cons.mp allDigits
      rw [Nat.ofDigitChars_cons] at fits ⊢
      have next := Nat.lt_of_le_of_lt (le_ofDigitChars digits _) fits
      simp only [absorb, digit?_of_isDigit first, Option.getD_some, if_pos next]
      exact induction others fits

theorem not_isDigit_of_not_extends {rest : Text} (ends : extendsNumber rest = false) :
    rest.takeWhile isDigit = [] ∧ rest.dropWhile isDigit = rest := by
  cases rest with
  | nil => simp
  | cons character rest =>
      have noDigit : isDigit character = false := by
        simp only [extendsNumber, List.head?_cons, Option.any_some, Bool.or_eq_false_iff] at ends
        exact ends.1.1.1
      simp [noDigit]

theorem readDigits_ofNatural {rest : Text} (ends : extendsNumber rest = false) (number : Nat) :
    readDigits (Text.ofNatural number ++ rest) = .ok (Text.ofNatural number, rest) := by
  have allDigits : ∀ character ∈ Text.ofNatural number, isDigit character = true :=
    fun _ member => isDigit_of_isDigit (isDigit_of_mem_ofNatural member)
  obtain ⟨noDigits, untouched⟩ := not_isDigit_of_not_extends ends
  have taken : (Text.ofNatural number ++ rest).takeWhile isDigit = Text.ofNatural number := by
    rw [List.takeWhile_append_of_pos allDigits, noDigits, List.append_nil]
  have left : (Text.ofNatural number ++ rest).dropWhile isDigit = rest := by
    rw [List.dropWhile_append_of_pos allDigits, untouched]
  simp only [readDigits, taken, left]
  split
  next empty => exact absurd empty Nat.toDigits_ne_nil
  next second more leadingZero =>
    cases number with
    | zero => exact absurd leadingZero (by simp [Text.ofNatural])
    | succ number =>
        exact absurd (by simp [leadingZero]) (head?_ofNatural_ne_zero (Nat.succ_pos number))
  next => rfl

theorem readFraction_of_not_extends {rest : Text} (ends : extendsNumber rest = false) :
    readFraction rest = .ok (none, rest) := by
  cases rest with
  | nil => rfl
  | cons character rest =>
      have noPoint : character ≠ '.' := by
        rintro rfl
        simp [extendsNumber] at ends
      unfold readFraction
      split
      next same => exact absurd (List.cons.inj same).1 noPoint
      next => rfl

theorem readExponent_of_not_extends {rest : Text} (ends : extendsNumber rest = false) :
    readExponent rest = .ok (none, rest) := by
  cases rest with
  | nil => rfl
  | cons character rest =>
      have noMark : ¬(character = 'e' ∨ character = 'E') := by
        rintro (rfl | rfl) <;> simp [extendsNumber] at ends
      simp [readExponent, noMark]

theorem read_ofNatural {rest : Text} (ends : extendsNumber rest = false) (number : Nat) :
    read (Text.ofNatural number ++ rest) =
      .ok (⟨false, Text.ofNatural number, none, none⟩, rest) := by
  have unsigned : readUnsigned false (Text.ofNatural number ++ rest) =
      .ok (⟨false, Text.ofNatural number, none, none⟩, rest) := by
    simp [readUnsigned, readDigits_ofNatural ends, readFraction_of_not_extends ends,
      readExponent_of_not_extends ends, bind, Except.bind, pure, Except.pure]
  unfold read
  split
  next tail same =>
    have minus : '-' ∈ Text.ofNatural number := by
      cases digits : Text.ofNatural number with
      | nil => exact absurd digits Nat.toDigits_ne_nil
      | cons first others =>
          rw [digits, List.cons_append] at same
          simp [(List.cons.inj same).1]
    exact absurd (isDigit_of_mem_ofNatural minus) (by decide)
  next => exact unsigned

theorem number?_ofNatural {number : Nat} (fits : number < UInt64.size) :
    number? ⟨false, Text.ofNatural number, none, none⟩ = some (.natural number) := by
  have value : Nat.ofDigitChars 10 (Text.ofNatural number) 0 = number :=
    Nat.ofDigitChars_toDigits (by decide) (by decide)
  have absorbed : absorb 0 (Text.ofNatural number) = (number, 0) := by
    rw [absorb_eq (fun _ => isDigit_of_mem_ofNatural) (by rwa [value]), value]
  simp [number?, absorbed]

end Numeral

theorem readString_cons_of_escape {rest after : Text} {meant : Char}
    (escaped : readEscape rest = .ok (meant, after)) :
    readString ('\\' :: rest) =
      (readString after).map fun (contents, final) => (meant :: contents, final) := by
  rw [readString, if_neg (by decide), if_pos rfl]
  split
  next failed => simp [escaped] at failed
  next read =>
    rw [escaped] at read
    obtain ⟨rfl, rfl⟩ := Prod.mk.inj (Except.ok.inj read)
    rfl

theorem readUnicode_hexByte {character : Char} (control : character.toNat < 0x20)
    (rest : Text) :
    readUnicode ('0' :: '0' :: (hexByte character.toNat ++ rest)) = .ok (character, rest) := by
  have units : ∀ code < 0x20,
      codeUnit? '0' '0' (Nat.digitChar (code / 16)) (Nat.digitChar (code % 16)) = some code := by
    decide
  have notLower : isLowerSurrogate character.toNat = false := by
    simp only [isLowerSurrogate, Bool.and_eq_false_iff, decide_eq_false_iff_not]
    omega
  have notUpper : isUpperSurrogate character.toNat = false := by
    simp only [isUpperSurrogate, Bool.and_eq_false_iff, decide_eq_false_iff_not]
    omega
  simp [readUnicode, hexByte, readCodeUnit, units _ control, notLower, notUpper, bind,
    Except.bind, pure, Except.pure]

theorem readString_escape (character : Char) (rest : Text) :
    readString (escape character ++ rest) =
      (readString rest).map fun (contents, final) => (character :: contents, final) := by
  unfold escape
  split
  next quote =>
    subst quote
    exact readString_cons_of_escape rfl
  next notQuote =>
    split
    next backslash =>
      subst backslash
      exact readString_cons_of_escape rfl
    next notBackslash =>
      repeat' split
      next backspace =>
        subst backspace
        exact readString_cons_of_escape rfl
      next formFeed =>
        subst formFeed
        exact readString_cons_of_escape rfl
      next lineFeed =>
        subst lineFeed
        exact readString_cons_of_escape rfl
      next carriageReturn =>
        subst carriageReturn
        exact readString_cons_of_escape rfl
      next tab =>
        subst tab
        exact readString_cons_of_escape rfl
      next control => exact readString_cons_of_escape (readUnicode_hexByte control rest)
      next plain =>
        rw [List.singleton_append, readString, if_neg notQuote, if_neg notBackslash,
          if_neg plain]

theorem readString_quoted (text rest : Text) :
    readString (text.flatMap escape ++ '"' :: rest) = .ok (text, rest) := by
  induction text with
  | nil => simp [readString]
  | cons character text induction =>
      rw [List.flatMap_cons, List.append_assoc, readString_escape, induction]
      rfl

namespace Token

/-- The tokens that a value can be written with: its numbers are natural and
fit 64 bits. -/
def Writable : Token → Prop
  | .number (.natural value) => value < UInt64.size
  | .number (.negative _) | .number (.real _) => False
  | _ => True

/-- Whether a text may follow the token. -/
def EndsBefore (rest : Text) : Token → Prop
  | .number _ => extendsNumber rest = false
  | _ => True

end Token

theorem lex_cons_of_punctuation {character : Char} {token : Token}
    (notSpace : isSpace character = false) (mark : punctuation? character = some token)
    (rest : Text) : lex (character :: rest) = (token :: (lex rest).1, (lex rest).2) := by
  rw [lex, notSpace, mark]
  rfl

theorem lex_cons_of_scalar {character : Char} {rest final : Text} {token : Token}
    (notSpace : isSpace character = false) (noMark : punctuation? character = none)
    (scalar : readScalar character rest = .ok (token, final)) :
    lex (character :: rest) = (token :: (lex final).1, (lex final).2) := by
  rw [lex, notSpace, noMark]
  simp only [Bool.false_eq_true, if_false]
  split
  next failed => simp [scalar] at failed
  next read =>
    rw [scalar] at read
    obtain ⟨rfl, rfl⟩ := Prod.mk.inj (Except.ok.inj read)
    rfl

theorem readScalar_of_isDigit {first : Char} (digit : first.isDigit = true) (rest : Text) :
    isSpace first = false ∧ punctuation? first = none ∧
      readScalar first rest = asScalar (readNumber first rest) := by
  have ne : ∀ other : Char, other.isDigit = false → first ≠ other := by
    rintro other noDigit rfl
    simp [digit] at noDigit
  refine ⟨?_, ?_, ?_⟩
  · simp [isSpace, ne ' ' rfl, ne '\t' rfl, ne '\n' rfl, ne '\r' rfl]
  · simp [punctuation?, ne '{' rfl, ne '}' rfl, ne '[' rfl, ne ']' rfl, ne ',' rfl, ne ':' rfl]
  · simp [readScalar, ne '"' rfl, ne 'n' rfl, ne 't' rfl, ne 'f' rfl,
      Numeral.isDigit_of_isDigit digit]

theorem lex_ofNatural {number : Nat} (fits : number < UInt64.size) {rest : Text}
    (ends : extendsNumber rest = false) :
    lex (Text.ofNatural number ++ rest) =
      (.number (.natural number) :: (lex rest).1, (lex rest).2) := by
  have read := Numeral.read_ofNatural ends number
  have value := Numeral.number?_ofNatural fits
  cases digits : Text.ofNatural number with
  | nil => exact absurd digits Nat.toDigits_ne_nil
  | cons first others =>
      have member : first ∈ Text.ofNatural number := by simp [digits]
      have digit : first.isDigit = true := Numeral.isDigit_of_mem_ofNatural member
      obtain ⟨notSpace, noMark, isNumber⟩ := readScalar_of_isDigit digit (others ++ rest)
      rw [digits] at read value
      rw [List.cons_append] at read
      rw [List.cons_append]
      apply lex_cons_of_scalar notSpace noMark
      rw [isNumber, readNumber, read]
      simp [Except.bind, value, asScalar, Except.mapError]

/-- A token is read back from its spelling in front of any text that does not
extend it. -/
theorem lex_spelling_append {token : Token} (writable : token.Writable) {rest : Text}
    (ends : token.EndsBefore rest) :
    lex (token.spelling ++ rest) = (token :: (lex rest).1, (lex rest).2) := by
  cases token with
  | number number =>
      cases number with
      | natural value => exact lex_ofNatural writable ends
      | negative magnitude => exact writable.elim
      | real value => exact writable.elim
  | string value =>
      have contents : readString (value.flatMap escape ++ '"' :: rest) = .ok (value, rest) :=
        readString_quoted value rest
      have spelled : (Token.string value).spelling ++ rest =
          '"' :: (value.flatMap escape ++ '"' :: rest) := by
        simp [Token.spelling, quote]
      rw [spelled]
      apply lex_cons_of_scalar rfl rfl
      simp [readScalar, contents, Except.map, Except.mapError]
  | null => exact lex_cons_of_scalar rfl rfl rfl
  | bool value =>
      cases value with
      | true => exact lex_cons_of_scalar rfl rfl rfl
      | false => exact lex_cons_of_scalar rfl rfl rfl
  | openBrace => exact lex_cons_of_punctuation rfl rfl rest
  | closeBrace => exact lex_cons_of_punctuation rfl rfl rest
  | openBracket => exact lex_cons_of_punctuation rfl rfl rest
  | closeBracket => exact lex_cons_of_punctuation rfl rfl rest
  | comma => exact lex_cons_of_punctuation rfl rfl rest
  | colon => exact lex_cons_of_punctuation rfl rfl rest

namespace Token

/-- The ways a token may be written.  Strings may have other escapes and numbers other digits
than those they are written with: a spelling of one is any text that is read as it, whatever
follows. -/
inductive SpelledAs : Token → Text → Prop where
  | own {token : Token} (writable : token.Writable) : SpelledAs token token.spelling
  | number {number : Number} {spelling : Text}
      (read : ∀ rest, extendsNumber rest = false →
        lex (spelling ++ rest) = (.number number :: (lex rest).1, (lex rest).2)) :
      SpelledAs (.number number) spelling
  | string {value spelling : Text}
      (read : ∀ rest, lex (spelling ++ rest) = (.string value :: (lex rest).1, (lex rest).2)) :
      SpelledAs (.string value) spelling

theorem SpelledAs.lex_append {token : Token} {spelling rest : Text}
    (spelled : token.SpelledAs spelling) (ends : token.EndsBefore rest) :
    lex (spelling ++ rest) = (token :: (lex rest).1, (lex rest).2) := by
  cases spelled with
  | own writable => exact lex_spelling_append writable ends
  | number read => exact read rest ends
  | string read => exact read rest

/-- Whether two tokens may be written next to each other, however they are spelled. -/
def MayPrecede (first second : Token) : Prop :=
  ∀ spelling, second.SpelledAs spelling → ∀ rest, first.EndsBefore (spelling ++ rest)

end Token

/-- A text of nothing but white space. -/
def Blank (text : Text) : Prop :=
  ∀ character ∈ text, isSpace character = true

/-- A text that spells tokens, with white space before, between and behind them. -/
inductive Spaced : List Token → Text → Prop where
  | nil {blank : Text} (isBlank : Blank blank) : Spaced [] blank
  | cons {token : Token} {tokens : List Token} {blank spelling rest : Text}
      (isBlank : Blank blank) (spelled : token.SpelledAs spelling)
      (others : Spaced tokens rest) : Spaced (token :: tokens) (blank ++ (spelling ++ rest))

theorem spaced_flatMap {pieces : List (Text × Token)} {last : Text}
    (blank : ∀ piece ∈ pieces, Blank piece.1) (writable : ∀ piece ∈ pieces, piece.2.Writable)
    (lastBlank : Blank last) :
    Spaced (pieces.map Prod.snd)
      (pieces.flatMap (fun piece => piece.1 ++ piece.2.spelling) ++ last) := by
  induction pieces with
  | nil => exact .nil lastBlank
  | cons piece pieces induction =>
      obtain ⟨firstBlank, othersBlank⟩ := List.forall_mem_cons.mp blank
      obtain ⟨firstWritable, othersWritable⟩ := List.forall_mem_cons.mp writable
      have others := induction othersBlank othersWritable
      have spaced := Spaced.cons firstBlank (.own firstWritable) others
      simpa only [List.map_cons, List.flatMap_cons, List.append_assoc] using spaced

theorem spaced_flatMap_spelling {tokens : List Token}
    (writable : ∀ token ∈ tokens, token.Writable) :
    Spaced tokens (tokens.flatMap Token.spelling) := by
  have blank : Blank [] := List.forall_mem_nil _
  have spaced := @spaced_flatMap (tokens.map fun token => ([], token)) []
    (by simpa using fun _ _ => blank) (by simpa using writable) blank
  simpa [List.flatMap_map, Function.comp_def] using spaced

theorem lex_blank_append {blank : Text} (isBlank : Blank blank) (rest : Text) :
    lex (blank ++ rest) = lex rest := by
  induction blank with
  | nil => rfl
  | cons character blank induction =>
      obtain ⟨isSpace, othersBlank⟩ := List.forall_mem_cons.mp isBlank
      rw [List.cons_append, lex, if_pos isSpace, induction othersBlank]

theorem endsBefore_of_isSpace {character : Char} (space : isSpace character = true)
    (token : Token) (rest : Text) : token.EndsBefore (character :: rest) := by
  cases token with
  | number number =>
      have cases : ((character = ' ' ∨ character = '\t') ∨ character = '\n') ∨
          character = '\r' := by
        simpa [isSpace] using space
      rcases cases with ((rfl | rfl) | rfl) | rfl <;> rfl
  | _ => trivial

theorem Spaced.endsBefore {token : Token} {tokens : List Token} {text : Text}
    (spaced : Spaced tokens text) (apart : ∀ next ∈ tokens.head?, token.MayPrecede next) :
    token.EndsBefore text := by
  cases spaced with
  | nil isBlank =>
      cases text with
      | nil => cases token <;> simp [Token.EndsBefore, extendsNumber]
      | cons character blank =>
          exact endsBefore_of_isSpace (isBlank character List.mem_cons_self) token blank
  | @cons next others blank spelling rest isBlank spelled othersSpaced =>
      cases blank with
      | nil => exact apart next rfl spelling spelled rest
      | cons character blank =>
          exact endsBefore_of_isSpace (isBlank character List.mem_cons_self) token _

/-- White space between tokens makes no difference. -/
theorem Spaced.lex_eq {tokens : List Token} {text : Text} (spaced : Spaced tokens text)
    (apart : tokens.IsChain Token.MayPrecede) : lex text = (tokens, .finished) := by
  induction spaced with
  | @nil blank isBlank =>
      have read := lex_blank_append isBlank []
      rw [List.append_nil] at read
      rw [read, lex]
  | @cons token tokens blank spelling rest isBlank spelled others induction =>
      have ends : token.EndsBefore rest := others.endsBefore (List.isChain_cons.mp apart).1
      rw [lex_blank_append isBlank, spelled.lex_append ends, induction apart.of_cons]

end UtilityClass.Json
