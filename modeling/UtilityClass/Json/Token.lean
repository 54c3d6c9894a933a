import UtilityClass.Decimal.Shortest

/-!
# JSON tokens

A JSON text is a row of tokens with white space between them.  Each token has
one spelling here, the one that is written; readers accept more spellings of
strings and numbers.
-/

namespace UtilityClass.Json

/-- A number as a reader keeps it: an integer when it is written as one and
fits 64 bits, a double otherwise. -/
inductive Number where
  /-- An integer from 0 up to below `2 ^ 64`. -/
  | natural (value : Nat)
  /-- The negation of an integer from 1 to `2 ^ 63`. -/
  | negative (magnitude : Nat)
  /-- Anything else that does not overflow. -/
  | real (value : Float)

/-- The parts of a JSON text that white space may separate. -/
inductive Token where
  | openBrace
  | closeBrace
  | openBracket
  | closeBracket
  | comma
  | colon
  | null
  | bool (value : Bool)
  | number (value : Number)
  | string (value : Text)

/-- Why a text stops being JSON: it ends too early, or something stands where
nothing of its kind may stand. -/
inductive Break where
  | truncated
  | malformed
  deriving DecidableEq

/-- Two steps in a row give a result when the first gives a value from which
the second gives it. -/
theorem bind_eq_ok_iff {α β fault : Type} {first : Except fault α}
    {next : α → Except fault β} {result : β} :
    first.bind next = .ok result ↔ ∃ value, first = .ok value ∧ next value = .ok result := by
  cases first <;> simp [Except.bind]

theorem map_eq_ok_iff {α β fault : Type} {first : Except fault α} {change : α → β}
    {result : β} :
    first.map change = .ok result ↔ ∃ value, first = .ok value ∧ change value = result := by
  cases first <;> simp [Except.map]

/-- The lower-case hexadecimal digits of a number below 256. -/
def hexByte (code : Nat) : Text :=
  [Nat.digitChar (code / 16), Nat.digitChar (code % 16)]

/-- How a character is written inside a string: quotes, backslashes and control
characters are escaped, everything else stands for itself. -/
def escape (character : Char) : Text :=
  if character = '"' then ['\\', '"']
  else if character = '\\' then ['\\', '\\']
  else if character = '\x08' then ['\\', 'b']
  else if character = '\x0c' then ['\\', 'f']
  else if character = '\n' then ['\\', 'n']
  else if character = '\r' then ['\\', 'r']
  else if character = '\t' then ['\\', 't']
  else if character.toNat < 0x20 then '\\' :: 'u' :: '0' :: '0' :: hexByte character.toNat
  else [character]

/-- A string between quotes. -/
def quote (text : Text) : Text :=
  '"' :: (text.flatMap escape ++ ['"'])

/-- The decimal form of a number. -/
def Number.spelling : Number → Text
  | .natural value => Text.ofNatural value
  | .negative magnitude => '-' :: Text.ofNatural magnitude
  | .real value => Decimal.ofFloat value

/-- How a token is written. -/
def Token.spelling : Token → Text
  | .openBrace => ['{']
  | .closeBrace => ['}']
  | .openBracket => ['[']
  | .closeBracket => [']']
  | .comma => [',']
  | .colon => [':']
  | .null => ['n', 'u', 'l', 'l']
  | .bool true => ['t', 'r', 'u', 'e']
  | .bool false => ['f', 'a', 'l', 's', 'e']
  | .number value => value.spelling
  | .string value => quote value

end UtilityClass.Json
