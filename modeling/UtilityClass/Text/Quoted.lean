import UtilityClass.Text.Unprintable

/-!
# Quoted text in messages

A message that quotes a text puts it between double quotes, so that it shows
where the text begins and ends and which characters it has: quotes, backslashes
and control characters are escaped, and a character without a form of its own
is written as its code point.
-/

namespace UtilityClass

/-- The lower-case hexadecimal digits of a code point. -/
def codePoint (character : Char) : Text :=
  '\\' :: 'u' :: '{' :: (Nat.toDigits 16 character.toNat ++ ['}'])

def shown (character : Char) : Text :=
  if character = '"' ∨ character = '\\' then ['\\', character]
  else if character = '\n' then ['\\', 'n']
  else if character = '\r' then ['\\', 'r']
  else if character = '\t' then ['\\', 't']
  else if character = '\x00' then ['\\', '0']
  else if character.toNat < 0x20 ∨ isUnprintable character then codePoint character
  else [character]

def Text.quoted (text : Text) : Text :=
  '"' :: (text.flatMap shown ++ ['"'])

end UtilityClass
