import UtilityClass.Text.Bracket
import UtilityClass.Text.Pieces

/-!
# Arbitrary text and modifiers

A value written in brackets is decoded, except for a custom property such as
`--brand`: it is wrapped in `var(...)`, and its name is kept beside it for uses
that take the name itself.  A modifier is the text after a slash, in brackets
or not.
-/

namespace UtilityClass

/-- What the brackets around a value hold. -/
structure ArbitraryText where
  value : Text
  /-- The name of a custom property, when the value is one. -/
  dashedIdent : Option Text
  deriving DecidableEq

namespace ArbitraryText

/-- Whether bracket text names a custom property. -/
def isCustomProperty (raw : Text) : Bool :=
  ['-', '-'].isPrefixOf raw

def ofRaw (raw : Text) : ArbitraryText :=
  if isCustomProperty raw then ⟨['v', 'a', 'r', '('] ++ raw ++ [')'], some raw⟩
  else ⟨raw.decode, none⟩

end ArbitraryText

/-- The text after a slash, as in `bg-red-500/50`. -/
inductive Modifier where
  | named (value : Text)
  | arbitrary (content : ArbitraryText)
  deriving DecidableEq

namespace Modifier

/-- Cuts a token at its top-level slash into the part before it and the text of
the modifier, if there is a slash.  A token with more of them has no cut. -/
def cut? (token : Text) : Option (Text × Option Text) :=
  match token.pieces '/' with
  | [head] => some (head, none)
  | [head, modifier] => some (head, some modifier)
  | _ => none

def ofText (text : Text) : Modifier :=
  match text.bracketed? with
  | some raw => .arbitrary (.ofRaw raw)
  | none => .named text

def value : Modifier → Text
  | named value => value
  | arbitrary content => content.value

def isArbitrary : Modifier → Bool
  | named _ => false
  | arbitrary _ => true

end Modifier

end UtilityClass
