import UtilityClass.Text.Basic

/-!
# Nesting of brackets and quotes

A class name is read from left to right.  `Nesting` is all that the part read
so far can still demand of the rest: the closers of the open contexts and a
backslash whose character has not come yet.  Nothing a text can hold is an
error here: a closer that fits no open context, or not the innermost one, is
an ordinary character, and a context that is never closed stays open.
-/

namespace UtilityClass

/-- What a reading still owes: the closers of its open contexts, innermost
first, and whether a backslash waits for the character it escapes. -/
structure Nesting where
  closers : Text := []
  escaped : Bool := false
  deriving DecidableEq

namespace Nesting

/-- The state before any character: no open context, no pending backslash. -/
def outside : Nesting := {}

/-- Quotes close themselves and hide everything but backslashes. -/
def isQuote (character : Char) : Bool :=
  character == '\'' || character == '"'

/-- The character that closes the context `character` opens, if it opens one. -/
def closerOf? (character : Char) : Option Char :=
  if character = '(' then some ')'
  else if character = '[' then some ']'
  else if character = '{' then some '}'
  else if isQuote character then some character
  else none

/-- Reads one character that no backslash escapes and that is no backslash. -/
def stepPlain (closers : Text) (character : Char) : Text :=
  match closers with
  | [] => (closerOf? character).toList
  | closer :: outer =>
    if character = closer then outer
    else if isQuote closer then closers
    else (closerOf? character).toList ++ closers

/-- Reads one character.  An escaped character has no effect of its own. -/
def step (nesting : Nesting) (character : Char) : Nesting :=
  if nesting.escaped then { nesting with escaped := false }
  else if character = '\\' then { nesting with escaped := true }
  else { nesting with closers := stepPlain nesting.closers character }

def after (nesting : Nesting) (text : Text) : Nesting :=
  text.foldl step nesting

@[simp] theorem after_nil (nesting : Nesting) : nesting.after [] = nesting := rfl

@[simp] theorem after_cons (nesting : Nesting) (character : Char) (text : Text) :
    nesting.after (character :: text) = (nesting.step character).after text := rfl

@[simp] theorem after_append (nesting : Nesting) (first second : Text) :
    nesting.after (first ++ second) = (nesting.after first).after second :=
  List.foldl_append

theorem escaped_step {nesting : Nesting} {character : Char} :
    (nesting.step character).escaped = (!nesting.escaped && character == '\\') := by
  unfold step
  cases nesting.escaped with
  | true => rfl
  | false =>
      by_cases backslash : character = '\\'
      · simp [backslash]
      · simp [backslash]

end Nesting

end UtilityClass
