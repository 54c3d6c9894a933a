import UtilityClass.Text.Basic

/-!
# Bracket text

Inside `[` and `]` a value is written without spaces: an underscore stands for
a space, `\_` for an underscore, and every other backslash pair stays as it is
written.  The part from `url(` to its matching parenthesis is copied untouched.
`decode` reads this form.  `encode` writes it: it leaves backslash pairs and
`url(` parts alone, so it can be applied to anything `decode` answers.
-/

namespace UtilityClass

/-- Where a reading of bracket text stands. -/
inductive BracketState where
  /-- Outside `url(` parts, with no backslash pending. -/
  | plain
  /-- After a backslash whose character has not come yet. -/
  | escape
  /-- Inside a `url(` part with so many parentheses still to be closed.  The
  three letters before its own parenthesis belong to it with none open yet. -/
  | url (opened : Nat)
  deriving DecidableEq

namespace BracketState

/-- Whether `url(` starts with `character` and goes on in `rest`. -/
def startsUrl (character : Char) (rest : Text) : Bool :=
  character == 'u' && ['r', 'l', '('].isPrefixOf rest

/-- The state after `character`, which `rest` follows. -/
def step (state : BracketState) (character : Char) (rest : Text) : BracketState :=
  match state with
  | plain =>
    if character = '\\' then escape
    else if startsUrl character rest then url 0
    else plain
  | escape => plain
  | url opened =>
    if character = '(' then url (opened + 1)
    else if character = ')' then if opened ≤ 1 then plain else url (opened - 1)
    else url opened

/-- The state after a whole text that nothing follows. -/
def after : BracketState → Text → BracketState
  | state, [] => state
  | state, character :: rest => (state.step character rest).after rest

/-- What a character of bracket text stands for.  A backslash stands for
nothing until the character after it is known. -/
def decoded (state : BracketState) (character : Char) : Text :=
  match state with
  | plain =>
    if character = '\\' then []
    else if character = '_' then [' ']
    else [character]
  | escape => if character = '_' then ['_'] else ['\\', character]
  | url _ => [character]

def encoded (state : BracketState) (character : Char) : Text :=
  match state with
  | plain =>
    if character = '_' then ['\\', '_']
    else if character = ' ' then ['_']
    else [character]
  | escape | url _ => [character]

end BracketState

namespace Text

/-- Decodes the rest of a bracket text that has been read up to `state`.  A
backslash at the very end stands for itself. -/
def decodeFrom : BracketState → Text → Text
  | .escape, [] => ['\\']
  | .plain, [] | .url _, [] => []
  | state, character :: rest =>
    state.decoded character ++ decodeFrom (state.step character rest) rest

def decode (text : Text) : Text :=
  decodeFrom .plain text

/-- Encodes the rest of a value that has been written up to `state`. -/
def encodeFrom : BracketState → Text → Text
  | _, [] => []
  | state, character :: rest =>
    state.encoded character ++ encodeFrom (state.step character rest) rest

def encode (text : Text) : Text :=
  encodeFrom .plain text

end Text

end UtilityClass
