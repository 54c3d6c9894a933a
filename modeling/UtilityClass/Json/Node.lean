import UtilityClass.Json.Lexer

/-!
# JSON texts as far as they can be read

A `Node` is a JSON value, or as much of one as a text holds before it breaks.
What a break means depends on what is expected where it happens, so nodes keep
everything before it, in order, and whoever interprets a node meets its parts
from left to right and the break last.  Containers are read with a stack of the
ones still open, so a reading takes its tokens one by one.
-/

namespace UtilityClass.Json

/-- How the parts of a container end. -/
inductive Ending where
  /-- With its closing mark. -/
  | closed
  /-- With something else where a comma or the closing mark is due. -/
  | unclosed (cause : Break)
  /-- With something that is no string where a key is due. -/
  | keyless (cause : Break)

/-- A JSON value as far as it can be read. -/
inductive Node where
  | null
  | bool (value : Bool)
  | number (value : Number)
  | string (value : Text)
  | array (items : List Node) (ending : Ending)
  | object (members : List (Text × Node)) (ending : Ending)
  /-- A number or a literal that breaks off. -/
  | brokenScalar (cause : Break)
  /-- Nothing that begins a value, or a string that cannot be read. -/
  | missing (cause : Break)

/-- The node where a value is due and the tokens have ended. -/
def Stop.node : Stop → Node
  | .finished => .missing .truncated
  | .brokenScalar cause => .brokenScalar cause
  | .broken cause => .missing cause

/-- The break where punctuation is due and the tokens have ended. -/
def Stop.punctuation : Stop → Break
  | .finished => .truncated
  | .brokenScalar _ | .broken _ => .malformed

/-- The break where a key is due and the tokens have ended.  A number or a literal
is no key, wherever it breaks off. -/
def Stop.key : Stop → Break
  | .finished => .truncated
  | .brokenScalar _ => .malformed
  | .broken cause => cause

namespace Node

/-- A container that is still open. -/
inductive Frame where
  /-- An array and the items before the one being read, latest first. -/
  | items (before : List Node)
  /-- An object, the members before the one being read, latest first, and the
  key of the one being read. -/
  | members (before : List (Text × Node)) (key : Text)

/-- Puts a broken node into the containers that are open around it. -/
def abandon : List Frame → Node → Node
  | [], node => node
  | .items before :: outer, node =>
    abandon outer (.array (node :: before).reverse (.unclosed .malformed))
  | .members before key :: outer, node =>
    abandon outer (.object ((key, node) :: before).reverse (.unclosed .malformed))

mutual

/-- Reads a value inside the containers of the stack. -/
def readValue (stop : Stop) (stack : List Frame) : List Token → Node × List Token
  | [] => (abandon stack stop.node, [])
  | .null :: rest => readAfter stop stack .null rest
  | .bool value :: rest => readAfter stop stack (.bool value) rest
  | .number value :: rest => readAfter stop stack (.number value) rest
  | .string value :: rest => readAfter stop stack (.string value) rest
  | .openBracket :: .closeBracket :: rest => readAfter stop stack (.array [] .closed) rest
  | .openBracket :: rest => readValue stop (.items [] :: stack) rest
  | .openBrace :: .closeBrace :: rest => readAfter stop stack (.object [] .closed) rest
  | .openBrace :: rest => readKey stop stack [] rest
  | .closeBracket :: rest | .closeBrace :: rest | .comma :: rest | .colon :: rest =>
    (abandon stack (.missing .malformed), rest)

/-- Reads on after a value inside the containers of the stack. -/
def readAfter (stop : Stop) : List Frame → Node → List Token → Node × List Token
  | [], node, rest => (node, rest)
  | .items before :: outer, node, .comma :: rest =>
    readValue stop (.items (node :: before) :: outer) rest
  | .items before :: outer, node, .closeBracket :: rest =>
    readAfter stop outer (.array (node :: before).reverse .closed) rest
  | .items before :: outer, node, [] =>
    (abandon outer (.array (node :: before).reverse (.unclosed stop.punctuation)), [])
  | .items before :: outer, node, _ :: rest =>
    (abandon outer (.array (node :: before).reverse (.unclosed .malformed)), rest)
  | .members before key :: outer, node, .comma :: rest =>
    readKey stop outer ((key, node) :: before) rest
  | .members before key :: outer, node, .closeBrace :: rest =>
    readAfter stop outer (.object ((key, node) :: before).reverse .closed) rest
  | .members before key :: outer, node, [] =>
    (abandon outer (.object ((key, node) :: before).reverse (.unclosed stop.punctuation)), [])
  | .members before key :: outer, node, _ :: rest =>
    (abandon outer (.object ((key, node) :: before).reverse (.unclosed .malformed)), rest)

/-- Reads the key of a member and the colon after it. -/
def readKey (stop : Stop) (stack : List Frame) (before : List (Text × Node)) :
    List Token → Node × List Token
  | [] => (abandon stack (.object before.reverse (.keyless stop.key)), [])
  | .string key :: .colon :: rest => readValue stop (.members before key :: stack) rest
  | .string key :: [] =>
    (abandon (.members before key :: stack) (.missing stop.punctuation), [])
  | .string key :: _ :: rest =>
    (abandon (.members before key :: stack) (.missing .malformed), rest)
  | _ :: rest => (abandon stack (.object before.reverse (.keyless .malformed)), rest)

end

/-- The value a text starts with, and whether anything but white space follows. -/
def ofText (text : Text) : Node × Bool :=
  let (tokens, stop) := lex text
  let (node, rest) := readValue stop [] tokens
  match rest, stop with
  | [], .finished => (node, false)
  | _, _ => (node, true)

end Node

end UtilityClass.Json
