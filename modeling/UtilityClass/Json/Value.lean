import UtilityClass.Json.Token

/-!
# JSON values

The values that are written.  Objects keep their fields in the order given.
Written text has no white space between its tokens.
-/

namespace UtilityClass.Json

/-- A JSON value whose numbers are natural. -/
inductive Value where
  | null
  | bool (value : Bool)
  | natural (value : Nat)
  | string (value : Text)
  | array (items : List Value)
  | object (fields : List (Text × Value))

namespace Value

/-- A string value, or `null`. -/
def optionalString : Option Text → Value
  | none => null
  | some value => string value

/-- A field of an object. -/
def field (name : String) (value : Value) : Text × Value :=
  (name.toList, value)

mutual

/-- The tokens of a value. -/
def tokens : Value → List Token
  | null => [.null]
  | bool value => [.bool value]
  | natural value => [.number (.natural value)]
  | string value => [.string value]
  | array items => .openBracket :: (itemTokens items ++ [.closeBracket])
  | object fields => .openBrace :: (fieldTokens fields ++ [.closeBrace])

/-- The tokens of array items with commas between them. -/
def itemTokens : List Value → List Token
  | [] => []
  | [item] => tokens item
  | item :: next :: items => tokens item ++ .comma :: itemTokens (next :: items)

/-- The tokens of object fields with commas between them. -/
def fieldTokens : List (Text × Value) → List Token
  | [] => []
  | [(name, value)] => .string name :: .colon :: tokens value
  | (name, value) :: next :: fields =>
    .string name :: .colon :: (tokens value ++ .comma :: fieldTokens (next :: fields))

end

/-- Writes a value without white space. -/
def write (value : Value) : Text :=
  value.tokens.flatMap Token.spelling

end Value

end UtilityClass.Json
