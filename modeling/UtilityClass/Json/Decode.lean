import UtilityClass.Json.Fault

/-!
# Interpreting nodes

A decoder goes through a node from left to right and stops at the first thing
that is wrong, be it a break of the text or something of the wrong shape.  A
record is written as an object, whose fields may come in any order but only
once, or as an array of its fields in their order.
-/

namespace UtilityClass.Json

abbrev Decoder (α : Type) := Node → Except Fault α

/-- The fault of a container whose parts are all used, unless it is closed. -/
def Ending.check : Ending → Except Fault Unit
  | .closed => .ok ()
  | .unclosed cause | .keyless cause => .error (.broken cause)

namespace Decoder

variable {α Draft : Type}

def text : Decoder Text
  | .string value => .ok value
  | node => .error (node.unlike "a string")

def bool : Decoder Bool
  | .bool value => .ok value
  | node => .error (node.unlike "a boolean")

/-- A natural number below `2 ^ 64`, or `null` for none. -/
def optionalNatural (wanted : String) : Decoder (Option Nat)
  | .null => .ok none
  | .number (.natural value) => .ok (some value)
  | .number (.negative magnitude) => .error (.mismatch (.negative magnitude wanted))
  | node => .error (node.unlike wanted)

def items (item : Decoder α) : List Node → Except Fault (List α)
  | [] => .ok []
  | node :: nodes => do
    let value ← item node
    let values ← items item nodes
    return value :: values

def list (item : Decoder α) : Decoder (List α)
  | .array nodes ending => do
    let values ← items item nodes
    ending.check
    return values
  | node => .error (node.unlike "a sequence")

/-- One of a few names, given by a string or by an object that maps the string
to `null`. -/
def name (named : Text → Option α) (known : List String) : Decoder α
  | .string value => choose value
  | .object ((key, content) :: more) ending => do
    let chosen ← choose key
    match content with
    | .null => pure ()
    | other => throw (other.unlike "unit")
    match more, ending with
    | [], .closed => return chosen
    | [], .unclosed cause => throw (.broken cause)
    | _, _ => throw (.broken .malformed)
  | .object [] (.keyless cause) | .missing cause => .error (.broken cause)
  | _ => .error (.broken .malformed)
where
  choose (value : Text) : Except Fault α :=
    match named value with
    | some chosen => .ok chosen
    | none => .error (.mismatch (.unknownName value known))

/-- A field of a record that is being put together in a draft. -/
structure Field (Draft : Type) where
  name : String
  /-- Whether the draft has the field already. -/
  isSet : Draft → Bool
  /-- Interprets the field's value and puts it into the draft. -/
  fill : Node → Draft → Except Fault Draft

/-- The shape of a record: its description, its fields in order, and what
becomes of a draft in the end.  A draft that lacks a needed field yields the
field's name instead. -/
structure Shape (Draft α : Type) where
  wanted : String
  fields : List (Field Draft)
  finish : Draft → Except String α

def member (fields : List (Field Draft)) (draft : Draft) (key : Text) (content : Node) :
    Except Fault Draft :=
  match fields.find? (·.name.toList = key) with
  | none => .error (.mismatch (.unknownField key (fields.map (·.name))))
  | some field =>
    if field.isSet draft then .error (.mismatch (.duplicateField field.name))
    else field.fill content draft

def members (fields : List (Field Draft)) : Draft → List (Text × Node) → Except Fault Draft
  | draft, [] => .ok draft
  | draft, (key, content) :: pairs => do
    let next ← member fields draft key content
    members fields next pairs

/-- Takes in array items as the fields in their order.  Items beyond the last
field are a break of the text. -/
def elements : List (Field Draft) → Draft → List Node → Except Fault Draft
  | _, draft, [] => .ok draft
  | [], _, _ :: _ => .error (.broken .malformed)
  | field :: fields, draft, node :: nodes => do
    let next ← field.fill node draft
    elements fields next nodes

/-- A record, put together from an empty draft. -/
def record (shape : Shape Draft α) (empty : Draft) : Decoder α
  | .object pairs ending => do
    let draft ← members shape.fields empty pairs
    ending.check
    (shape.finish draft).mapError fun field => .mismatch (.missingField field)
  | .array nodes ending => do
    let draft ← elements shape.fields empty nodes
    ending.check
    (shape.finish draft).mapError fun _ =>
      .mismatch (.tooShort nodes.length shape.wanted shape.fields.length)
  | node => .error (node.unlike shape.wanted)

/-- Interprets a whole text, after which only white space may stand. -/
def ofText (decoder : Decoder α) (source : Text) : Except Fault α := do
  let (node, more) := Node.ofText source
  let value ← decoder node
  if more then throw (.broken .malformed)
  return value

end Decoder

end UtilityClass.Json
