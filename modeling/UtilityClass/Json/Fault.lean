import UtilityClass.Json.Node
import UtilityClass.Text.Quoted

/-!
# Faults of a JSON document

A document fails when its text breaks, or when it is JSON so far but not of the
shape that is wanted.  The second kind says what was found and what was wanted.
-/

namespace UtilityClass.Json

/-- What stands where something else is wanted. -/
inductive Found where
  | null
  | bool (value : Bool)
  | number (value : Number)
  | string (value : Text)
  | sequence
  | map

/-- How JSON of the wrong shape differs from what is wanted. -/
inductive Mismatch where
  | wrongType (found : Found) (wanted : String)
  /-- An integer below zero. -/
  | negative (magnitude : Nat) (wanted : String)
  | unknownField (name : Text) (known : List String)
  | duplicateField (name : String)
  | missingField (name : String)
  | unknownName (name : Text) (known : List String)
  /-- A record written as an array that ends before a field it needs. -/
  | tooShort (length : Nat) (wanted : String) (fields : Nat)

/-- Why a document cannot be interpreted. -/
inductive Fault where
  | broken (cause : Break)
  | mismatch (mismatch : Mismatch)

namespace Found

def marked (text : Text) : Text := '\x60' :: (text ++ ['\x60'])

def message : Found → Text
  | null => "null".toList
  | bool value => "boolean ".toList ++ marked (Token.bool value).spelling
  | number (.real value) => "floating point ".toList ++ marked (Number.real value).spelling
  | number value => "integer ".toList ++ marked value.spelling
  | string value => "string ".toList ++ value.quoted
  | sequence => "sequence".toList
  | map => "map".toList

end Found

namespace Mismatch

/-- Names between commas, each marked. -/
def listed (names : List String) : Text :=
  [',', ' '].intercalate (names.map fun name => Found.marked name.toList)

/-- The names that would have been accepted: two are joined by a word, more are
listed. -/
def expected : List String → Text
  | [first, second] =>
    "expected ".toList ++ Found.marked first.toList ++ " or ".toList ++
      Found.marked second.toList
  | names => "expected one of ".toList ++ listed names

def message : Mismatch → Text
  | wrongType found wanted =>
    "invalid type: ".toList ++ found.message ++ ", expected ".toList ++ wanted.toList
  | negative magnitude wanted =>
    "invalid value: ".toList ++ (Found.number (.negative magnitude)).message ++
      ", expected ".toList ++ wanted.toList
  | unknownField name known =>
    "unknown field ".toList ++ Found.marked name ++ [',', ' '] ++ expected known
  | duplicateField name => "duplicate field ".toList ++ Found.marked name.toList
  | missingField name => "missing field ".toList ++ Found.marked name.toList
  | unknownName name known =>
    "unknown variant ".toList ++ Found.marked name ++ [',', ' '] ++ expected known
  | tooShort length wanted fields =>
    "invalid length ".toList ++ Text.ofNatural length ++ ", expected ".toList ++
      wanted.toList ++ " with ".toList ++ Text.ofNatural fields ++ " elements".toList

end Mismatch

/-- What a node is, to someone who wanted something else. -/
def Node.found : Node → Except Break Found
  | null => .ok .null
  | bool value => .ok (.bool value)
  | number value => .ok (.number value)
  | string value => .ok (.string value)
  | array _ _ => .ok .sequence
  | object _ _ => .ok .map
  | brokenScalar cause | missing cause => .error cause

/-- The fault of a node that is not what is wanted. -/
def Node.unlike (node : Node) (wanted : String) : Fault :=
  match node.found with
  | .ok found => .mismatch (.wrongType found wanted)
  | .error cause => .broken cause

end UtilityClass.Json
