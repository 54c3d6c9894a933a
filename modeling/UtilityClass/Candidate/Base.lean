import UtilityClass.Variant.Layer

/-!
# The base of a candidate

The base is what follows the variants, as in `-bg-red-500/50!`.  Its markers
are an exclamation mark at its end or else at its start, and then a minus.
What remains is a registered static utility, a property in brackets, or a
functional utility with its value.
-/

namespace UtilityClass

/-- The base of a candidate without its markers. -/
structure Markers where
  core : Text
  important : Bool
  negative : Bool
  deriving DecidableEq

namespace Markers

/-- Takes off one exclamation mark, at the end if there is one there. -/
def takeImportant (base : Text) : Text × Bool :=
  match base.withoutFinal '!' with
  | some rest => (rest, true)
  | none =>
    match base.withoutFirst '!' with
    | some rest => (rest, true)
    | none => (base, false)

def takeNegative (base : Text) : Text × Bool :=
  match base.withoutFirst '-' with
  | some rest => (rest, true)
  | none => (base, false)

def ofBase (base : Text) : Markers :=
  let (unmarked, important) := takeImportant base
  let (core, negative) := takeNegative unmarked
  ⟨core, important, negative⟩

end Markers

namespace Utility

/-- A lower-case ASCII letter or a dash.  Type hints consist of these, and a
property starts with one: the dash is that of a vendor's name. -/
def isNameCharacter (character : Char) : Bool :=
  character == '-' || ('a' ≤ character && character ≤ 'z')

def ofProperty (rest : Text) (modifier : Option Modifier) : Except CandidateFault Utility :=
  match rest.withoutFinal ']' with
  | none => .error .unclosedProperty
  | some inner =>
    if inner.head?.any isNameCharacter then
      match inner.cutAtFirst ':' with
      | none => .error .noPropertyValue
      | some (name, raw) =>
        if raw = [] then .error .noPropertyValue
        else .ok (.property name raw.decode modifier)
    else .error .badPropertyStart

/-- The text after the first `[` that no backslash escapes. -/
def afterBracket? : Text → Option Text
  | [] => none
  | ['\\'] => none
  | '\\' :: _ :: rest => afterBracket? rest
  | character :: rest => if character = '[' then some rest else afterBracket? rest

/-- Takes the type hint off a bracket text: the letters and dashes before a
colon.  A colon with none before it is taken off as well. -/
def takeHint (raw : Text) : Option Text × Text :=
  let hint := raw.takeWhile isNameCharacter
  match raw.dropWhile isNameCharacter with
  | ':' :: rest => (if hint = [] then none else some hint, rest)
  | _ => (none, raw)

/-- The reading of a bare value as a fraction. -/
def fraction? (value : Text) : Option Modifier → Option Text
  | some (.named modifier) => some (value.afterLast '-' ++ '/' :: modifier)
  | some (.arbitrary _) | none => none

def readValue (value : Text) (modifier : Option Modifier) : Except CandidateFault UtilityValue :=
  match afterBracket? value with
  | none => .ok (.named value (fraction? value modifier))
  | some opened =>
    match opened.withoutFinal ']' with
    | none => .error .unclosedValue
    | some inner =>
      let (hint, raw) := takeHint inner
      .ok (.arbitrary hint (.ofRaw raw))

/-- The parts around the last dash that an opening bracket follows.  The bracket
goes to the second part. -/
def cutAtBracket : Text → Option (Text × Text)
  | [] => none
  | character :: rest =>
    match cutAtBracket rest with
    | some (root, value) => some (character :: root, value)
    | none =>
      if character = '-' ∧ rest.head? = some '[' then some ([], rest) else none

end Utility

namespace Design

/-- Finds the root of a functional utility and the value after it.  Before a
value in brackets the root is all that precedes it. -/
def functionalRoot (design : Design) (head : Text) :
    Except CandidateFault (Text × Option Text) :=
  let known := design.hasUtility .functional
  if head.getLast? = some ']' then
    match Utility.cutAtBracket head with
    | none => .error .noRoot
    | some (root, value) => if known root then .ok (root, some value) else .error .unknownUtility
  else
    match head.longestRoot? known with
    | none => .error .unknownUtility
    | some found => .ok found

def readFunctional (design : Design) (head : Text) (modifier : Option Modifier)
    (negative : Bool) : Except CandidateFault Utility := do
  let (root, value) ← design.functionalRoot head
  match value with
  | none => return .functional root none modifier negative
  | some [] => throw .emptyValue
  | some value => return .functional root (← Utility.readValue value modifier) modifier negative

/-- Reads the base of a candidate without its markers. -/
def readUtility (design : Design) (core : Text) (negative : Bool) :
    Except CandidateFault Utility :=
  if design.hasUtility .static core && !core.contains '[' then .ok (.static core negative)
  else
    match Modifier.cut? core with
    | none => .error .manyModifiers
    | some (head, tail) =>
      let modifier := tail.map Modifier.ofText
      match head.withoutFirst '[' with
      | some rest => Utility.ofProperty rest modifier
      | none => design.readFunctional head modifier negative

end Design

end UtilityClass
