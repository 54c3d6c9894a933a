import UtilityClass.Design
import UtilityClass.Text.Root

/-!
# One layer of a variant

A variant token is read from the outside in.  One layer is either a complete
variant or a compound root around a shorter token, which is read next.
-/

namespace UtilityClass

/-- The outermost layer of a variant token. -/
inductive Layer where
  | complete (variant : Variant)
  | wrapping (root : Text) (modifier : Option Modifier) (compounds : Bool) (nested : Text)

namespace Layer

def isAtRule (text : Text) : Bool :=
  text.head? == some '@'

/-- The selector a bracket text stands for.  One that neither is an at-rule nor
says where the element stands applies to the element itself. -/
def selectorOf (raw : Text) : Text :=
  let selector := raw.decode
  if isAtRule selector || selector.contains '&' then selector
  else "&:is(".toList ++ selector ++ [')']

def ofSelector (raw : Text) : Except VariantFault Layer :=
  if isAtRule raw && raw.contains '&' then .error .atRuleWithSelector
  else .ok (.complete (.arbitrary (selectorOf raw) true))

def valueOf (text : Text) : VariantValue :=
  match text.bracketed? with
  | some raw => .arbitrary raw.decode
  | none => .named text

def ofKind (root : Text) (value modifier : Option Text) (compounds : Bool) :
    VariantKind → Except VariantFault Layer
  | .static =>
    if value.isSome then .error .unwantedValue
    else if modifier.isSome then .error .unwantedModifier
    else .ok (.complete (.static root compounds))
  | .functional =>
    match value with
    | none => .error .noValue
    | some value =>
      .ok (.complete
        (.functional root (some (valueOf value)) (modifier.map .ofText) compounds))
  | .compound =>
    match value with
    | none => .error .noNested
    | some nested => .ok (.wrapping root (modifier.map .named) compounds nested)

end Layer

def Design.readLayer (design : Design) (token : Text) : Except VariantFault Layer :=
  match token.bracketed? with
  | some raw => Layer.ofSelector raw
  | none =>
    match Modifier.cut? token with
    | none => .error .manyModifiers
    | some (head, modifier) =>
      match head.longestRoot? design.hasVariant with
      | none => .error .unknown
      | some (root, value) =>
        match design.variantKind root with
        | none => .error .noKind
        | some kind => Layer.ofKind root value modifier (design.variantCompounds root) kind

end UtilityClass
