import UtilityClass.Text.Basic

/-!
# Rejections

A token that is not accepted leaves a record of the first check it failed.
When a variant inside another is at fault, its record comes before the records
of those around it.  `Traced` is a result together with the records made on the
way to it.
-/

namespace UtilityClass

inductive VariantFault where
  | tooDeep
  | atRuleWithSelector
  | manyModifiers
  | unknown
  | noKind
  | unwantedValue
  | unwantedModifier
  | noValue
  | noNested
  | nestedInvalid
  | nestedNotCompounding
  deriving DecidableEq

inductive CandidateFault where
  | invalidVariant
  | manyModifiers
  | noRoot
  | unknownUtility
  | emptyValue
  | unclosedProperty
  | badPropertyStart
  | noPropertyValue
  | unclosedValue
  deriving DecidableEq

def VariantFault.message : VariantFault → String
  | tooDeep => "compound variants nested too deeply"
  | atRuleWithSelector => "arbitrary at-rule variant mixed with a selector"
  | manyModifiers => "more than one modifier"
  | unknown => "unknown variant"
  | noKind => "variant has no registered kind"
  | unwantedValue => "static variant given a value"
  | unwantedModifier => "static variant given a modifier"
  | noValue => "functional variant without a value"
  | noNested => "compound variant without a nested variant"
  | nestedInvalid => "nested variant is invalid"
  | nestedNotCompounding => "nested variant does not compound"

def CandidateFault.message : CandidateFault → String
  | invalidVariant => "invalid variant"
  | manyModifiers => "more than one modifier"
  | noRoot => "arbitrary value without a root"
  | unknownUtility => "unknown utility"
  | emptyValue => "empty value"
  | unclosedProperty => "arbitrary property is not closed"
  | badPropertyStart => "arbitrary property has an invalid first character"
  | noPropertyValue => "arbitrary property without a value"
  | unclosedValue => "arbitrary value is not closed"

/-- The record of a token that was not accepted. -/
inductive Rejection where
  | variant (token : Text) (fault : VariantFault)
  | candidate (input : Text) (fault : CandidateFault)
  deriving DecidableEq

def Rejection.token : Rejection → Text
  | variant token _ => token
  | candidate input _ => input

/-- A result, if there is one, and the records made on the way, in order. -/
structure Traced (α : Type) where
  result : Option α
  records : List Rejection
  deriving DecidableEq

namespace Traced

variable {α β : Type}

def accept (value : α) : Traced α := ⟨some value, []⟩

/-- No result, for the reason recorded. -/
def reject (record : Rejection) : Traced α := ⟨none, [record]⟩

/-- Goes on with a result.  Without one, or if going on fails too, the records
add up. -/
def andThen (first : Traced α) (next : α → Traced β) : Traced β :=
  match first.result with
  | none => ⟨none, first.records⟩
  | some value => ⟨(next value).result, first.records ++ (next value).records⟩

/-- Adds a record at the end when there is no result. -/
def orRecord (first : Traced α) (record : Rejection) : Traced α :=
  match first.result with
  | none => ⟨none, first.records ++ [record]⟩
  | some _ => first

/-- A check that either fails with a record or goes through without one. -/
def ofExcept {ε : Type} (record : ε → Rejection) : Except ε α → Traced α
  | .error fault => reject (record fault)
  | .ok value => accept value

@[simp] theorem accept_result (value : α) : (accept value).result = some value := rfl

@[simp] theorem reject_result (record : Rejection) :
    (reject record : Traced α).result = none := rfl

@[simp] theorem orRecord_result (first : Traced α) (record : Rejection) :
    (first.orRecord record).result = first.result := by
  unfold orRecord
  cases found : first.result with
  | none => rfl
  | some value => exact found

theorem andThen_result_eq_some_iff {first : Traced α} {next : α → Traced β} {value : β} :
    (first.andThen next).result = some value ↔
      ∃ middle, first.result = some middle ∧ (next middle).result = some value := by
  unfold andThen
  cases found : first.result with
  | none => simp
  | some middle => simp

theorem ofExcept_result_eq_some_iff {ε : Type} {record : ε → Rejection}
    {checked : Except ε α} {value : α} :
    (ofExcept record checked).result = some value ↔ checked = .ok value := by
  cases checked with
  | error fault => simp [ofExcept]
  | ok found => simp [ofExcept]

end Traced

end UtilityClass
