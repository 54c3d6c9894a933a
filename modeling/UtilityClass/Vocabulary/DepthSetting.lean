import UtilityClass.Text.Natural
import UtilityClass.Vocabulary.Loading

/-!
# The depth setting

The limit on nested compound variants may be set from outside, as text.  The
text is a positive integer below `2 ^ 64` in decimal.  White space around it,
one plus before it and leading zeros are allowed.
-/

namespace UtilityClass.Vocabulary

/-- Reads the digits of a setting behind an optional plus. -/
def settingDigits (text : Text) : Text :=
  (text.withoutFirst '+').getD text

/-- Reads a depth as it is set from outside. -/
def readDepth (raw : Text) : Except LoadError Nat :=
  match (settingDigits raw.trim).natural? with
  | none => .error (.badDepthSetting raw)
  | some depth =>
    if 0 < depth ∧ depth < UInt64.size then .ok depth else .error (.badDepthSetting raw)

/-- The limit that a setting gives, or the default when there is none. -/
def depthOfSetting : Option Text → Except LoadError Nat
  | none => .ok defaultDepth
  | some raw => readDepth raw

/-- A vocabulary without names under the limit that a setting gives. -/
def ofSetting (setting : Option Text) : Except LoadError Vocabulary :=
  (depthOfSetting setting).map fun depth => limitDepth {} depth

end UtilityClass.Vocabulary
