import UtilityClass.Candidate.Base
import UtilityClass.Variant.Reading

/-!
# Reading candidates

A candidate is cut at its top-level colons.  The last piece is the base.  The
others are variants, read from the base outward, and the first one that is
invalid ends the reading.
-/

namespace UtilityClass.Design

/-- Reads variants one after the other, up to the first invalid one. -/
def readVariants (design : Design) : List Text → Traced (List Variant)
  | [] => .accept []
  | token :: tokens =>
    (design.readVariant token).andThen fun variant =>
      (design.readVariants tokens).andThen fun variants => .accept (variant :: variants)

def readCandidate (design : Design) (input : Text) : Traced Candidate :=
  let pieces := input.pieces ':'
  let base := Markers.ofBase (pieces.getLastD [])
  ((design.readVariants pieces.dropLast.reverse).orRecord
      (.candidate input .invalidVariant)).andThen fun variants =>
    (Traced.ofExcept (.candidate input)
        (design.readUtility base.core base.negative)).andThen fun utility =>
      .accept ⟨utility, variants, base.important⟩

end UtilityClass.Design
