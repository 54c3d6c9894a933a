import UtilityClass.Candidate.Json
import UtilityClass.Proofs.Json.Alike

/-!
# Candidates are told apart by their JSON

Every value of the data model names its kind, and values of one kind are
written with the same fields.  So two of them become the same JSON only if they
are of one kind and agree field by field, down to the innermost variant.
-/

namespace UtilityClass

open Json (Value)
open Json.Value (Alike Faithful)

section Tagged

variable {kind otherKind : String} {fields others : List (Text × Value)}

theorem tagged_ne_null : tagged kind fields ≠ .null := nofun

theorem kind_eq_of_alike (alike : (tagged kind fields).Alike (tagged otherKind others)) :
    kind = otherKind := by
  have here := Alike.object_iff.mp alike "kind".toList
  simp only [Value.field, List.lookup_cons_self] at here
  cases here with
  | some same => exact String.toList_injective (Alike.string_iff.mp same)

theorem fieldwise_of_alike (alike : (tagged kind fields).Alike (tagged kind others))
    (sameNames : fields.map Prod.fst = others.map Prod.fst)
    (distinct : ("kind".toList :: fields.map Prod.fst).Nodup) :
    List.Forall₂ (fun field other => field.2.Alike other.2) fields others := by
  have all := Alike.fieldwise alike (congrArg (_ :: ·) sameNames) distinct
  exact (List.forall₂_cons.mp all).2

/-- An absent value is told from every other as long as none of these is `null`. -/
theorem faithful_optionalJson {α : Type} {write : α → Value} (faithful : Faithful write)
    (notNull : ∀ value, write value ≠ .null) : Faithful (optionalJson write) := by
  intro first second
  cases first with
  | none => cases second <;> simp [optionalJson, notNull]
  | some value => cases second <;> simp [optionalJson, notNull, faithful _ _]

end Tagged

theorem Modifier.faithful_toJson : Faithful Modifier.toJson := by
  apply Faithful.of_alike
  intro first second alike
  cases first with
  | named value =>
      cases second with
      | named other =>
          have same := fieldwise_of_alike alike rfl (by simp [Value.field])
          simpa [Value.field] using same
      | _ => exact absurd (kind_eq_of_alike alike) (by simp)
  | arbitrary content =>
      cases second with
      | arbitrary other =>
          obtain ⟨value, dashedIdent⟩ := content
          obtain ⟨otherValue, otherIdent⟩ := other
          have same := fieldwise_of_alike alike rfl (by simp [Value.field])
          simpa [Value.field, Faithful.optionalString _ _] using same
      | _ => exact absurd (kind_eq_of_alike alike) (by simp)

theorem UtilityValue.faithful_toJson : Faithful UtilityValue.toJson := by
  apply Faithful.of_alike
  intro first second alike
  cases first with
  | named value fraction =>
      cases second with
      | named otherValue otherFraction =>
          have same := fieldwise_of_alike alike rfl (by simp [Value.field])
          simpa [Value.field, Faithful.optionalString _ _] using same
      | _ => exact absurd (kind_eq_of_alike alike) (by simp)
  | arbitrary dataType content =>
      cases second with
      | arbitrary otherType other =>
          obtain ⟨value, dashedIdent⟩ := content
          obtain ⟨otherValue, otherIdent⟩ := other
          have same := fieldwise_of_alike alike rfl (by simp [Value.field])
          simpa [Value.field, Faithful.optionalString _ _] using same
      | _ => exact absurd (kind_eq_of_alike alike) (by simp)

theorem VariantValue.faithful_toJson : Faithful VariantValue.toJson := by
  apply Faithful.of_alike
  intro first second alike
  cases first with
  | named value =>
      cases second with
      | named other =>
          have same := fieldwise_of_alike alike rfl (by simp [Value.field])
          simpa [Value.field] using same
      | _ => exact absurd (kind_eq_of_alike alike) (by simp)
  | arbitrary value =>
      cases second with
      | arbitrary other =>
          have same := fieldwise_of_alike alike rfl (by simp [Value.field])
          simpa [Value.field] using same
      | _ => exact absurd (kind_eq_of_alike alike) (by simp)

theorem Modifier.faithful_optional : Faithful (optionalJson Modifier.toJson) := by
  apply faithful_optionalJson Modifier.faithful_toJson
  intro modifier
  cases modifier <;> exact tagged_ne_null

theorem UtilityValue.faithful_optional : Faithful (optionalJson UtilityValue.toJson) := by
  apply faithful_optionalJson UtilityValue.faithful_toJson
  intro value
  cases value <;> exact tagged_ne_null

theorem VariantValue.faithful_optional : Faithful (optionalJson VariantValue.toJson) := by
  apply faithful_optionalJson VariantValue.faithful_toJson
  intro value
  cases value <;> exact tagged_ne_null

theorem Variant.faithful_toJson : Faithful Variant.toJson := by
  apply Faithful.of_alike
  intro first
  induction first with
  | arbitrary selector compounds =>
      intro second alike
      cases second with
      | arbitrary otherSelector otherCompounds =>
          have same := fieldwise_of_alike alike rfl (by simp [Value.field])
          simpa [Value.field] using same
      | _ => exact absurd (kind_eq_of_alike alike) (by simp)
  | static root compounds =>
      intro second alike
      cases second with
      | static otherRoot otherCompounds =>
          have same := fieldwise_of_alike alike rfl (by simp [Value.field])
          simpa [Value.field] using same
      | _ => exact absurd (kind_eq_of_alike alike) (by simp)
  | functional root value modifier compounds =>
      intro second alike
      cases second with
      | functional otherRoot otherValue otherModifier otherCompounds =>
          have same := fieldwise_of_alike alike rfl (by simp [Value.field])
          simpa [Value.field, VariantValue.faithful_optional _ _,
            Modifier.faithful_optional _ _] using same
      | _ => exact absurd (kind_eq_of_alike alike) (by simp)
  | compound root modifier inner compounds induction =>
      intro second alike
      cases second with
      | compound otherRoot otherModifier other otherCompounds =>
          have same := fieldwise_of_alike alike rfl (by simp [Value.field])
          simp only [Value.field, List.forall₂_cons] at same
          obtain ⟨roots, modifiers, inners, flags, _⟩ := same
          rw [Alike.string_iff.mp roots, (Modifier.faithful_optional _ _).mp modifiers,
            induction other inners, Alike.bool_iff.mp flags]
      | _ => exact absurd (kind_eq_of_alike alike) (by simp)

theorem Candidate.faithful_toJson : Faithful Candidate.toJson := by
  have variants := Variant.faithful_toJson.list
  apply Faithful.of_alike
  intro first second alike
  obtain ⟨utility, chain, important⟩ := first
  obtain ⟨otherUtility, otherChain, otherImportant⟩ := second
  cases utility with
  | property name value modifier =>
      cases otherUtility with
      | property otherName otherValue otherModifier =>
          have same := fieldwise_of_alike alike rfl (by simp [Value.field])
          obtain ⟨rfl, rfl, rfl, rfl, rfl⟩ : name = otherName ∧ value = otherValue ∧
              modifier = otherModifier ∧ chain = otherChain ∧ important = otherImportant := by
            simpa [Value.field, Modifier.faithful_optional _ _, variants _ _] using same
          rfl
      | _ => exact absurd (kind_eq_of_alike alike) (by simp)
  | static root negative =>
      cases otherUtility with
      | static otherRoot otherNegative =>
          have same := fieldwise_of_alike alike rfl (by simp [Value.field])
          obtain ⟨rfl, rfl, rfl, rfl⟩ : root = otherRoot ∧ chain = otherChain ∧
              negative = otherNegative ∧ important = otherImportant := by
            simpa [Value.field, variants _ _] using same
          rfl
      | _ => exact absurd (kind_eq_of_alike alike) (by simp)
  | functional root value modifier negative =>
      cases otherUtility with
      | functional otherRoot otherValue otherModifier otherNegative =>
          have same := fieldwise_of_alike alike rfl (by simp [Value.field])
          obtain ⟨rfl, rfl, rfl, rfl, rfl, rfl⟩ : root = otherRoot ∧ value = otherValue ∧
              modifier = otherModifier ∧ chain = otherChain ∧ negative = otherNegative ∧
                important = otherImportant := by
            simpa [Value.field, UtilityValue.faithful_optional _ _,
              Modifier.faithful_optional _ _, variants _ _] using same
          rfl
      | _ => exact absurd (kind_eq_of_alike alike) (by simp)

/-- Two candidates become the same JSON only if they are equal, and so do their
parts: variants, values and modifiers. -/
theorem data_model_is_told_apart_by_json :
    (∀ first second : Candidate, first.toJson.Alike second.toJson ↔ first = second) ∧
      (∀ first second : Variant, first.toJson.Alike second.toJson ↔ first = second) ∧
      (∀ first second : UtilityValue, first.toJson.Alike second.toJson ↔ first = second) ∧
      (∀ first second : VariantValue, first.toJson.Alike second.toJson ↔ first = second) ∧
      ∀ first second : Modifier, first.toJson.Alike second.toJson ↔ first = second :=
  ⟨Candidate.faithful_toJson, Variant.faithful_toJson, UtilityValue.faithful_toJson,
    VariantValue.faithful_toJson, Modifier.faithful_toJson⟩

end UtilityClass
