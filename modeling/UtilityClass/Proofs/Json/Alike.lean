import Mathlib.Data.List.Forall2
import UtilityClass.Json.Value

/-!
# Equality of JSON values

The order of the fields of an object carries no meaning, so two values can be
the same JSON without being listed alike.  A function that writes values is
faithful when only equal values become the same JSON.
-/

namespace UtilityClass.Json.Value

/-- Equality of JSON values.  Objects are equal when they have equal values
under each name, in whatever order their fields stand. -/
inductive Alike : Value → Value → Prop where
  | null : Alike .null .null
  | bool (value : Bool) : Alike (.bool value) (.bool value)
  | natural (value : Nat) : Alike (.natural value) (.natural value)
  | string (value : Text) : Alike (.string value) (.string value)
  | array {items others : List Value} (each : List.Forall₂ Alike items others) :
      Alike (.array items) (.array others)
  | object {fields others : List (Text × Value)}
      (each : ∀ name, Option.Rel Alike (fields.lookup name) (others.lookup name)) :
      Alike (.object fields) (.object others)

namespace Alike

@[simp] theorem null_left_iff {value : Value} : Value.null.Alike value ↔ value = .null := by
  constructor
  · rintro ⟨⟩
    rfl
  · rintro rfl
    exact .null

@[simp] theorem null_right_iff {value : Value} : value.Alike .null ↔ value = .null := by
  constructor
  · rintro ⟨⟩
    rfl
  · rintro rfl
    exact .null

@[simp] theorem bool_iff {first second : Bool} :
    (Value.bool first).Alike (.bool second) ↔ first = second := by
  constructor
  · rintro ⟨⟩
    rfl
  · rintro rfl
    exact .bool first

@[simp] theorem string_iff {first second : Text} :
    (Value.string first).Alike (.string second) ↔ first = second := by
  constructor
  · rintro ⟨⟩
    rfl
  · rintro rfl
    exact .string first

theorem array_iff {items others : List Value} :
    (Value.array items).Alike (.array others) ↔ List.Forall₂ Alike items others := by
  constructor
  · rintro ⟨⟩
    assumption
  · exact .array

theorem object_iff {fields others : List (Text × Value)} :
    (Value.object fields).Alike (.object others) ↔
      ∀ name, Option.Rel Alike (fields.lookup name) (others.lookup name) := by
  constructor
  · rintro ⟨⟩
    assumption
  · exact .object

mutual

theorem refl (value : Value) : value.Alike value := by
  match value with
  | .null => exact .null
  | .bool value => exact .bool value
  | .natural value => exact .natural value
  | .string value => exact .string value
  | .array items => exact .array (refl_items items)
  | .object fields => exact .object (refl_fields fields)

theorem refl_items (items : List Value) : List.Forall₂ Alike items items := by
  match items with
  | [] => exact .nil
  | item :: items => exact .cons (refl item) (refl_items items)

theorem refl_fields (fields : List (Text × Value)) (name : Text) :
    Option.Rel Alike (fields.lookup name) (fields.lookup name) := by
  match fields with
  | [] => exact .none
  | (other, value) :: fields =>
      rw [List.lookup_cons]
      split
      next => exact .some (refl value)
      next => exact refl_fields fields name

end

theorem lookup_eq_none {fields : List (Text × Value)} {name : Text}
    (absent : name ∉ fields.map Prod.fst) : fields.lookup name = none := by
  apply List.lookup_eq_none_iff.mpr
  intro field member
  have different : name ≠ field.1 := fun same => absent (same ▸ List.mem_map_of_mem member)
  simpa using different

/-- Objects that list the same names in the same order are equal field by field. -/
theorem fieldwise {fields others : List (Text × Value)}
    (alike : (Value.object fields).Alike (.object others))
    (sameNames : fields.map Prod.fst = others.map Prod.fst)
    (distinct : (fields.map Prod.fst).Nodup) :
    List.Forall₂ (fun field other => field.2.Alike other.2) fields others := by
  induction fields generalizing others with
  | nil =>
      obtain rfl : others = [] := by simpa using sameNames.symm
      exact .nil
  | cons field fields induction =>
      obtain ⟨name, value⟩ := field
      match others with
      | (otherName, other) :: others =>
          obtain ⟨rfl, restNames⟩ := List.cons.inj sameNames
          obtain ⟨new, restDistinct⟩ := List.nodup_cons.mp distinct
          have each := object_iff.mp alike
          have here := each name
          rw [List.lookup_cons_self, List.lookup_cons_self] at here
          cases here with
          | some first =>
              refine .cons first (induction (object_iff.mpr ?_) restNames restDistinct)
              intro later
              by_cases same : later = name
              · -- The name of the first field stands in none of the others.
                subst same
                have newInOthers : later ∉ others.map Prod.fst := restNames ▸ new
                rw [lookup_eq_none new, lookup_eq_none newInOthers]
                exact .none
              · have apart : (later == name) = false := by simpa using same
                simpa only [List.lookup_cons, apart] using each later

end Alike

/-- Nothing is lost by writing: only equal values become the same JSON. -/
def Faithful {α : Type} (write : α → Value) : Prop :=
  ∀ first second, (write first).Alike (write second) ↔ first = second

namespace Faithful

variable {α : Type} {write : α → Value}

theorem of_alike (same : ∀ first second, (write first).Alike (write second) → first = second) :
    Faithful write := by
  intro first second
  constructor
  · exact same first second
  · rintro rfl
    exact .refl _

theorem list (faithful : Faithful write) :
    Faithful fun items : List α => .array (items.map write) := by
  intro first second
  rw [Alike.array_iff, List.forall₂_map_left_iff, List.forall₂_map_right_iff,
    ← List.forall₂_eq_eq_eq]
  simp only [faithful _ _]

theorem optionalString : Faithful optionalString := by
  intro first second
  cases first with
  | none => cases second <;> simp [Value.optionalString]
  | some text => cases second <;> simp [Value.optionalString]

end Faithful

end UtilityClass.Json.Value
