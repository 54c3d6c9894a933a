import Mathlib.Data.List.Forall2
import UtilityClass.Json.Decode

/-!
# Layouts of records and lists

A record is written as an object, whose fields may come in any order, or as an array of its
fields in the order of declaration.  Fields that have their default may be left out, at the
end only in an array.  `LaidOut` says which nodes these are, and `Overfull` are the nodes with
one key too many.  A list has as many ways to be written as its items have.
-/

namespace UtilityClass.Json.Decoder

variable {α : Type}

/-- What may be written for one field of a record. -/
structure Part where
  name : String
  /-- The field has its default and may be left out. -/
  optional : Prop
  /-- The ways to write the value that the field has. -/
  written : Node → Prop
  /-- What becomes of any node that is written for the field. -/
  check : Node → Except Fault Unit
  /-- The ways to write the value with one key too many inside, and what becomes of the
  node behind that key if it is met before the key is. -/
  overfull : Node → Except Fault Unit → Prop := fun _ _ => False

def Part.key (part : Part) : Text := part.name.toList

/-- A field whose value is written in one way only. -/
def Part.single (name : String) (optional : Prop) (written : Node) (decoder : Decoder α) :
    Part where
  name := name
  optional := optional
  written := fun node => node = written
  check := fun node => (decoder node).map fun _ => ()

@[simp] theorem Part.key_single (name : String) (optional : Prop) (written : Node)
    (decoder : Decoder α) : (Part.single name optional written decoder).key = name.toList := rfl

/-- The ways to write a record. -/
inductive LaidOut (parts : List Part) : Node → Prop where
  | object {pairs : List (Text × Node)} (distinct : (pairs.map Prod.fst).Nodup)
      (each : ∀ pair ∈ pairs, ∃ part ∈ parts, pair.1 = part.key ∧ part.written pair.2)
      (rest : ∀ part ∈ parts, part.key ∈ pairs.map Prod.fst ∨ part.optional) :
      LaidOut parts (.object pairs .closed)
  | array {front back : List Part} {nodes : List Node} (split : parts = front ++ back)
      (each : List.Forall₂ (fun part node => part.written node) front nodes)
      (rest : ∀ part ∈ back, part.optional) : LaidOut parts (.array nodes .closed)

theorem LaidOut.distinct {parts : List Part} {pairs : List (Text × Node)}
    (laid : LaidOut parts (.object pairs .closed)) : (pairs.map Prod.fst).Nodup := by
  cases laid with
  | object distinct _ _ => exact distinct

theorem LaidOut.each {parts : List Part} {pairs : List (Text × Node)}
    (laid : LaidOut parts (.object pairs .closed)) :
    ∀ pair ∈ pairs, ∃ part ∈ parts, pair.1 = part.key ∧ part.written pair.2 := by
  cases laid with
  | object _ each _ => exact each

theorem LaidOut.not_mem_front {parts : List Part} {before after : List (Text × Node)}
    (laid : LaidOut parts (.object (before ++ after) .closed)) {key : Text}
    (present : key ∈ after.map Prod.fst) : key ∉ before.map Prod.fst := by
  have distinct := laid.distinct
  rw [List.map_append] at distinct
  intro inFront
  exact (List.nodup_append.mp distinct).2.2 key inFront key present rfl

/-- The order of an object's fields makes no difference. -/
theorem LaidOut.perm {parts : List Part} {pairs others : List (Text × Node)}
    (laid : LaidOut parts (.object pairs .closed)) (same : pairs.Perm others) :
    LaidOut parts (.object others .closed) := by
  cases laid with
  | object distinct each rest =>
      refine .object ((same.map Prod.fst).nodup_iff.mp distinct) ?_ ?_
      · intro pair member
        exact each pair (same.mem_iff.mpr member)
      · intro part member
        exact (rest part member).imp_left (same.map Prod.fst).mem_iff.mp

theorem LaidOut.array_front {parts front back : List Part} {before after : List Node}
    {part : Part} {node : Node}
    (laid : LaidOut parts (.array (before ++ node :: after) .closed))
    (position : parts = front ++ part :: back) (index : front.length = before.length) :
    List.Forall₂ (fun part node => part.written node) front before := by
  cases laid with
  | @array shown hidden _ split each _ =>
      have shownFront := List.forall₂_take_append shown before (node :: after) each
      have enough : before.length ≤ shown.length := by
        rw [each.length_eq, List.length_append]
        exact Nat.le_add_right _ _
      have same : shown.take before.length = front := by
        rw [← List.take_append_of_le_length enough, ← split, position, ← index, List.take_left]
      rwa [same] at shownFront

/-- The ways to write a record with one key too many: a key that the record does not have,
or one that the object has already.  A key in front of the one it repeats is met first, with
the node behind it.  The second argument says what becomes of that node; it is of no account
in the other cases. -/
inductive Overfull (parts : List Part) : Node → Except Fault Unit → Prop where
  | unknown {before after : List (Text × Node)} {key : Text} {node : Node}
      (laid : LaidOut parts (.object (before ++ after) .closed))
      (notKnown : ∀ part ∈ parts, part.key ≠ key) :
      Overfull parts (.object (before ++ (key, node) :: after) .closed) (.ok ())
  | behind {before after : List (Text × Node)} {key : Text} {node : Node}
      (laid : LaidOut parts (.object (before ++ after) .closed))
      (present : key ∈ before.map Prod.fst) :
      Overfull parts (.object (before ++ (key, node) :: after) .closed) (.ok ())
  | inFront {before after : List (Text × Node)} {part : Part} {node : Node}
      (laid : LaidOut parts (.object (before ++ after) .closed)) (known : part ∈ parts)
      (present : part.key ∈ after.map Prod.fst) :
      Overfull parts (.object (before ++ (part.key, node) :: after) .closed) (part.check node)
  | member {before after : List (Text × Node)} {part : Part} {node inner : Node}
      {spare : Except Fault Unit}
      (laid : LaidOut parts (.object (before ++ (part.key, node) :: after) .closed))
      (known : part ∈ parts) (inside : part.overfull inner spare) :
      Overfull parts (.object (before ++ (part.key, inner) :: after) .closed) spare
  | element {front back : List Part} {before after : List Node} {part : Part}
      {node inner : Node} {spare : Except Fault Unit}
      (laid : LaidOut parts (.array (before ++ node :: after) .closed))
      (position : parts = front ++ part :: back) (index : front.length = before.length)
      (inside : part.overfull inner spare) :
      Overfull parts (.array (before ++ inner :: after) .closed) spare

/-- A reading fails: with a mismatch, or with the fault of a node that is met before the key
that is too many. -/
inductive Refused : Except Fault α → Except Fault Unit → Prop where
  | mismatch (mismatch : Mismatch) : Refused (.error (.mismatch mismatch)) (.ok ())
  | fault (fault : Fault) : Refused (.error fault) (.error fault)

theorem Refused.bind {β : Type} {result : Except Fault α} {spare : Except Fault Unit}
    (refused : Refused result spare) (next : α → Except Fault β) :
    Refused (result.bind next) spare := by
  cases refused with
  | mismatch mismatch => exact .mismatch mismatch
  | fault fault => exact .fault fault

theorem Refused.map {β : Type} {result : Except Fault α} {spare : Except Fault Unit}
    (refused : Refused result spare) (change : α → β) : Refused (result.map change) spare := by
  cases refused with
  | mismatch mismatch => exact .mismatch mismatch
  | fault fault => exact .fault fault

section Items

variable {item : Decoder α} {written : α → Node → Prop}
  {overfull : α → Node → Except Fault Unit → Prop} {values : List α} {nodes : List Node}

theorem items_of_each (reads : ∀ value node, written value node → item node = .ok value)
    (each : List.Forall₂ written values nodes) : items item nodes = .ok values := by
  induction each with
  | nil => rfl
  | cons first _ induction =>
      simp only [items, reads _ _ first, induction, bind, Except.bind, pure, Except.pure]

theorem list_of_each (reads : ∀ value node, written value node → item node = .ok value)
    (each : List.Forall₂ written values nodes) :
    list item (.array nodes .closed) = .ok values := by
  simp only [list, items_of_each reads each, Ending.check, bind, Except.bind, pure, Except.pure]

/-- The ways to write the items of an array with one key too many in one of them. -/
inductive OverfullItems (written : α → Node → Prop)
    (overfull : α → Node → Except Fault Unit → Prop) :
    List α → List Node → Except Fault Unit → Prop where
  | here {value : α} {values : List α} {node : Node} {nodes : List Node}
      {spare : Except Fault Unit} (first : overfull value node spare)
      (others : List.Forall₂ written values nodes) :
      OverfullItems written overfull (value :: values) (node :: nodes) spare
  | later {value : α} {values : List α} {node : Node} {nodes : List Node}
      {spare : Except Fault Unit} (first : written value node)
      (others : OverfullItems written overfull values nodes spare) :
      OverfullItems written overfull (value :: values) (node :: nodes) spare

theorem refused_items (reads : ∀ value node, written value node → item node = .ok value)
    (refuses : ∀ value node spare, overfull value node spare → Refused (item node) spare)
    {spare : Except Fault Unit} (each : OverfullItems written overfull values nodes spare) :
    Refused (items item nodes) spare := by
  induction each with
  | here first _ => exact (refuses _ _ _ first).bind _
  | later first _ induction =>
      simp only [items, reads _ _ first, bind]
      exact induction.bind _

theorem refused_list (reads : ∀ value node, written value node → item node = .ok value)
    (refuses : ∀ value node spare, overfull value node spare → Refused (item node) spare)
    {spare : Except Fault Unit} (each : OverfullItems written overfull values nodes spare) :
    Refused (list item (.array nodes .closed)) spare := by
  simp only [list]
  exact (refused_items reads refuses each).bind _

end Items

end UtilityClass.Json.Decoder
