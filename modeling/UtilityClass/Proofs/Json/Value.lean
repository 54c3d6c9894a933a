import UtilityClass.Json.Value
import UtilityClass.Proofs.Json.Node

/-!
# Reading what is written

A value that is written comes back as a node without any break, as long as its
numbers fit 64 bits.
-/

namespace UtilityClass.Json

namespace Value

mutual

/-- The node that a value is read as. -/
def node : Value → Node
  | null => .null
  | bool value => .bool value
  | natural value => .number (.natural value)
  | string value => .string value
  | array items => .array (itemNodes items) .closed
  | object fields => .object (fieldNodes fields) .closed

def itemNodes : List Value → List Node
  | [] => []
  | item :: items => node item :: itemNodes items

def fieldNodes : List (Text × Value) → List (Text × Node)
  | [] => []
  | (name, value) :: fields => (name, node value) :: fieldNodes fields

end

/-- Every number in the value fits 64 bits. -/
def Writable (value : Value) : Prop :=
  ∀ token ∈ value.tokens, token.Writable

theorem mem_itemTokens {items : List Value} {token : Token} (member : token ∈ itemTokens items) :
    token = .comma ∨ ∃ item ∈ items, token ∈ item.tokens := by
  match items with
  | [] => exact absurd member List.not_mem_nil
  | [item] => exact .inr ⟨item, by simp, member⟩
  | item :: next :: items =>
      simp only [itemTokens, List.mem_append, List.mem_cons] at member
      rcases member with inItem | comma | later
      · exact .inr ⟨item, by simp, inItem⟩
      · exact .inl comma
      · rcases mem_itemTokens later with comma | ⟨found, foundMember, inFound⟩
        · exact .inl comma
        · exact .inr ⟨found, List.mem_cons_of_mem _ foundMember, inFound⟩

theorem mem_fieldTokens {fields : List (Text × Value)} {token : Token}
    (member : token ∈ fieldTokens fields) :
    token = .comma ∨ token = .colon ∨
      ∃ field ∈ fields, token = .string field.1 ∨ token ∈ field.2.tokens := by
  match fields with
  | [] => exact absurd member List.not_mem_nil
  | [(name, value)] =>
      simp only [fieldTokens, List.mem_cons] at member
      rcases member with key | colon | inValue
      · exact .inr (.inr ⟨(name, value), by simp, .inl key⟩)
      · exact .inr (.inl colon)
      · exact .inr (.inr ⟨(name, value), by simp, .inr inValue⟩)
  | (name, value) :: next :: fields =>
      simp only [fieldTokens, List.mem_cons, List.mem_append] at member
      rcases member with key | colon | inValue | comma | later
      · exact .inr (.inr ⟨(name, value), by simp, .inl key⟩)
      · exact .inr (.inl colon)
      · exact .inr (.inr ⟨(name, value), by simp, .inr inValue⟩)
      · exact .inl comma
      · rcases mem_fieldTokens later with comma | colon | ⟨found, foundMember, inFound⟩
        · exact .inl comma
        · exact .inr (.inl colon)
        · exact .inr (.inr ⟨found, List.mem_cons_of_mem _ foundMember, inFound⟩)

theorem writable_null : null.Writable := by
  simp [Writable, tokens, Token.Writable]

theorem writable_bool (value : Bool) : (bool value).Writable := by
  simp [Writable, tokens, Token.Writable]

theorem writable_string (value : Text) : (string value).Writable := by
  simp [Writable, tokens, Token.Writable]

theorem writable_natural {value : Nat} (fits : value < UInt64.size) :
    (natural value).Writable := by
  simpa [Writable, tokens, Token.Writable] using fits

theorem writable_array {items : List Value} (writable : ∀ item ∈ items, item.Writable) :
    (array items).Writable := by
  intro token member
  simp only [tokens, List.mem_cons, List.mem_append, List.not_mem_nil, or_false] at member
  rcases member with rfl | inItems | rfl
  · trivial
  · rcases mem_itemTokens inItems with rfl | ⟨item, itemMember, inItem⟩
    · trivial
    · exact writable item itemMember token inItem
  · trivial

theorem writable_object {fields : List (Text × Value)}
    (writable : ∀ field ∈ fields, field.2.Writable) : (object fields).Writable := by
  intro token member
  simp only [tokens, List.mem_cons, List.mem_append, List.not_mem_nil, or_false] at member
  rcases member with rfl | inFields | rfl
  · trivial
  · rcases mem_fieldTokens inFields with rfl | rfl | ⟨field, fieldMember, rfl | inField⟩
    · trivial
    · trivial
    · trivial
    · exact writable field fieldMember token inField
  · trivial

theorem itemNodes_eq_map (items : List Value) : itemNodes items = items.map node := by
  induction items with
  | nil => rfl
  | cons item items induction => rw [itemNodes, induction, List.map_cons]

theorem node_array (items : List Value) : (array items).node = .array (items.map node) .closed := by
  rw [node, itemNodes_eq_map]

theorem node_object (fields : List (Text × Value)) :
    (object fields).node = .object (fields.map fun field => (field.1, field.2.node)) .closed := by
  have members : fieldNodes fields = fields.map fun field => (field.1, field.2.node) := by
    induction fields with
    | nil => rfl
    | cons field fields induction => rw [fieldNodes, induction, List.map_cons]
  rw [node, members]

mutual

theorem whole_node (value : Value) : value.node.Whole := by
  match value with
  | .null => exact .null
  | .bool value => exact .bool value
  | .natural value => exact .number _
  | .string value => exact .string value
  | .array items => exact .array (whole_itemNodes items)
  | .object fields => exact .object (whole_fieldNodes fields)

theorem whole_itemNodes (items : List Value) : ∀ item ∈ itemNodes items, item.Whole := by
  match items with
  | [] => exact List.forall_mem_nil _
  | item :: items => exact List.forall_mem_cons.mpr ⟨whole_node item, whole_itemNodes items⟩

theorem whole_fieldNodes (fields : List (Text × Value)) :
    ∀ member ∈ fieldNodes fields, member.2.Whole := by
  match fields with
  | [] => exact List.forall_mem_nil _
  | (name, value) :: fields =>
      exact List.forall_mem_cons.mpr ⟨whole_node value, whole_fieldNodes fields⟩

end

mutual

theorem tokens_node (value : Value) : value.node.tokens = value.tokens := by
  match value with
  | .null => rfl
  | .bool value => rfl
  | .natural value => rfl
  | .string value => rfl
  | .array items => rw [node, Node.tokens, tokens, itemTokens_itemNodes items]
  | .object fields => rw [node, Node.tokens, tokens, memberTokens_fieldNodes fields]

theorem itemTokens_itemNodes (items : List Value) :
    Node.itemTokens (itemNodes items) = itemTokens items := by
  match items with
  | [] => rfl
  | [item] => exact tokens_node item
  | item :: next :: items =>
      have later := itemTokens_itemNodes (next :: items)
      rw [itemTokens, ← later, ← tokens_node item]
      rfl

theorem memberTokens_fieldNodes (fields : List (Text × Value)) :
    Node.memberTokens (fieldNodes fields) = fieldTokens fields := by
  match fields with
  | [] => rfl
  | [(name, value)] =>
      rw [fieldTokens, ← tokens_node value]
      rfl
  | (name, value) :: next :: fields =>
      have later := memberTokens_fieldNodes (next :: fields)
      rw [fieldTokens, ← later, ← tokens_node value]
      rfl

end

theorem writtenAs_write {value : Value} (writable : value.Writable) :
    value.node.WrittenAs value.write where
  whole := whole_node value
  spaced := by
    rw [tokens_node]
    exact spaced_flatMap_spelling writable

end Value

theorem Decoder.ofText_write {α : Type} {value : Value} (writable : value.Writable)
    (decoder : Decoder α) : decoder.ofText value.write = decoder value.node :=
  ofText_eq (Value.writtenAs_write writable) decoder

end UtilityClass.Json
