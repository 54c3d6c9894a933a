import Mathlib.Data.List.Chain
import UtilityClass.Json.Decode
import UtilityClass.Proofs.Json.Lexer

/-!
# Reading a whole node

A node without any break is read from its tokens, whatever white space stands around them
and whichever way its strings and numbers are spelled.  Numbers only stand in front of
punctuation, so the tokens can be told apart, and they are then read with a stack of open
containers, of which each node leaves behind what it found.
-/

namespace UtilityClass.Json

namespace Node

/-- Nothing in the node is broken. -/
inductive Whole : Node → Prop where
  | null : Whole .null
  | bool (value : Bool) : Whole (.bool value)
  | number (value : Number) : Whole (.number value)
  | string (value : Text) : Whole (.string value)
  | array {items : List Node} (each : ∀ item ∈ items, Whole item) : Whole (.array items .closed)
  | object {members : List (Text × Node)} (each : ∀ member ∈ members, Whole member.2) :
      Whole (.object members .closed)

mutual

/-- The tokens of a whole node. -/
def tokens : Node → List Token
  | null => [.null]
  | bool value => [.bool value]
  | number value => [.number value]
  | string value => [.string value]
  | array items _ => .openBracket :: (itemTokens items ++ [.closeBracket])
  | object members _ => .openBrace :: (memberTokens members ++ [.closeBrace])
  | brokenScalar _ | missing _ => []

/-- The tokens of array items with commas between them. -/
def itemTokens : List Node → List Token
  | [] => []
  | [item] => tokens item
  | item :: next :: items => tokens item ++ .comma :: itemTokens (next :: items)

/-- The tokens of object members with commas between them. -/
def memberTokens : List (Text × Node) → List Token
  | [] => []
  | [(key, node)] => .string key :: .colon :: tokens node
  | (key, node) :: next :: members =>
    .string key :: .colon :: (tokens node ++ .comma :: memberTokens (next :: members))

end

theorem apart_cons {token : Token} {tokens : List Token}
    (apart : tokens.IsChain Token.MayPrecede)
    (closed : ∀ rest, token.EndsBefore rest := by intro rest; trivial) :
    (token :: tokens).IsChain Token.MayPrecede := by
  apply List.isChain_cons.mpr
  refine ⟨?_, apart⟩
  intro next _ spelling _ rest
  exact closed _

/-- Punctuation that no number goes on with may follow anything. -/
theorem apart_append {first rest : List Token} {mark : Token}
    (firstApart : first.IsChain Token.MayPrecede)
    (restApart : (mark :: rest).IsChain Token.MayPrecede)
    (ends : ∀ spelling, mark.SpelledAs spelling → ∀ text,
      extendsNumber (spelling ++ text) = false := by
        intro spelling spelled text; cases spelled; rfl) :
    (first ++ mark :: rest).IsChain Token.MayPrecede := by
  apply List.isChain_append.mpr
  refine ⟨firstApart, restApart, ?_⟩
  intro last _ next starts spelling spelled text
  obtain rfl : mark = next := by simpa using starts
  cases last with
  | number value => exact ends spelling spelled text
  | _ => trivial

mutual

theorem tokens_apart (node : Node) : node.tokens.IsChain Token.MayPrecede := by
  cases node with
  | null => exact List.isChain_singleton _
  | bool value => exact List.isChain_singleton _
  | number value => exact List.isChain_singleton _
  | string value => exact List.isChain_singleton _
  | array items ending =>
      exact apart_cons (apart_append (itemTokens_apart items) (List.isChain_singleton _))
  | object members ending =>
      exact apart_cons (apart_append (memberTokens_apart members) (List.isChain_singleton _))
  | brokenScalar cause => exact List.isChain_nil
  | missing cause => exact List.isChain_nil

theorem itemTokens_apart (items : List Node) :
    (itemTokens items).IsChain Token.MayPrecede := by
  match items with
  | [] => exact List.isChain_nil
  | [item] => exact tokens_apart item
  | item :: next :: items =>
      have later := itemTokens_apart (next :: items)
      exact apart_append (tokens_apart item) (apart_cons later)

theorem memberTokens_apart (members : List (Text × Node)) :
    (memberTokens members).IsChain Token.MayPrecede := by
  match members with
  | [] => exact List.isChain_nil
  | [(key, node)] => exact apart_cons (apart_cons (tokens_apart node))
  | (key, node) :: next :: members =>
      have later := memberTokens_apart (next :: members)
      exact apart_cons (apart_cons (apart_append (tokens_apart node) (apart_cons later)))

end

theorem readValue_openBracket {stop : Stop} {stack : List Frame} {tokens : List Token}
    (nonempty : tokens.head? ≠ some .closeBracket) :
    readValue stop stack (.openBracket :: tokens) = readValue stop (.items [] :: stack) tokens := by
  rw [readValue]
  rintro rest rfl
  exact nonempty rfl

theorem readValue_openBrace {stop : Stop} {stack : List Frame} {tokens : List Token}
    (nonempty : tokens.head? ≠ some .closeBrace) :
    readValue stop stack (.openBrace :: tokens) = readKey stop stack [] tokens := by
  rw [readValue]
  rintro rest rfl
  exact nonempty rfl

theorem head?_itemTokens_ne_closeBracket {item : Node} (whole : item.Whole) (items : List Node)
    (rest : List Token) :
    (itemTokens (item :: items) ++ rest).head? ≠ some .closeBracket := by
  have starts : ∀ tokens, (item.tokens ++ tokens).head? ≠ some .closeBracket := by
    intro tokens
    cases whole <;> simp [Node.tokens]
  cases items with
  | nil => exact starts rest
  | cons next items =>
      simp only [itemTokens, List.append_assoc, List.cons_append]
      exact starts _

theorem head?_memberTokens (key : Text) (node : Node) (members : List (Text × Node))
    (rest : List Token) :
    (memberTokens ((key, node) :: members) ++ rest).head? = some (.string key) := by
  cases members with
  | nil => rfl
  | cons next members => simp [memberTokens]

mutual

theorem readValue_tokens (stop : Stop) (stack : List Frame) (node : Node) (whole : node.Whole)
    (rest : List Token) :
    readValue stop stack (node.tokens ++ rest) = readAfter stop stack node rest := by
  match node, whole with
  | .null, .null => simp [tokens, readValue]
  | .bool value, .bool _ => simp [tokens, readValue]
  | .number value, .number _ => simp [tokens, readValue]
  | .string value, .string _ => simp [tokens, readValue]
  | .array [] .closed, .array _ => simp [tokens, itemTokens, readValue]
  | .array (item :: items) .closed, .array each =>
      have inside := readValue_itemTokens stop stack [] (item :: items) each (by simp) rest
      have starts := head?_itemTokens_ne_closeBracket (each item List.mem_cons_self) items
        (.closeBracket :: rest)
      simp only [tokens, List.cons_append, List.append_assoc, List.nil_append]
      rw [readValue_openBracket starts, inside]
      rfl
  | .object [] .closed, .object _ => simp [tokens, memberTokens, readValue]
  | .object ((key, node) :: members) .closed, .object each =>
      have inside := readKey_memberTokens stop stack [] ((key, node) :: members) each (by simp) rest
      have starts : (memberTokens ((key, node) :: members) ++ .closeBrace :: rest).head? ≠
          some .closeBrace := by
        rw [head?_memberTokens]
        simp
      simp only [tokens, List.cons_append, List.append_assoc, List.nil_append]
      rw [readValue_openBrace starts, inside]
      rfl

theorem readValue_itemTokens (stop : Stop) (stack : List Frame) (before items : List Node)
    (whole : ∀ item ∈ items, item.Whole) (nonempty : items ≠ []) (rest : List Token) :
    readValue stop (.items before :: stack) (itemTokens items ++ .closeBracket :: rest) =
      readAfter stop stack (.array (before.reverse ++ items) .closed) rest := by
  match items with
  | [item] =>
      rw [itemTokens, readValue_tokens stop _ item (whole item (by simp)), readAfter]
      simp
  | item :: next :: items =>
      obtain ⟨itemWhole, othersWhole⟩ := List.forall_mem_cons.mp whole
      have later := readValue_itemTokens stop stack (item :: before) (next :: items) othersWhole
        (by simp) rest
      simp only [itemTokens, List.append_assoc, List.cons_append]
      rw [readValue_tokens stop _ item itemWhole, readAfter, later]
      simp

theorem readKey_memberTokens (stop : Stop) (stack : List Frame)
    (before members : List (Text × Node)) (whole : ∀ member ∈ members, member.2.Whole)
    (nonempty : members ≠ []) (rest : List Token) :
    readKey stop stack before (memberTokens members ++ .closeBrace :: rest) =
      readAfter stop stack (.object (before.reverse ++ members) .closed) rest := by
  match members with
  | [(key, node)] =>
      simp only [memberTokens, List.cons_append]
      rw [readKey, readValue_tokens stop _ node (whole (key, node) (by simp)), readAfter]
      simp
  | (key, node) :: next :: members =>
      obtain ⟨nodeWhole, othersWhole⟩ := List.forall_mem_cons.mp whole
      have later := readKey_memberTokens stop stack ((key, node) :: before) (next :: members)
        othersWhole (by simp) rest
      simp only [memberTokens, List.append_assoc, List.cons_append]
      rw [readKey, readValue_tokens stop _ node nodeWhole, readAfter, later]
      simp

end

/-- The ways to write a node as a text. -/
structure WrittenAs (node : Node) (text : Text) : Prop where
  whole : node.Whole
  spaced : Spaced node.tokens text

theorem WrittenAs.ofText_eq {node : Node} {text : Text} (written : node.WrittenAs text) :
    ofText text = (node, false) := by
  have read := readValue_tokens .finished [] node written.whole []
  rw [List.append_nil] at read
  simp only [ofText, written.spaced.lex_eq (tokens_apart node), read, readAfter]

end Node

/-- A decoder reads from a text what it makes of the node that the text writes. -/
theorem Decoder.ofText_eq {α : Type} {node : Node} {text : Text} (written : node.WrittenAs text)
    (decoder : Decoder α) : decoder.ofText text = decoder node := by
  simp only [Decoder.ofText, written.ofText_eq]
  cases decoder node with
  | error fault => rfl
  | ok result => rfl

end UtilityClass.Json
