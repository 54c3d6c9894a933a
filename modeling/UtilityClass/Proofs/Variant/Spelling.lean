import UtilityClass.Proofs.WellFormed

/-!
# Spellings of variants

`Spells` says how a variant is written without saying how it is read.  A token
that is accepted is a spelling of its variant, so reading drops no character
and makes none up.  A variant without decoded parts and without the root `@`,
whose dash may be left out, has one spelling only.
-/

namespace UtilityClass

/-- A root before a text that belongs to it.  A dash joins the two, which may
be missing after `@` if there is no other dash. -/
inductive Joined (root rest : Text) : Text → Prop where
  | dash : Joined root rest (root ++ '-' :: rest)
  | atRoot : root = ['@'] → '-' ∉ root ++ rest → Joined root rest (root ++ rest)

inductive Modifier.Spells : Text → Modifier → Prop where
  | named {text : Text} : Spells text (.named text)
  | arbitrary {raw : Text} : Spells raw.inBrackets (.arbitrary (.ofRaw raw))

/-- A text without a modifier, or before the slash of one. -/
inductive Modified (head : Text) : Option Modifier → Text → Prop where
  | none : Modified head none head
  | slash {text : Text} {modifier : Modifier} :
      Modifier.Spells text modifier → Modified head (some modifier) (head ++ '/' :: text)

inductive VariantValue.Spells : Text → VariantValue → Prop where
  | named {text : Text} : Spells text (.named text)
  | arbitrary {raw : Text} : Spells raw.inBrackets (.arbitrary raw.decode)

namespace Variant

/-- The ways to write a variant.  A selector says where the element stands, or
it is an at-rule, or else it is put around the element. -/
inductive Spells : Text → Variant → Prop where
  | selector {raw : Text} {compounds : Bool} :
      (raw.decode.head? = some '@' ∨ '&' ∈ raw.decode) →
      Spells raw.inBrackets (.arbitrary raw.decode compounds)
  | around {raw : Text} {compounds : Bool} :
      ¬(raw.decode.head? = some '@' ∨ '&' ∈ raw.decode) →
      Spells raw.inBrackets
        (.arbitrary ("&:is(".toList ++ raw.decode ++ ")".toList) compounds)
  | static {root : Text} {compounds : Bool} : Spells root (.static root compounds)
  | functional {root rest head token : Text} {value : VariantValue} {modifier : Option Modifier}
      {compounds : Bool} :
      VariantValue.Spells rest value → Joined root rest head → Modified head modifier token →
      Spells token (.functional root (some value) modifier compounds)
  | compound {root rest head token : Text} {inner : Variant} {modifier : Option Modifier}
      {compounds : Bool} :
      Spells rest inner → Joined root rest head → Modified head modifier token →
      Spells token (.compound root modifier inner compounds)

/-- The outermost layer holds nothing that was decoded, and its dash is needed. -/
def LiteralNode : Variant → Prop
  | arbitrary _ _ => False
  | static root _ => root ≠ ['@']
  | functional root value modifier _ =>
    root ≠ ['@'] ∧ (∀ content, value ≠ some (.arbitrary content)) ∧
      ∀ content, modifier ≠ some (.arbitrary content)
  | compound root modifier _ _ =>
    root ≠ ['@'] ∧ ∀ content, modifier ≠ some (.arbitrary content)

def Literal (variant : Variant) : Prop :=
  ∀ node ∈ variant.nodes, node.LiteralNode

end Variant

namespace Variant

theorem Literal.inner {root : Text} {modifier : Option Modifier} {inner : Variant}
    {compounds : Bool} (literal : (compound root modifier inner compounds).Literal) :
    inner.Literal := by
  intro node member
  apply literal
  exact List.mem_cons_of_mem _ member

theorem Literal.node {variant : Variant} (literal : variant.Literal) : variant.LiteralNode := by
  apply literal
  cases variant with
  | arbitrary | static | functional | compound => exact List.mem_cons_self

theorem spells_selectorOf (raw : Text) (compounds : Bool) :
    Spells raw.inBrackets (.arbitrary (Layer.selectorOf raw) compounds) := by
  by_cases placed : raw.decode.head? = some '@' ∨ '&' ∈ raw.decode
  · rw [Layer.selectorOf_eq_decode placed]
    exact .selector placed
  · rw [Layer.selectorOf_eq_around placed]
    exact .around placed

end Variant

namespace Layer

theorem spells_valueOf (text : Text) : VariantValue.Spells text (valueOf text) := by
  unfold valueOf
  cases bracketed : text.bracketed? with
  | none => exact .named
  | some raw =>
      obtain rfl := Text.bracketed?_eq_some_iff.mp bracketed
      exact .arbitrary

end Layer

theorem Modifier.spells_ofText (text : Text) : Modifier.Spells text (.ofText text) := by
  unfold Modifier.ofText
  cases bracketed : text.bracketed? with
  | none => exact .named
  | some raw =>
      obtain rfl := Text.bracketed?_eq_some_iff.mp bracketed
      exact .arbitrary

namespace Design

variable {design : Design}

theorem Rooted.exists_joined {token root rest : Text} {modifier : Option Text}
    {kind : VariantKind} (rooted : design.Rooted token root (some rest) modifier kind) :
    ∃ head, Joined root rest head ∧
      ∀ read : Text → Modifier, (∀ text, Modifier.Spells text (read text)) →
        Modified head (modifier.map read) token := by
  obtain ⟨head, cut, found⟩ := rooted.cut
  refine ⟨head, ?_, ?_⟩
  · obtain ⟨_, ⟨longest, _⟩ | atRoot⟩ := Text.longestRoot?_eq_some_some_iff.mp found
    · rw [longest.split]
      exact .dash
    · obtain ⟨noDash, rfl, rfl, _⟩ := atRoot
      exact .atRoot rfl noDash
  · intro read spells
    rw [Modifier.eq_of_cut?_eq_some cut]
    cases modifier with
    | none => simpa using Modified.none
    | some text => exact .slash (spells text)

theorem Rooted.token_eq {token root : Text} {kind : VariantKind}
    (rooted : design.Rooted token root none none kind) : token = root := by
  obtain ⟨head, cut, found⟩ := rooted.cut
  obtain ⟨_, rfl⟩ := Text.longestRoot?_eq_some_none_iff.mp found
  simpa using Modifier.eq_of_cut?_eq_some cut

theorem ReadsVariant.spells {token : Text} {variant : Variant}
    (reads : design.ReadsVariant token variant) : Variant.Spells token variant := by
  induction reads with
  | complete layer =>
      cases layer with
      | selector _ => exact Variant.spells_selectorOf _ true
      | static rooted =>
          obtain rfl := rooted.token_eq
          exact .static
      | functional rooted =>
          obtain ⟨head, joined, modified⟩ := rooted.exists_joined
          exact .functional (Layer.spells_valueOf _) joined
            (modified .ofText Modifier.spells_ofText)
  | wrapping layer _ _ induction =>
      cases layer with
      | compound rooted =>
          obtain ⟨head, joined, modified⟩ := rooted.exists_joined
          exact .compound induction joined (modified .named fun _ => .named)

end Design

end UtilityClass
