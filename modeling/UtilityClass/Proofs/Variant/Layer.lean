import UtilityClass.Proofs.Text.Pieces
import UtilityClass.Proofs.Text.Root
import UtilityClass.Variant.Reading

/-!
# Relational specification of variant layers

`ReadsLayer` says which layers a token has without saying in which order the
checks are made.  The executable `readLayer` finds exactly these.
-/

namespace UtilityClass

namespace Layer

theorem selectorOf_eq_decode {raw : Text}
    (placed : raw.decode.head? = some '@' ∨ '&' ∈ raw.decode) :
    selectorOf raw = raw.decode := by
  simp [selectorOf, isAtRule, placed]

theorem selectorOf_eq_around {raw : Text}
    (unplaced : ¬(raw.decode.head? = some '@' ∨ '&' ∈ raw.decode)) :
    selectorOf raw = "&:is(".toList ++ raw.decode ++ ")".toList := by
  simp [selectorOf, isAtRule, unplaced]

end Layer

namespace Design

/-- Behind its modifier a token is a registered root of a kind, with the text
after the root or without. -/
structure Rooted (design : Design) (token root : Text) (value modifier : Option Text)
    (kind : VariantKind) : Prop where
  unbracketed : token.bracketed? = none
  cut : ∃ head, Modifier.cut? token = some (head, modifier) ∧
    head.longestRoot? design.hasVariant = some (root, value)
  kind_eq : design.variantKind root = some kind

/-- The layers of a token.  A static root stands alone, the two other kinds
take a text after the root, and only functional roots read their modifier. -/
inductive ReadsLayer (design : Design) : Text → Layer → Prop where
  | selector {raw : Text} :
      (Layer.isAtRule raw && raw.contains '&') = false →
      ReadsLayer design ('[' :: (raw ++ [']']))
        (.complete (.arbitrary (Layer.selectorOf raw) true))
  | static {token root : Text} :
      design.Rooted token root none none .static →
      ReadsLayer design token (.complete (.static root (design.variantCompounds root)))
  | functional {token root value : Text} {modifier : Option Text} :
      design.Rooted token root (some value) modifier .functional →
      ReadsLayer design token
        (.complete (.functional root (some (Layer.valueOf value)) (modifier.map .ofText)
          (design.variantCompounds root)))
  | compound {token root nested : Text} {modifier : Option Text} :
      design.Rooted token root (some nested) modifier .compound →
      ReadsLayer design token
        (.wrapping root (modifier.map .named) (design.variantCompounds root) nested)

variable {design : Design}

namespace Rooted

variable {token root : Text} {value modifier : Option Text} {kind : VariantKind}

theorem hasVariant (rooted : design.Rooted token root value modifier kind) :
    design.hasVariant root = true := by
  obtain ⟨head, _, found⟩ := rooted.cut
  exact Text.known_of_longestRoot?_eq_some found

theorem length_lt {nested : Text}
    (rooted : design.Rooted token root (some nested) modifier kind) :
    nested.length < token.length := by
  obtain ⟨head, cut, found⟩ := rooted.cut
  have shorter := Text.length_lt_of_longestRoot?_eq_some found
  have whole := Modifier.eq_of_cut?_eq_some cut
  calc
    nested.length < head.length := shorter
    _ ≤ token.length := by simp [whole]

theorem readLayer_eq (rooted : design.Rooted token root value modifier kind) :
    design.readLayer token =
      Layer.ofKind root value modifier (design.variantCompounds root) kind := by
  obtain ⟨head, cut, found⟩ := rooted.cut
  simp [readLayer, rooted.unbracketed, cut, found, rooted.kind_eq]

end Rooted

theorem readLayer_cases {token : Text} {layer : Layer}
    (read : design.readLayer token = .ok layer) :
    (∃ raw, token = '[' :: (raw ++ [']']) ∧ Layer.ofSelector raw = .ok layer) ∨
      ∃ root value modifier kind, design.Rooted token root value modifier kind ∧
        Layer.ofKind root value modifier (design.variantCompounds root) kind = .ok layer := by
  simp only [readLayer] at read
  cases bracketed : token.bracketed? with
  | some raw =>
      rw [bracketed] at read
      exact .inl ⟨raw, Text.bracketed?_eq_some_iff.mp bracketed, read⟩
  | none =>
      simp only [bracketed] at read
      cases cut : Modifier.cut? token with
      | none => simp [cut] at read
      | some parts =>
          obtain ⟨head, modifier⟩ := parts
          simp only [cut] at read
          cases found : head.longestRoot? design.hasVariant with
          | none => simp [found] at read
          | some rootAndValue =>
              obtain ⟨root, value⟩ := rootAndValue
              simp only [found] at read
              cases kindFound : design.variantKind root with
              | none => simp [kindFound] at read
              | some kind =>
                  simp only [kindFound] at read
                  exact .inr ⟨root, value, modifier, kind,
                    ⟨bracketed, ⟨head, cut, found⟩, kindFound⟩, read⟩

/-- A root without a value is static and has no modifier, and a root with a
value is functional or compound. -/
theorem Rooted.readsLayer {token root : Text} {value modifier : Option Text}
    {kind : VariantKind} {layer : Layer}
    (rooted : design.Rooted token root value modifier kind)
    (read : Layer.ofKind root value modifier (design.variantCompounds root) kind = .ok layer) :
    design.ReadsLayer token layer := by
  cases kind with
  | static =>
      cases value with
      | some value => simp [Layer.ofKind] at read
      | none =>
          cases modifier with
          | some modifier => simp [Layer.ofKind] at read
          | none =>
              simp only [Layer.ofKind, Option.isSome_none, Bool.false_eq_true, if_false,
                Except.ok.injEq] at read
              exact read ▸ .static rooted
  | functional =>
      cases value with
      | none => simp [Layer.ofKind] at read
      | some value =>
          simp only [Layer.ofKind, Except.ok.injEq] at read
          exact read ▸ .functional rooted
  | compound =>
      cases value with
      | none => simp [Layer.ofKind] at read
      | some nested =>
          simp only [Layer.ofKind, Except.ok.injEq] at read
          exact read ▸ .compound rooted

theorem readLayer_eq_ok_iff {token : Text} {layer : Layer} :
    design.readLayer token = .ok layer ↔ design.ReadsLayer token layer := by
  constructor
  · intro read
    rcases readLayer_cases read with ⟨raw, rfl, selector⟩ | ⟨_, _, _, _, rooted, byKind⟩
    · unfold Layer.ofSelector at selector
      split at selector
      next mixed => exact absurd selector (by simp)
      next apart =>
        obtain rfl := Except.ok.inj selector
        exact .selector (by simpa using apart)
    · exact rooted.readsLayer byKind
  · intro reads
    cases reads with
    | @selector raw apart =>
        have bracketed : Text.bracketed? ('[' :: (raw ++ [']'])) = some raw :=
          Text.bracketed?_eq_some_iff.mpr rfl
        simp only [readLayer, bracketed, Layer.ofSelector, apart, Bool.false_eq_true, if_false]
    | static rooted => rw [rooted.readLayer_eq]; rfl
    | functional rooted => rw [rooted.readLayer_eq]; rfl
    | compound rooted => rw [rooted.readLayer_eq]; rfl

end Design

end UtilityClass
