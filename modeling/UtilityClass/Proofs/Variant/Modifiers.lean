import UtilityClass.Proofs.Text.Balance
import UtilityClass.Proofs.Vocabulary.Export
import UtilityClass.Proofs.WellFormed

/-!
# Where a variant has its modifier

A token is cut at its slash before its root is looked up.  A root without
brackets, quotes and backslashes leaves the reading outside all contexts, so
the text behind it has no slash to be cut at either, however many roots are
taken off it.  Only the outermost layer of a variant has a modifier.
-/

namespace UtilityClass

/-- The modifier of the outermost layer. -/
def Variant.modifier? : Variant → Option Modifier
  | .arbitrary _ _ | .static _ _ => none
  | .functional _ _ modifier _ | .compound _ modifier _ _ => modifier

namespace Text

variable {separator : Char}

theorem Uncut.of_append {front rest : Text} (unmarked : front.Unmarked)
    (uncut : (front ++ rest).Uncut separator .outside) : rest.Uncut separator .outside := by
  obtain ⟨_, restUncut⟩ := uncut_append_iff.mp uncut
  rwa [Nesting.after_eq_self Nesting.awaitsMarks_outside rfl unmarked] at restUncut

theorem Unmarked.append {first second : Text} (firstUnmarked : first.Unmarked)
    (secondUnmarked : second.Unmarked) : Unmarked (first ++ second) := by
  intro character member
  rcases List.mem_append.mp member with inFirst | inSecond
  · exact firstUnmarked character inFirst
  · exact secondUnmarked character inSecond

theorem Uncut.of_longestRoot? {known : Text → Bool} {text root value : Text}
    (unmarked : ∀ name, known name = true → Unmarked name)
    (found : text.longestRoot? known = some (root, some value))
    (uncut : text.Uncut separator .outside) : value.Uncut separator .outside := by
  obtain ⟨_, ⟨longest, _⟩ | atRoot⟩ := longestRoot?_eq_some_some_iff.mp found
  · have whole : text = (root ++ ['-']) ++ value := by simp [longest.split]
    rw [whole] at uncut
    exact uncut.of_append ((unmarked root longest.isKnown).append (by decide))
  · have whole : text = ['@'] ++ value := atRoot.split
    rw [whole] at uncut
    exact uncut.of_append (by decide)

end Text

namespace Design

/-- No name of a variant has a bracket, a quote or a backslash. -/
def VariantsUnmarked (design : Design) : Prop :=
  ∀ name, design.hasVariant name = true → name.Unmarked

variable {design : Design} {token : Text}

namespace Rooted

variable {root : Text} {value modifier : Option Text} {kind : VariantKind}

theorem modifier_eq_none (rooted : design.Rooted token root value modifier kind)
    (uncut : token.Uncut '/' .outside) : modifier = none := by
  obtain ⟨head, cut, _⟩ := rooted.cut
  have pieces := Modifier.cut?_eq_some_iff.mp cut
  rw [(Text.pieces_eq_singleton_iff (by decide)).mpr uncut] at pieces
  cases modifier with
  | none => rfl
  | some text => cases pieces

theorem uncut_value {rest : Text} (unmarked : design.VariantsUnmarked)
    (rooted : design.Rooted token root (some rest) modifier kind) :
    rest.Uncut '/' .outside := by
  obtain ⟨head, cut, found⟩ := rooted.cut
  have headPiece : head ∈ token.pieces '/' := by
    rw [Modifier.cut?_eq_some_iff.mp cut]
    exact List.mem_cons_self
  have headUncut : head.Uncut '/' .outside :=
    (Text.pieces_eq_singleton_iff (by decide)).mp (Text.pieces_eq_singleton_of_mem headPiece)
  exact headUncut.of_longestRoot? unmarked found

end Rooted

theorem ReadsLayer.uncut_nested {root nested : Text} {modifier : Option Modifier}
    {compounds : Bool} (unmarked : design.VariantsUnmarked)
    (reads : design.ReadsLayer token (.wrapping root modifier compounds nested)) :
    nested.Uncut '/' .outside := by
  cases reads with
  | compound rooted => exact rooted.uncut_value unmarked

theorem ReadsVariant.modifier?_eq_none {variant : Variant}
    (reads : design.ReadsVariant token variant) (uncut : token.Uncut '/' .outside) :
    variant.modifier? = none := by
  cases reads with
  | complete layer =>
      cases layer with
      | selector => rfl
      | static => rfl
      | functional rooted =>
          obtain rfl := rooted.modifier_eq_none uncut
          rfl
  | wrapping layer =>
      cases layer with
      | compound rooted =>
          obtain rfl := rooted.modifier_eq_none uncut
          rfl

theorem ReadsVariant.modifier?_of_mem_nodes {variant : Variant}
    (unmarked : design.VariantsUnmarked) (reads : design.ReadsVariant token variant)
    (uncut : token.Uncut '/' .outside) : ∀ node ∈ variant.nodes, node.modifier? = none := by
  induction reads with
  | complete layer =>
      intro node member
      have outermost := (ReadsVariant.complete layer).modifier?_eq_none uncut
      cases layer with
      | selector | static | functional =>
          obtain rfl := List.mem_singleton.mp member
          exact outermost
  | wrapping layer innerReads innerCompounds induction =>
      intro node member
      rcases List.mem_cons.mp member with rfl | inside
      · exact (ReadsVariant.wrapping layer innerReads innerCompounds).modifier?_eq_none uncut
      · exact induction (layer.uncut_nested unmarked) node inside

/-- Below its outermost layer an accepted variant has no modifiers. -/
theorem inner_variants_have_no_modifier (common : design.FollowsCommonRules)
    (unmarked : design.VariantsUnmarked) {depth : Nat} {variant : Variant}
    (found : (design.readVariantAt depth token).result = some variant) :
    ∀ node ∈ variant.nodes.tail, node.modifier? = none := by
  obtain ⟨reads, _⟩ := (readVariantAt_result_eq_some_iff common).mp found
  intro node member
  cases reads with
  | complete layer =>
      cases layer with
      | selector | static | functional => cases member
  | wrapping layer innerReads _ =>
      exact innerReads.modifier?_of_mem_nodes unmarked (layer.uncut_nested unmarked) node member

/-- Two roots around brackets with a slash in them and, behind the modifier, a
parenthesis that is never closed. -/
theorem inner_variants_have_no_modifier_slashes :
    let vocabulary := (({} : Vocabulary).addVariants ["group", "has"] .compound true).addVariant
      "aria".toList .functional true
    let innermost := Variant.functional "aria".toList (some (.arbitrary "x/y".toList)) none true
    let inner := Variant.compound "has".toList none innermost true
    let variant := Variant.compound "group".toList (some (.named "a(/b".toList)) inner true
    vocabulary.design.FollowsCommonRules ∧ vocabulary.design.VariantsUnmarked ∧
      (vocabulary.design.readVariantAt 3 "group-has-aria-[x/y]/a(/b".toList).result =
        some variant ∧
      variant.nodes.tail = [inner, innermost] ∧
      inner.modifier? = none ∧ innermost.modifier? = none := by
  intro vocabulary innermost inner variant
  have common : vocabulary.design.FollowsCommonRules := fun _ _ => rfl
  have unmarked : vocabulary.design.VariantsUnmarked := by
    intro name registered
    have member : name ∈ vocabulary.variants.names := Table.contains_eq_true_iff.mp registered
    have eachUnmarked : ∀ name ∈ vocabulary.variants.names, Text.Unmarked name := by decide
    exact eachUnmarked name member
  have found : (vocabulary.design.readVariantAt 3 "group-has-aria-[x/y]/a(/b".toList).result =
      some variant := rfl
  have below := inner_variants_have_no_modifier common unmarked found
  have nodes : variant.nodes.tail = [inner, innermost] := rfl
  rw [nodes] at below
  exact ⟨common, unmarked, found, nodes, below inner (by simp), below innermost (by simp)⟩

end Design

end UtilityClass
