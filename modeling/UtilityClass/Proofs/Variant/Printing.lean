import UtilityClass.Proofs.Text.Balance
import UtilityClass.Proofs.Variant.Levels

/-!
# Printed variants

A `WrittenVariant` is a variant before it is printed: its roots, and its values
and selectors as they are put down.  The printed text is read as this variant
again, if each root is the longest one there and what stands in brackets is
balanced.  A modifier can be printed behind the outermost root.
-/

namespace UtilityClass

/-- The value of a functional variant as it is put down. -/
inductive WrittenValue where
  | word (value : Text)
  | brackets (raw : Text)

/-- A variant as it is put down, without a modifier. -/
inductive WrittenVariant where
  | selector (raw : Text)
  | static (root : Text)
  | functional (root : Text) (value : WrittenValue)
  | compound (root : Text) (nested : WrittenVariant)

/-- A text with a slash and a modifier behind it, if there is one. -/
def Modifier.behind (head : Text) : Option Text → Text
  | none => head
  | some modifier => head ++ '/' :: modifier

namespace WrittenValue

def text : WrittenValue → Text
  | word value => value
  | brackets raw => raw.inBrackets

def value : WrittenValue → VariantValue
  | word value => .named value
  | brackets raw => .arbitrary raw.decode

def Legible : WrittenValue → Prop
  | word value => value.Plain
  | brackets raw => raw.Balanced

end WrittenValue

namespace Design

/-- A plain root of a kind in front of a text.  No longer part of the text that
a dash follows is a root, and neither is the whole. -/
structure Leads (design : Design) (root rest : Text) (kind : VariantKind) : Prop where
  plain : root.Plain
  kind_eq : design.variantKind root = some kind
  unknown : design.hasVariant (root ++ '-' :: rest) = false
  longest : Text.LongestRoot design.hasVariant (root ++ '-' :: rest) root rest

end Design

namespace WrittenVariant

def text : WrittenVariant → Text
  | selector raw => raw.inBrackets
  | static root => root
  | functional root value => root ++ '-' :: value.text
  | compound root nested => root ++ '-' :: nested.text

/-- The selector that is meant by what stands in brackets.  It is put around
the element, unless it is an at-rule or says where the element stands. -/
def selected (raw : Text) : Text :=
  if raw.decode.head? = some '@' ∨ '&' ∈ raw.decode then raw.decode
  else "&:is(".toList ++ raw.decode ++ ")".toList

/-- The variant that is meant, in a design that says which roots compound. -/
def variant (design : Design) (modifier : Option Modifier) : WrittenVariant → Variant
  | selector raw => .arbitrary (selected raw) true
  | static root => .static root (design.variantCompounds root)
  | functional root value =>
    .functional root (some value.value) modifier (design.variantCompounds root)
  | compound root nested =>
    .compound root modifier (nested.variant design none) (design.variantCompounds root)

/-- Whether a modifier can follow. -/
def takesModifier : WrittenVariant → Bool
  | selector _ | static _ => false
  | functional _ _ | compound _ _ => true

/-- Every root is registered as what it is used for and leads the text behind
it, and every variant that is wrapped compounds. -/
def Legible (design : Design) : WrittenVariant → Prop
  | selector raw => raw.Balanced ∧ ¬(raw.head? = some '@' ∧ '&' ∈ raw)
  | static root =>
    root.Plain ∧ design.hasVariant root = true ∧ design.variantKind root = some .static
  | functional root value => design.Leads root value.text .functional ∧ value.Legible
  | compound root nested =>
    design.Leads root nested.text .compound ∧
      (nested.variant design none).compounds = true ∧ nested.Legible design

end WrittenVariant

namespace Modifier

theorem ofText_of_plain {modifier : Text} (plain : modifier.Plain) :
    ofText modifier = .named modifier := by
  have unbracketed : modifier.bracketed? = none :=
    Text.bracketed?_eq_none (plain.head?_ne (by decide))
  simp only [ofText, unbracketed]

theorem map_ofText_of_plain {modifier : Option Text}
    (plain : ∀ word ∈ modifier, Text.Plain word) :
    modifier.map ofText = modifier.map .named := by
  cases modifier with
  | none => rfl
  | some word => exact congrArg some (ofText_of_plain (plain word rfl))

theorem cut?_behind {head : Text} (whole : head.Whole '/') {modifier : Option Text}
    (plain : ∀ word ∈ modifier, Text.Plain word) :
    cut? (behind head modifier) = some (head, modifier) := by
  apply cut?_eq_some_iff.mpr
  cases modifier with
  | none => exact whole.pieces_eq (by decide)
  | some word =>
      have wordWhole : word.Whole '/' := (plain word rfl).whole
      rw [behind, whole.pieces_append_cons (by decide), wordWhole.pieces_eq (by decide)]
      rfl

theorem head?_behind {head : Text} (nonempty : head ≠ []) (modifier : Option Text) :
    (behind head modifier).head? = head.head? := by
  cases modifier with
  | none => rfl
  | some word => exact List.head?_append_of_ne_nil _ nonempty

end Modifier

namespace WrittenValue

variable {written : WrittenValue}

theorem Legible.whole (legible : written.Legible) : written.text.Whole '/' := by
  cases written with
  | word value => exact legible.whole
  | brackets raw => exact .of_balanced legible (by decide)

theorem Legible.valueOf_text (legible : written.Legible) :
    Layer.valueOf written.text = written.value := by
  cases written with
  | word value =>
      have unbracketed : value.bracketed? = none :=
        Text.bracketed?_eq_none (legible.head?_ne (by decide))
      simp only [Layer.valueOf, text, unbracketed]
      rfl
  | brackets raw =>
      have bracketed : raw.inBrackets.bracketed? = some raw :=
        Text.bracketed?_eq_some_iff.mpr rfl
      simp only [Layer.valueOf, text, bracketed]
      rfl

end WrittenValue

namespace Design

variable {design : Design} {root rest : Text} {kind : VariantKind}

theorem Leads.of_find? (plain : root.Plain) (kind_eq : design.variantKind root = some kind)
    (unknown : design.hasVariant (root ++ '-' :: rest) = false)
    (found : (Text.rootCuts (root ++ '-' :: rest)).find? (fun cut => design.hasVariant cut.1) =
      some (root, rest)) :
    design.Leads root rest kind where
  plain := plain
  kind_eq := kind_eq
  unknown := unknown
  longest := (Text.find?_rootCuts_eq_some_iff.mp found).1

theorem Leads.whole (leads : design.Leads root rest kind) (whole : rest.Whole '/') :
    Text.Whole '/' (root ++ '-' :: rest) :=
  .behind_root leads.plain.unmarked leads.plain.noSlash (by decide) whole

theorem Leads.rooted (leads : design.Leads root rest kind) (whole : rest.Whole '/')
    {modifier : Option Text} (plain : ∀ word ∈ modifier, Text.Plain word) :
    design.Rooted (Modifier.behind (root ++ '-' :: rest) modifier) root (some rest) modifier
      kind := by
  have nonempty := leads.plain.nonempty
  refine ⟨?_, ⟨_, Modifier.cut?_behind (leads.whole whole) plain, ?_⟩, leads.kind_eq⟩
  · apply Text.bracketed?_eq_none
    rw [Modifier.head?_behind (by simp), List.head?_append_of_ne_nil _ nonempty]
    exact leads.plain.head?_ne (by decide)
  · apply Text.longestRoot?_eq_some_some_iff.mpr
    exact ⟨leads.unknown, .inl ⟨leads.longest, .inl nonempty⟩⟩

theorem rooted_of_plain (plain : root.Plain) (isKnown : design.hasVariant root = true)
    (kind_eq : design.variantKind root = some kind) :
    design.Rooted root root none none kind := by
  refine ⟨Text.bracketed?_eq_none (plain.head?_ne (by decide)), ⟨root, ?_, ?_⟩, kind_eq⟩
  · exact Modifier.cut?_eq_some_iff.mpr (plain.whole.pieces_eq (by decide))
  · exact Text.longestRoot?_eq_some_none_iff.mpr ⟨isKnown, rfl⟩

end Design

namespace WrittenVariant

variable {design : Design} {written : WrittenVariant}

theorem selectorOf_eq_selected (raw : Text) : Layer.selectorOf raw = selected raw := by
  unfold selected
  split
  next placed => exact Layer.selectorOf_eq_decode placed
  next unplaced => exact Layer.selectorOf_eq_around unplaced

theorem Legible.whole (legible : written.Legible design) : written.text.Whole '/' := by
  induction written with
  | selector raw => exact .of_balanced legible.1 (by decide)
  | static root => exact legible.1.whole
  | functional root value => exact legible.1.whole legible.2.whole
  | compound root nested induction =>
      obtain ⟨leads, _, nestedLegible⟩ := legible
      exact leads.whole (induction nestedLegible)

theorem Legible.readsVariant (legible : written.Legible design) {modifier : Option Text}
    (plain : ∀ word ∈ modifier, Text.Plain word)
    (taken : modifier.isSome = true → written.takesModifier = true) :
    design.ReadsVariant (Modifier.behind written.text modifier)
      (written.variant design (modifier.map .named)) := by
  induction written generalizing modifier with
  | selector raw =>
      obtain rfl : modifier = none := by simpa [takesModifier] using taken
      obtain ⟨_, apart⟩ := legible
      have unmixed : (Layer.isAtRule raw && raw.contains '&') = false := by
        simpa [Layer.isAtRule] using apart
      have layer : design.ReadsLayer raw.inBrackets
          (.complete (.arbitrary (Layer.selectorOf raw) true)) := .selector unmixed
      rw [selectorOf_eq_selected] at layer
      exact .complete layer
  | static root =>
      obtain rfl : modifier = none := by simpa [takesModifier] using taken
      obtain ⟨rootPlain, isKnown, kind_eq⟩ := legible
      apply Design.ReadsVariant.complete
      exact .static (Design.rooted_of_plain rootPlain isKnown kind_eq)
  | functional root value =>
      obtain ⟨leads, valueLegible⟩ := legible
      have rooted := leads.rooted valueLegible.whole plain
      have layer := Design.ReadsLayer.functional rooted
      rw [valueLegible.valueOf_text, Modifier.map_ofText_of_plain plain] at layer
      exact .complete layer
  | compound root nested induction =>
      obtain ⟨leads, compounds, nestedLegible⟩ := legible
      have rooted := leads.rooted nestedLegible.whole plain
      have nestedReads : design.ReadsVariant nested.text (nested.variant design none) :=
        @induction nestedLegible none (by simp) (by simp)
      exact .wrapping (.compound rooted) nestedReads compounds

end WrittenVariant

namespace Design

variable {design : Design}

/-- The text of a legible variant is read as that variant, with the values and
selectors decoded and the modifier on the outside, if the limit leaves room. -/
theorem readVariant_text_eq_some (common : design.FollowsCommonRules) {written : WrittenVariant}
    (legible : written.Legible design) {modifier : Option Text}
    (plain : ∀ word ∈ modifier, Text.Plain word)
    (taken : modifier.isSome = true → written.takesModifier = true)
    (room : (written.variant design (modifier.map .named)).layers ≤ design.maxVariantDepth) :
    (design.readVariant (Modifier.behind written.text modifier)).result =
      some (written.variant design (modifier.map .named)) := by
  apply (readVariant_result_eq_some_iff common).mpr
  exact ⟨legible.readsVariant plain taken, room⟩

/-- Two compound roots around a value with a dash and a slash in its brackets,
and around a selector that is put around the element. -/
theorem readVariant_text_eq_some_two_roots :
    let design := (((({} : Vocabulary).addVariants ["group", "not"] .compound true).addVariant
      "aria".toList .functional true)).design
    let groupNot (inner : WrittenVariant) := WrittenVariant.compound "group".toList
      (.compound "not".toList inner)
    let sorted := groupNot (.functional "aria".toList (.brackets "sort=a-b/c_d".toList))
    let dark := groupNot (.selector ".dark_p".toList)
    let meant (inner : Variant) := Variant.compound "group".toList (some (.named "side".toList))
      (.compound "not".toList none inner true) true
    let ariaSort := Variant.functional "aria".toList
      (some (.arbitrary "sort=a-b/c d".toList)) none true
    let aroundDark := Variant.arbitrary "&:is(.dark p)".toList true
    design.FollowsCommonRules ∧ sorted.Legible design ∧ dark.Legible design ∧
      (∀ word ∈ some "side".toList, Text.Plain word) ∧ sorted.takesModifier = true ∧
      dark.takesModifier = true ∧ (meant ariaSort).layers ≤ design.maxVariantDepth ∧
      (meant aroundDark).layers ≤ design.maxVariantDepth ∧
      (design.readVariant "group-not-aria-[sort=a-b/c_d]/side".toList).result =
        some (meant ariaSort) ∧
      (design.readVariant "group-not-[.dark_p]/side".toList).result =
        some (meant aroundDark) := by
  intro design groupNot sorted dark meant ariaSort aroundDark
  have common : design.FollowsCommonRules := fun _ _ => rfl
  have groupPlain : Text.Plain "group".toList := ⟨by decide, by decide, by decide⟩
  have notPlain : Text.Plain "not".toList := ⟨by decide, by decide, by decide⟩
  have ariaPlain : Text.Plain "aria".toList := ⟨by decide, by decide, by decide⟩
  have sortedLegible : sorted.Legible design := by
    have aria : design.Leads "aria".toList "[sort=a-b/c_d]".toList .functional :=
      .of_find? ariaPlain rfl rfl rfl
    have notAria : design.Leads "not".toList "aria-[sort=a-b/c_d]".toList .compound :=
      .of_find? notPlain rfl rfl rfl
    have groupAria : design.Leads "group".toList "not-aria-[sort=a-b/c_d]".toList .compound :=
      .of_find? groupPlain rfl rfl rfl
    exact ⟨groupAria, rfl, notAria, rfl, aria, by decide, rfl⟩
  have darkLegible : dark.Legible design := by
    have notDark : design.Leads "not".toList "[.dark_p]".toList .compound :=
      .of_find? notPlain rfl rfl rfl
    have groupDark : design.Leads "group".toList "not-[.dark_p]".toList .compound :=
      .of_find? groupPlain rfl rfl rfl
    exact ⟨groupDark, rfl, notDark, rfl, ⟨by decide, rfl⟩, by decide⟩
  have plain : ∀ word ∈ some "side".toList, Text.Plain word := by
    intro word member
    obtain rfl := Option.mem_some_iff.mp member
    exact ⟨by decide, by decide, by decide⟩
  exact ⟨common, sortedLegible, darkLegible, plain, rfl, rfl, by decide, by decide,
    readVariant_text_eq_some common sortedLegible plain (fun _ => rfl) (by decide),
    readVariant_text_eq_some common darkLegible plain (fun _ => rfl) (by decide)⟩

end Design

end UtilityClass
