import UtilityClass.Proofs.Json.Record
import UtilityClass.Proofs.Json.Value
import UtilityClass.Snapshot.Json

/-!
# Layouts of a snapshot

A snapshot is decoded from every layout of its fields and from nothing with one key too many.
Each record of a snapshot says what may be written for its fields and how its draft grows;
the rest is the same for all records.
-/

namespace UtilityClass

open Json (Value Node Fault Decoder)
open Json.Decoder (Part LaidOut Overfull OverfullItems Refused Fills Assembles onceRead
  isSome_onceRead onceRead_cons_self onceRead_cons_of_ne onceRead_of_mem getD_onceRead)

theorem VariantKind.decoder_toJson (kind : VariantKind) :
    VariantKind.decoder kind.toJson.node = .ok kind := by
  cases kind <;> rfl

namespace UtilityLists

/-- What may be written for the lists of utilities. -/
def parts (lists : UtilityLists) : List Part :=
  [.single "static" (lists.statics = []) (Value.array (lists.statics.map .string)).node
      (.list .text),
    .single "functional" (lists.functionals = [])
      (Value.array (lists.functionals.map .string)).node (.list .text)]

/-- The draft of the lists after some of their keys. -/
def drafted (lists : UtilityLists) (taken : List Text) : Draft where
  statics := onceRead "static" taken lists.statics
  functionals := onceRead "functional" taken lists.functionals

theorem list_text (names : List Text) :
    Decoder.list .text (Value.array (names.map .string)).node = .ok names := by
  have each : List.Forall₂ (fun name node => node = Node.string name) names
      ((names.map .string).map Value.node) := by
    rw [List.map_map, List.forall₂_map_right_iff, List.forall₂_same]
    exact fun _ _ => rfl
  rw [Value.node_array]
  exact Decoder.list_of_each (by rintro name _ rfl; rfl) each

theorem assembles (lists : UtilityLists) :
    Assembles shape {} lists.parts lists lists.drafted where
  distinct := by simp [parts]
  start := rfl
  fills := by
    refine .cons ?statics (.cons ?functionals .nil)
    case statics =>
      refine Fills.single (.list .text)
        (fun names draft => { draft with statics := some names }) lists.statics
        (fun _ _ => rfl) (fun _ => isSome_onceRead) (by simp [shape]) ?_ (list_text _)
      intro taken
      simp (disch := decide) only [drafted, onceRead_cons_self, onceRead_cons_of_ne]
    case functionals =>
      refine Fills.single (.list .text)
        (fun names draft => { draft with functionals := some names }) lists.functionals
        (fun _ _ => rfl) (fun _ => isSome_onceRead) (by simp [shape]) ?_ (list_text _)
      intro taken
      simp (disch := decide) only [drafted, onceRead_cons_self, onceRead_cons_of_ne]
  finish := by
    intro taken rest
    simp only [parts, List.forall_mem_cons, Part.single] at rest
    obtain ⟨statics, functionals, _⟩ := rest
    simp only [shape, drafted, getD_onceRead statics, getD_onceRead functionals]

theorem laidOut_toJson (lists : UtilityLists) : LaidOut lists.parts lists.toJson.node := by
  rw [toJson, Value.node_object]
  refine .object ?_ ?_ ?_
  · simp [Value.field]
  · simp [Value.field, parts, Part.single, Part.key]
  · simp [Value.field, parts, Part.single, Part.key]

theorem decoder_of_laidOut {lists : UtilityLists} {node : Node} (laid : LaidOut lists.parts node) :
    decoder node = .ok lists :=
  Decoder.record_of_laidOut lists.assembles laid

theorem refused_of_overfull {lists : UtilityLists} {node : Node} {spare : Except Fault Unit}
    (overfull : Overfull lists.parts node spare) : Refused (decoder node) spare :=
  Decoder.refused_record_of_overfull lists.assembles overfull

end UtilityLists

namespace VariantRow

/-- What may be written for a row. -/
def parts (row : VariantRow) : List Part :=
  [.single "name" False (.string row.name) .text,
    .single "kind" False row.kind.toJson.node VariantKind.decoder,
    .single "compounds" (row.compounds = true) (.bool row.compounds) .bool]

/-- The draft of a row after some of its keys. -/
def drafted (row : VariantRow) (taken : List Text) : Draft where
  name := onceRead "name" taken row.name
  kind := onceRead "kind" taken row.kind
  compounds := onceRead "compounds" taken row.compounds

theorem assembles (row : VariantRow) : Assembles shape {} row.parts row row.drafted where
  distinct := by simp [parts]
  start := rfl
  fills := by
    refine .cons ?name (.cons ?kind (.cons ?compounds .nil))
    case name =>
      refine Fills.single .text (fun name draft => { draft with name := some name }) row.name
        (fun _ _ => rfl) (fun _ => isSome_onceRead) (by simp [shape]) ?_ rfl
      intro taken
      simp (disch := decide) only [drafted, onceRead_cons_self, onceRead_cons_of_ne]
    case kind =>
      refine Fills.single VariantKind.decoder
        (fun kind draft => { draft with kind := some kind }) row.kind
        (fun _ _ => rfl) (fun _ => isSome_onceRead) (by simp [shape]) ?_ row.kind.decoder_toJson
      intro taken
      simp (disch := decide) only [drafted, onceRead_cons_self, onceRead_cons_of_ne]
    case compounds =>
      refine Fills.single .bool
        (fun compounds draft => { draft with compounds := some compounds }) row.compounds
        (fun _ _ => rfl) (fun _ => isSome_onceRead) (by simp [shape]) ?_ rfl
      intro taken
      simp (disch := decide) only [drafted, onceRead_cons_self, onceRead_cons_of_ne]
  finish := by
    intro taken rest
    simp only [parts, List.forall_mem_cons, Part.single, or_false] at rest
    obtain ⟨name, kind, compounds, _⟩ := rest
    simp only [shape, drafted, onceRead_of_mem name, onceRead_of_mem kind,
      getD_onceRead compounds]

theorem laidOut_toJson (row : VariantRow) : LaidOut row.parts row.toJson.node := by
  rw [toJson, Value.node_object]
  refine .object ?_ ?_ ?_
  · simp [Value.field]
  · simp [Value.field, parts, Part.single, Part.key, Value.node]
  · simp [Value.field, parts, Part.single, Part.key]

theorem laidOut_name_kind {row : VariantRow} (compounds : row.compounds = true) :
    LaidOut row.parts (Value.object
      [Value.field "name" (.string row.name), Value.field "kind" row.kind.toJson]).node := by
  rw [Value.node_object]
  refine .object ?_ ?_ ?_
  · simp [Value.field]
  · simp [Value.field, parts, Part.single, Part.key, Value.node]
  · simp [Value.field, parts, Part.single, Part.key, compounds]

theorem decoder_of_laidOut {row : VariantRow} {node : Node} (laid : LaidOut row.parts node) :
    decoder node = .ok row :=
  Decoder.record_of_laidOut row.assembles laid

theorem refused_of_overfull {row : VariantRow} {node : Node} {spare : Except Fault Unit}
    (overfull : Overfull row.parts node spare) : Refused (decoder node) spare :=
  Decoder.refused_record_of_overfull row.assembles overfull

end VariantRow

namespace Snapshot

/-- The limit of a snapshot, or nothing. -/
def limitNode : Option Nat → Node
  | none => .null
  | some limit => .number (.natural limit)

/-- The rows of a snapshot are records with layouts of their own. -/
def variantsPart (rows : List VariantRow) : Part where
  name := "variants"
  optional := rows = []
  written := fun node => ∃ nodes, node = .array nodes .closed ∧
    List.Forall₂ (fun row => LaidOut row.parts) rows nodes
  check := fun node => (Decoder.list VariantRow.decoder node).map fun _ => ()
  overfull := fun node spare => ∃ nodes, node = .array nodes .closed ∧
    OverfullItems (fun row => LaidOut row.parts) (fun row => Overfull row.parts) rows nodes spare

/-- What may be written for a snapshot. -/
def parts (snapshot : Snapshot) : List Part :=
  [{ name := "utilities"
     optional := snapshot.utilities = {}
     written := LaidOut snapshot.utilities.parts
     check := fun node => (UtilityLists.decoder node).map fun _ => ()
     overfull := Overfull snapshot.utilities.parts },
    variantsPart snapshot.variants,
    .single "maxVariantDepth" (snapshot.maxVariantDepth = none)
      (limitNode snapshot.maxVariantDepth) (Decoder.optionalNatural "usize")]

/-- The draft of a snapshot after some of its keys. -/
def drafted (snapshot : Snapshot) (taken : List Text) : Draft where
  utilities := onceRead "utilities" taken snapshot.utilities
  variants := onceRead "variants" taken snapshot.variants
  maxVariantDepth := onceRead "maxVariantDepth" taken snapshot.maxVariantDepth

theorem assembles (snapshot : Snapshot) :
    Assembles shape {} snapshot.parts snapshot snapshot.drafted where
  distinct := by simp [parts, variantsPart, Part.key, Part.single]
  start := rfl
  fills := by
    refine .cons ?utilities (.cons ?variants (.cons ?limit .nil))
    case utilities =>
      refine Fills.of_decoder UtilityLists.decoder
        (fun lists draft => { draft with utilities := some lists }) snapshot.utilities
        rfl (fun _ => rfl) (fun _ _ => rfl) (fun _ => isSome_onceRead) (by simp [shape]) ?_
        (fun _ => UtilityLists.decoder_of_laidOut) (fun _ _ => UtilityLists.refused_of_overfull)
      intro taken
      simp (disch := decide) only [drafted, Part.key, onceRead_cons_self, onceRead_cons_of_ne]
    case variants =>
      refine Fills.of_decoder (Decoder.list VariantRow.decoder)
        (fun rows draft => { draft with variants := some rows }) snapshot.variants
        rfl (fun _ => rfl) (fun _ _ => rfl) (fun _ => isSome_onceRead) (by simp [shape]) ?_ ?_ ?_
      · intro taken
        simp (disch := decide) only [drafted, Part.key, variantsPart, onceRead_cons_self,
          onceRead_cons_of_ne]
      · rintro _ ⟨nodes, rfl, each⟩
        exact Decoder.list_of_each (fun _ _ => VariantRow.decoder_of_laidOut) each
      · rintro _ spare ⟨nodes, rfl, each⟩
        refine Decoder.refused_list ?_ ?_ each
        · exact fun _ _ => VariantRow.decoder_of_laidOut
        · exact fun _ _ _ => VariantRow.refused_of_overfull
    case limit =>
      have limit : Decoder.optionalNatural "usize" (limitNode snapshot.maxVariantDepth) =
          .ok snapshot.maxVariantDepth := by
        cases snapshot.maxVariantDepth <;> rfl
      refine Fills.single (Decoder.optionalNatural "usize")
        (fun limit draft => { draft with maxVariantDepth := some limit }) snapshot.maxVariantDepth
        (fun _ _ => rfl) (fun _ => isSome_onceRead) (by simp [shape]) ?_ limit
      intro taken
      simp (disch := decide) only [drafted, onceRead_cons_self, onceRead_cons_of_ne]
  finish := by
    intro taken rest
    simp only [parts, List.forall_mem_cons, variantsPart, Part.single] at rest
    obtain ⟨utilities, variants, limit, _⟩ := rest
    simp only [shape, drafted, getD_onceRead utilities, getD_onceRead variants,
      getD_onceRead limit]

theorem laidOut_toJson (snapshot : Snapshot) : LaidOut snapshot.parts snapshot.toJson.node := by
  obtain ⟨lists, rows, limit⟩ := snapshot
  have utilities : LaidOut lists.parts lists.toJson.node := lists.laidOut_toJson
  have variants : ∀ row ∈ rows, LaidOut row.parts row.toJson.node :=
    fun row _ => row.laidOut_toJson
  have depth (value : Nat) : (Value.natural value).node = limitNode (some value) := rfl
  rw [toJson, Value.node_object]
  refine .object ?_ ?_ ?_
  · cases limit <;> simp [Value.field]
  · cases limit <;>
      simpa [Value.field, parts, variantsPart, Part.single, Part.key, Value.node_array, utilities,
        depth] using variants
  · cases limit <;> simp [Value.field, parts, variantsPart, Part.single, Part.key]

theorem decoder_of_laidOut {snapshot : Snapshot} {node : Node}
    (laid : LaidOut snapshot.parts node) : decoder node = .ok snapshot :=
  Decoder.record_of_laidOut snapshot.assembles laid

theorem refused_of_overfull {snapshot : Snapshot} {node : Node} {spare : Except Fault Unit}
    (overfull : Overfull snapshot.parts node spare) : Refused (decoder node) spare :=
  Decoder.refused_record_of_overfull snapshot.assembles overfull

end Snapshot

end UtilityClass
