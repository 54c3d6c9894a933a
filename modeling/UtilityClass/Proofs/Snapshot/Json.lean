import UtilityClass.Proofs.Snapshot.Layout

/-!
# Reading the text of a snapshot

The text that a snapshot is written as gives the node of one of its layouts, and so does every
other text of a layout.  The parts of a snapshot come back from their texts as well.
-/

namespace UtilityClass

open Json (Value Node Fault Decoder)
open Json.Decoder (Part LaidOut Overfull)

theorem UtilityLists.decoder_toJson (lists : UtilityLists) :
    UtilityLists.decoder lists.toJson.node = .ok lists :=
  UtilityLists.decoder_of_laidOut lists.laidOut_toJson

theorem VariantRow.decoder_toJson (row : VariantRow) :
    VariantRow.decoder row.toJson.node = .ok row :=
  VariantRow.decoder_of_laidOut row.laidOut_toJson

theorem Snapshot.decoder_toJson (snapshot : Snapshot) :
    Snapshot.decoder snapshot.toJson.node = .ok snapshot :=
  Snapshot.decoder_of_laidOut snapshot.laidOut_toJson

theorem UtilityLists.writable_toJson (lists : UtilityLists) : lists.toJson.Writable := by
  have names (list : List Text) : (Value.array (list.map .string)).Writable := by
    apply Value.writable_array
    intro item member
    obtain ⟨name, _, rfl⟩ := List.mem_map.mp member
    exact Value.writable_string name
  apply Value.writable_object
  simp [Value.field, names]

theorem VariantRow.writable_toJson (row : VariantRow) : row.toJson.Writable := by
  apply Value.writable_object
  simp [Value.field, Value.writable_string, VariantKind.toJson, Value.writable_bool]

theorem Snapshot.writable_toJson {snapshot : Snapshot}
    (fits : ∀ depth ∈ snapshot.maxVariantDepth, depth < UInt64.size) :
    snapshot.toJson.Writable := by
  obtain ⟨lists, rows, limit⟩ := snapshot
  have variants : (Value.array (rows.map VariantRow.toJson)).Writable := by
    apply Value.writable_array
    intro item member
    obtain ⟨row, _, rfl⟩ := List.mem_map.mp member
    exact VariantRow.writable_toJson row
  apply Value.writable_object
  cases limit with
  | none => simp [Value.field, UtilityLists.writable_toJson, variants]
  | some depth =>
      have depthFits : depth < UInt64.size := fits depth rfl
      simp [Value.field, UtilityLists.writable_toJson, variants,
        Value.writable_natural depthFits]

/-- Every snapshot is read back from its text as it was, whatever its names
are, as long as its limit fits 64 bits.  So are its two kinds of parts. -/
theorem written_snapshots_are_read_back :
    (∀ snapshot : Snapshot, (∀ depth ∈ snapshot.maxVariantDepth, depth < UInt64.size) →
        Snapshot.read snapshot.write = .ok snapshot) ∧
      (∀ lists : UtilityLists, UtilityLists.decoder.ofText lists.toJson.write = .ok lists) ∧
      ∀ row : VariantRow, VariantRow.decoder.ofText row.toJson.write = .ok row := by
  refine ⟨?_, ?_, ?_⟩
  · intro snapshot fits
    rw [Snapshot.read, Snapshot.write,
      Decoder.ofText_write (Snapshot.writable_toJson fits), Snapshot.decoder_toJson]
  · intro lists
    rw [Decoder.ofText_write lists.writable_toJson, UtilityLists.decoder_toJson]
  · intro row
    rw [Decoder.ofText_write row.writable_toJson, VariantRow.decoder_toJson]

/-- A repeated row, names that need escapes, and the greatest limit. -/
theorem written_snapshots_are_read_back_escapes :
    let row : VariantRow := ⟨"a\"\\\n\x01😀".toList, .compound, false⟩
    let lists : UtilityLists := ⟨["".toList, "\x7f/".toList], []⟩
    let rows := [row, { row with kind := .static }, row]
    let snapshot : Snapshot := ⟨lists, rows, some (UInt64.size - 1)⟩
    (∀ depth ∈ snapshot.maxVariantDepth, depth < UInt64.size) ∧
      row.name.flatMap Json.escape = "a\\\"\\\\\\n\\u0001😀".toList ∧
      Snapshot.read snapshot.write = .ok snapshot ∧
      UtilityLists.decoder.ofText lists.toJson.write = .ok lists ∧
      VariantRow.decoder.ofText row.toJson.write = .ok row := by
  intro row lists rows snapshot
  have fits : ∀ depth ∈ snapshot.maxVariantDepth, depth < UInt64.size := by
    intro depth member
    obtain rfl := Option.some.inj member
    decide
  obtain ⟨readsSnapshot, readsLists, readsRow⟩ := written_snapshots_are_read_back
  exact ⟨fits, by decide, readsSnapshot snapshot fits, readsLists lists, readsRow row⟩

namespace Snapshot

/-- A snapshot is read from every layout of its fields, the one it is written in among them,
with any white space around the tokens.  A layout with one key too many is refused: with a
mismatch, or with the fault of the node behind the key, if that is met before the key is known
to be repeated. -/
theorem read_depends_on_the_fields :
    (∀ snapshot : Snapshot, LaidOut snapshot.parts snapshot.toJson.node) ∧
    (∀ (snapshot : Snapshot) (node : Node) (text : Text), LaidOut snapshot.parts node →
      node.WrittenAs text → read text = .ok snapshot) ∧
    ∀ (snapshot : Snapshot) (node : Node) (spare : Except Fault Unit) (text : Text),
      Overfull snapshot.parts node spare → node.WrittenAs text →
        (spare = .ok () → ∃ mismatch, read text = .error (.mismatch mismatch)) ∧
          ∀ fault, spare = .error fault → read text = .error fault := by
  refine ⟨laidOut_toJson, ?_, ?_⟩
  · intro snapshot node text laid written
    rw [read, Decoder.ofText_eq written, decoder_of_laidOut laid]
  · intro snapshot node spare text overfull written
    have refused := refused_of_overfull overfull
    rw [read, Decoder.ofText_eq written]
    generalize decoder node = result at refused
    cases refused with
    | mismatch mismatch => exact ⟨fun _ => ⟨mismatch, rfl⟩, fun _ met => (nomatch met)⟩
    | fault fault =>
        refine ⟨fun fine => (nomatch fine), ?_⟩
        intro met same
        rw [Except.error.inj same]

/-- A snapshot as an array with a row whose fields are turned round, and its serialisation
with a table that comes again or that comes too early. -/
theorem read_depends_on_the_fields_hover :
    let row : VariantRow := ⟨"hover".toList, .static, true⟩
    let snapshot : Snapshot := ⟨{}, [row], none⟩
    let turned := [Value.field "kind" row.kind.toJson, Value.field "name" (.string row.name)]
    let node := (Value.array [.object [], .array [.object turned]]).node
    let text : Text := "[ \x7b\x7d,\n[\x7b\"kind\" : \"static\", \"name\":\"hover\"\x7d]\t]".toList
    let tables := [Value.field "utilities" snapshot.utilities.toJson,
      Value.field "variants" (.array [row.toJson])]
    let again := Value.object (tables ++ [Value.field "variants" .null])
    let early := Value.object (Value.field "variants" (.bool true) :: tables)
    let notAList := Fault.mismatch (.wrongType (.bool true) "a sequence")
    LaidOut snapshot.parts node ∧ node.WrittenAs text ∧ read text = .ok snapshot ∧
      Overfull snapshot.parts again.node (.ok ()) ∧ again.node.WrittenAs again.write ∧
      (∃ mismatch, read again.write = .error (.mismatch mismatch)) ∧
      Overfull snapshot.parts early.node (.error notAList) ∧ early.node.WrittenAs early.write ∧
      read early.write = .error notAList := by
  intro row snapshot turned node text tables again early notAList
  have rowLaid : LaidOut row.parts (Value.object turned).node := by
    have inOrder : LaidOut row.parts _ := VariantRow.laidOut_name_kind rfl
    rw [Value.node_object] at inOrder ⊢
    exact inOrder.perm (List.Perm.swap _ _ _)
  have listsLaid : LaidOut (UtilityLists.parts {}) (Value.object []).node := by
    refine .object List.nodup_nil (List.forall_mem_nil _) ?_
    simp [UtilityLists.parts, Part.single]
  have laid : LaidOut snapshot.parts node := by
    refine .array (List.take_append_drop 2 snapshot.parts).symm
      (.cons listsLaid (.cons ⟨_, rfl, .cons rowLaid .nil⟩ .nil)) ?_
    simp [parts, Part.single, snapshot]
  have written : node.WrittenAs text := by
    have spaced := @Json.spaced_flatMap
      [([], .openBracket), ([' '], .openBrace), ([], .closeBrace), ([], .comma),
        (['\n'], .openBracket), ([], .openBrace), ([], .string "kind".toList), ([' '], .colon),
        ([' '], .string "static".toList), ([], .comma), ([' '], .string "name".toList),
        ([], .colon), ([], .string "hover".toList), ([], .closeBrace), ([], .closeBracket),
        (['\t'], .closeBracket)] []
      (by simp [Json.Blank, Json.isSpace]) (by simp [Json.Token.Writable])
      (by simp [Json.Blank])
    exact ⟨Value.whole_node _, spaced⟩
  let nodes := tables.map fun (field : Text × Value) => (field.1, field.2.node)
  have tablesLaid : LaidOut snapshot.parts (.object nodes .closed) := snapshot.laidOut_toJson
  have againOverfull : Overfull snapshot.parts again.node (.ok ()) := by
    have present : "variants".toList ∈ tables.map Prod.fst := by simp [tables, Value.field]
    exact @Overfull.behind snapshot.parts nodes [] "variants".toList .null tablesLaid present
  have earlyOverfull : Overfull snapshot.parts early.node (.error notAList) := by
    refine @Overfull.inFront snapshot.parts [] nodes _ (.bool true) tablesLaid
      (List.mem_cons_of_mem _ List.mem_cons_self) ?_
    exact List.mem_cons_of_mem _ List.mem_cons_self
  have rowsWritable : (Value.array [row.toJson]).Writable :=
    Value.writable_array (by simpa using row.writable_toJson)
  have againWritten : again.node.WrittenAs again.write := by
    refine Value.writtenAs_write (Value.writable_object ?_)
    simp [tables, Value.field, UtilityLists.writable_toJson, rowsWritable, Value.writable_null]
  have earlyWritten : early.node.WrittenAs early.write := by
    refine Value.writtenAs_write (Value.writable_object ?_)
    simp [tables, Value.field, UtilityLists.writable_toJson, rowsWritable, Value.writable_bool]
  obtain ⟨_, reads, refuses⟩ := read_depends_on_the_fields
  exact ⟨laid, written, reads snapshot node text laid written, againOverfull, againWritten,
    (refuses snapshot _ _ _ againOverfull againWritten).1 rfl, earlyOverfull, earlyWritten,
    (refuses snapshot _ _ _ earlyOverfull earlyWritten).2 _ rfl⟩

/-- A layout in which a kind comes twice, and is `null` at first, fails with a break of the
text and not with a mismatch. -/
theorem repeated_kind_is_not_a_mismatch :
    let row : VariantRow := ⟨"hover".toList, .static, true⟩
    let snapshot : Snapshot := ⟨{}, [row], none⟩
    let fields := [Value.field "name" (.string row.name), Value.field "kind" row.kind.toJson]
    let value := Value.object
      [Value.field "variants" (.array [.object (Value.field "kind" .null :: fields)])]
    let text : Text :=
      "\x7b\"variants\":[\x7b\"kind\":null,\"name\":\"hover\",\"kind\":\"static\"\x7d]\x7d".toList
    Overfull snapshot.parts value.node (.error (.broken .malformed)) ∧
      value.node.WrittenAs text ∧ read text = .error (.broken .malformed) ∧
      ¬ ∃ mismatch, read text = .error (.mismatch mismatch) := by
  intro row snapshot fields value text
  have rowLaid : LaidOut row.parts (Value.object fields).node := VariantRow.laidOut_name_kind rfl
  have rowOverfull : Overfull row.parts (Value.object (Value.field "kind" .null :: fields)).node
      (.error (.broken .malformed)) := by
    refine @Overfull.inFront row.parts []
      (fields.map fun (field : Text × Value) => (field.1, field.2.node)) _ .null rowLaid
      (List.mem_cons_of_mem _ List.mem_cons_self) ?_
    exact List.mem_cons_of_mem _ List.mem_cons_self
  have laid : LaidOut snapshot.parts
      (.object [("variants".toList, .array [(Value.object fields).node] .closed)] .closed) := by
    have rowsLaid : (variantsPart [row]).written (.array [(Value.object fields).node] .closed) :=
      ⟨_, rfl, .cons rowLaid .nil⟩
    refine .object ?_ ?_ ?_
    · simp
    · intro pair member
      obtain rfl := List.mem_singleton.mp member
      exact ⟨variantsPart [row], List.mem_cons_of_mem _ List.mem_cons_self, rfl, rowsLaid⟩
    · simp [parts, snapshot, Part.single, Part.key, variantsPart]
  have overfull : Overfull snapshot.parts value.node (.error (.broken .malformed)) := by
    refine @Overfull.member snapshot.parts [] [] (variantsPart [row]) _ _ _ laid
      (List.mem_cons_of_mem _ List.mem_cons_self) ?_
    exact ⟨_, rfl, .here rowOverfull .nil⟩
  have written : value.node.WrittenAs text := by
    have spelled : text = value.write := by decide
    rw [spelled]
    have rowWritable : (Value.object (Value.field "kind" .null :: fields)).Writable := by
      apply Value.writable_object
      simp [fields, Value.field, VariantKind.toJson, Value.writable_null, Value.writable_string]
    refine Value.writtenAs_write (Value.writable_object ?_)
    simpa [Value.field] using Value.writable_array (List.forall_mem_singleton.mpr rowWritable)
  have failed : read text = .error (.broken .malformed) := by
    rw [read, Decoder.ofText_eq written]
    rfl
  refine ⟨overfull, written, failed, ?_⟩
  rintro ⟨mismatch, same⟩
  rw [failed] at same
  cases same

end Snapshot

end UtilityClass
