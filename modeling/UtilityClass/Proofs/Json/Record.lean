import UtilityClass.Proofs.Json.Layout

/-!
# Reading a record from its layouts

A record is decoded from every layout of it, and every layout with one key too many is
refused.  Both are shown for any shape whose fields fill a draft the way its parts are
written: what is known of the draft depends only on the keys that have been read, and each
pair of an object preserves that.
-/

namespace UtilityClass.Json.Decoder

variable {α Draft : Type}

theorem members_append (fields : List (Field Draft)) (draft : Draft)
    (pairs others : List (Text × Node)) :
    members fields draft (pairs ++ others) =
      (members fields draft pairs).bind fun next => members fields next others := by
  induction pairs generalizing draft with
  | nil => rfl
  | cons pair pairs induction =>
      obtain ⟨key, node⟩ := pair
      simp only [List.cons_append, members, bind]
      cases member fields draft key node with
      | error fault => rfl
      | ok next => exact induction next

/-- What each pair preserves, all pairs do.  The invariant may speak of the keys that have
been taken in. -/
theorem members_run {fields : List (Field Draft)} {Inv : List Text → Draft → Prop}
    {pairs : List (Text × Node)} {taken : List Text} {draft : Draft}
    (step : ∀ pair ∈ pairs, ∀ taken draft, pair.1 ∉ taken → Inv taken draft →
      ∃ next, member fields draft pair.1 pair.2 = .ok next ∧ Inv (pair.1 :: taken) next)
    (distinct : (pairs.map Prod.fst).Nodup) (fresh : ∀ pair ∈ pairs, pair.1 ∉ taken)
    (start : Inv taken draft) :
    ∃ next, members fields draft pairs = .ok next ∧
      Inv ((pairs.map Prod.fst).reverse ++ taken) next := by
  induction pairs generalizing taken draft with
  | nil => exact ⟨draft, rfl, start⟩
  | cons pair pairs induction =>
      obtain ⟨stepFirst, stepOthers⟩ := List.forall_mem_cons.mp step
      obtain ⟨freshFirst, freshOthers⟩ := List.forall_mem_cons.mp fresh
      rw [List.map_cons, List.nodup_cons] at distinct
      obtain ⟨notAgain, othersDistinct⟩ := distinct
      obtain ⟨next, first, inv⟩ := stepFirst taken draft freshFirst start
      have othersFresh : ∀ other ∈ pairs, other.1 ∉ pair.1 :: taken := by
        intro other otherMember inTaken
        rcases List.mem_cons.mp inTaken with same | later
        · exact notAgain (List.mem_map.mpr ⟨other, otherMember, same⟩)
        · exact freshOthers other otherMember later
      obtain ⟨last, others, lastInv⟩ := induction stepOthers othersDistinct othersFresh inv
      refine ⟨last, ?_, by simpa using lastInv⟩
      simp only [members, first, bind, Except.bind, others]

/-- How a field of a shape takes in what may be written for it.  `drafted taken` is the draft
of a record of which the keys `taken` have been read. -/
structure Fills (fields : List (Field Draft)) (drafted : List Text → Draft)
    (field : Field Draft) (part : Part) : Prop where
  name : field.name = part.name
  isSet : ∀ taken, field.isSet (drafted taken) = decide (part.key ∈ taken)
  fill : ∀ {node}, part.written node → ∀ taken,
    field.fill node (drafted taken) = .ok (drafted (part.key :: taken))
  /-- Any node that the field accepts sets the field and no other one. -/
  accepts : ∀ {node}, part.check node = .ok () → ∀ draft, ∃ next,
    field.fill node draft = .ok next ∧
      ∀ other ∈ fields, other.isSet next = (other.isSet draft || decide (other.name = field.name))
  refuses : ∀ {node fault}, part.check node = .error fault → ∀ draft,
    field.fill node draft = .error fault
  refused : ∀ {node spare}, part.overfull node spare → Refused (part.check node) spare

/-- The draft of a record, and what it becomes in the end. -/
structure Assembles (shape : Shape Draft α) (empty : Draft) (parts : List Part) (value : α)
    (drafted : List Text → Draft) : Prop where
  distinct : (parts.map Part.key).Nodup
  fills : List.Forall₂ (Fills shape.fields drafted) shape.fields parts
  start : drafted [] = empty
  finish : ∀ taken, (∀ part ∈ parts, part.key ∈ taken ∨ part.optional) →
    shape.finish (drafted taken) = .ok value

section Fields

variable {all fields : List (Field Draft)} {drafted : List Text → Draft} {field : Field Draft}
  {part : Part} {parts : List Part} {node : Node}

theorem Fills.key (fills : Fills all drafted field part) : field.name.toList = part.key :=
  congrArg String.toList fills.name

theorem Fills.check (fills : Fills all drafted field part) (written : part.written node) :
    part.check node = .ok () := by
  cases checked : part.check node with
  | ok _ => rfl
  | error fault =>
      have read := fills.fill written []
      rw [fills.refuses checked] at read
      cases read

/-- A field that is decoded and then put into the draft. -/
theorem Fills.of_decoder (decoder : Decoder α) (put : α → Draft → Draft) (value : α)
    (name : field.name = part.name)
    (check : ∀ node, part.check node = (decoder node).map fun _ => ())
    (fill : ∀ node draft, field.fill node draft = (decoder node).map fun found => put found draft)
    (isSet : ∀ taken, field.isSet (drafted taken) = decide (part.key ∈ taken))
    (sets : ∀ found draft, ∀ other ∈ all,
      other.isSet (put found draft) = (other.isSet draft || decide (other.name = field.name)))
    (put_drafted : ∀ taken, put value (drafted taken) = drafted (part.key :: taken))
    (reads : ∀ node, part.written node → decoder node = .ok value)
    (refused : ∀ node spare, part.overfull node spare → Refused (decoder node) spare) :
    Fills all drafted field part where
  name := name
  isSet := isSet
  fill := by
    intro node written taken
    rw [fill, reads node written, Except.map, put_drafted]
  accepts := by
    intro node checked draft
    rw [check] at checked
    cases read : decoder node with
    | error fault =>
        rw [read] at checked
        cases checked
    | ok found => exact ⟨put found draft, by rw [fill, read, Except.map], sets found draft⟩
  refuses := by
    intro node fault checked draft
    rw [check] at checked
    cases read : decoder node with
    | error found =>
        rw [read] at checked
        cases checked
        rw [fill, read, Except.map]
    | ok found =>
        rw [read] at checked
        cases checked
  refused := by
    intro node spare overfull
    rw [check]
    exact (refused node spare overfull).map _

theorem Fills.single {optional : Prop} {written : Node} (decoder : Decoder α)
    (put : α → Draft → Draft) (value : α)
    (fill : ∀ node draft, field.fill node draft = (decoder node).map fun found => put found draft)
    (isSet : ∀ taken, field.isSet (drafted taken) = decide (field.name.toList ∈ taken))
    (sets : ∀ found draft, ∀ other ∈ all,
      other.isSet (put found draft) = (other.isSet draft || decide (other.name = field.name)))
    (put_drafted : ∀ taken, put value (drafted taken) = drafted (field.name.toList :: taken))
    (reads : decoder written = .ok value) :
    Fills all drafted field (.single field.name optional written decoder) :=
  .of_decoder decoder put value rfl (fun _ => rfl) fill isSet sets put_drafted
    (fun _ same => same ▸ reads) (fun _ _ => False.elim)

theorem Fills.refused_fill (fills : Fills all drafted field part) {spare : Except Fault Unit}
    (overfull : part.overfull node spare) (draft : Draft) :
    Refused (field.fill node draft) spare := by
  have refused := fills.refused overfull
  generalize checked : part.check node = result at refused
  cases refused with
  | mismatch mismatch =>
      rw [fills.refuses checked]
      exact .mismatch mismatch
  | fault fault =>
      rw [fills.refuses checked]
      exact .fault fault

theorem exists_field (fills : List.Forall₂ (Fills all drafted) fields parts)
    (distinct : (parts.map Part.key).Nodup) (known : part ∈ parts) :
    ∃ field ∈ fields, Fills all drafted field part ∧
      fields.find? (·.name.toList = part.key) = some field := by
  induction fills with
  | nil => exact absurd known List.not_mem_nil
  | @cons field other fields parts first _ induction =>
      rw [List.map_cons, List.nodup_cons] at distinct
      obtain ⟨notAgain, othersDistinct⟩ := distinct
      rcases List.mem_cons.mp known with rfl | later
      · exact ⟨field, List.mem_cons_self, first,
          List.find?_cons_of_pos (decide_eq_true first.key)⟩
      · obtain ⟨found, member, foundFills, finds⟩ := induction othersDistinct later
        refine ⟨found, List.mem_cons_of_mem _ member, foundFills, ?_⟩
        have different : ¬ field.name.toList = part.key := by
          intro same
          exact notAgain (List.mem_map.mpr ⟨part, later, same.symm.trans first.key⟩)
        rw [List.find?_cons_of_neg (by simpa using different), finds]

theorem find?_eq_none_of_notKnown {key : Text}
    (fills : List.Forall₂ (Fills all drafted) fields parts)
    (notKnown : ∀ part ∈ parts, part.key ≠ key) :
    fields.find? (·.name.toList = key) = none := by
  induction fills with
  | nil => rfl
  | cons first _ induction =>
      obtain ⟨different, others⟩ := List.forall_mem_cons.mp notKnown
      rw [← first.key] at different
      rw [List.find?_cons_of_neg (by simpa using different), induction others]

/-- A draft has the fields of these keys and no others. -/
def HasRead (fields : List (Field Draft)) (taken : List Text) (draft : Draft) : Prop :=
  ∀ field ∈ fields, field.isSet draft = decide (field.name.toList ∈ taken)

theorem hasRead_drafted (fills : List.Forall₂ (Fills all drafted) fields parts)
    (taken : List Text) : HasRead fields taken (drafted taken) := by
  induction fills with
  | nil => exact List.forall_mem_nil _
  | cons first _ induction =>
      refine List.forall_mem_cons.mpr ⟨?_, induction⟩
      rw [first.isSet, first.key]

theorem elements_written {front back : List Part} {nodes : List Node}
    (each : List.Forall₂ (fun part node => part.written node) front nodes)
    (fills : List.Forall₂ (Fills all drafted) fields (front ++ back)) (taken : List Text)
    (more : List Node) :
    ∃ others, List.Forall₂ (Fills all drafted) others back ∧
      elements fields (drafted taken) (nodes ++ more) =
        elements others (drafted ((front.map Part.key).reverse ++ taken)) more := by
  induction each generalizing fields taken with
  | nil => exact ⟨fields, fills, rfl⟩
  | @cons part node front nodes written _ induction =>
      cases fills with
      | cons first later =>
          obtain ⟨others, othersFill, read⟩ := induction later (part.key :: taken)
          refine ⟨others, othersFill, ?_⟩
          simp only [List.cons_append, elements, first.fill written, bind, Except.bind, read,
            List.map_cons, List.reverse_cons, List.append_assoc, List.nil_append]

end Fields

section Records

variable {shape : Shape Draft α} {empty : Draft} {parts : List Part} {value : α}
  {drafted : List Text → Draft}

namespace Assembles

theorem exists_member_eq_fill (assembles : Assembles shape empty parts value drafted)
    {part : Part} {taken : List Text} {draft : Draft} (known : part ∈ parts)
    (fresh : part.key ∉ taken) (hasRead : HasRead shape.fields taken draft) (node : Node) :
    ∃ field, Fills shape.fields drafted field part ∧
      member shape.fields draft part.key node = field.fill node draft := by
  obtain ⟨field, fieldMember, fills, finds⟩ :=
    exists_field assembles.fills assembles.distinct known
  have notSet : field.isSet draft = false := by
    rw [hasRead field fieldMember, fills.key, decide_eq_false fresh]
  exact ⟨field, fills, by simp [member, finds, notSet]⟩

theorem refused_member_again (assembles : Assembles shape empty parts value drafted)
    {part : Part} {taken : List Text} {draft : Draft} (known : part ∈ parts)
    (again : part.key ∈ taken) (hasRead : HasRead shape.fields taken draft) (node : Node) :
    Refused (member shape.fields draft part.key node) (.ok ()) := by
  obtain ⟨field, fieldMember, fills, finds⟩ :=
    exists_field assembles.fills assembles.distinct known
  have isSet : field.isSet draft = true := by
    rw [hasRead field fieldMember, fills.key, decide_eq_true again]
  simp only [member, finds, isSet, if_true]
  exact .mismatch _

theorem member_unknown (assembles : Assembles shape empty parts value drafted) {key : Text}
    (notKnown : ∀ part ∈ parts, part.key ≠ key) (draft : Draft) (node : Node) :
    member shape.fields draft key node =
      .error (.mismatch (.unknownField key (shape.fields.map (·.name)))) := by
  simp only [member, find?_eq_none_of_notKnown assembles.fills notKnown]

theorem members_written (assembles : Assembles shape empty parts value drafted)
    {pairs : List (Text × Node)} (distinct : (pairs.map Prod.fst).Nodup)
    (each : ∀ pair ∈ pairs, ∃ part ∈ parts, pair.1 = part.key ∧ part.written pair.2) :
    members shape.fields empty pairs = .ok (drafted (pairs.map Prod.fst).reverse) := by
  have step : ∀ pair ∈ pairs, ∀ taken draft, pair.1 ∉ taken → draft = drafted taken →
      ∃ next, member shape.fields draft pair.1 pair.2 = .ok next ∧
        next = drafted (pair.1 :: taken) := by
    rintro ⟨key, node⟩ pairMember taken draft fresh rfl
    obtain ⟨part, known, rfl, written⟩ := each (key, node) pairMember
    obtain ⟨field, fills, read⟩ :=
      assembles.exists_member_eq_fill known fresh (hasRead_drafted assembles.fills taken) node
    exact ⟨_, read.trans (fills.fill written taken), rfl⟩
  have noneTaken : ∀ pair ∈ pairs, pair.1 ∉ ([] : List Text) := fun _ _ => List.not_mem_nil
  obtain ⟨last, run, rfl⟩ := members_run step distinct noneTaken assembles.start.symm
  rw [run, List.append_nil]

/-- A new key with an acceptable node is taken in, also with another value than the
record's. -/
theorem member_accepted (assembles : Assembles shape empty parts value drafted)
    {part : Part} {taken : List Text} {draft : Draft} {node : Node} (known : part ∈ parts)
    (fresh : part.key ∉ taken) (hasRead : HasRead shape.fields taken draft)
    (checked : part.check node = .ok ()) :
    ∃ next, member shape.fields draft part.key node = .ok next ∧
      HasRead shape.fields (part.key :: taken) next := by
  obtain ⟨field, fills, read⟩ := assembles.exists_member_eq_fill known fresh hasRead node
  obtain ⟨next, filled, sets⟩ := fills.accepts checked draft
  refine ⟨next, read.trans filled, ?_⟩
  intro other otherMember
  rw [sets other otherMember, hasRead other otherMember, ← fills.key]
  simp [Bool.or_comm, String.toList_inj]

theorem refused_members_again (assembles : Assembles shape empty parts value drafted)
    {part : Part} {taken : List Text} {draft : Draft} {between after : List (Text × Node)}
    {node : Node} (known : part ∈ parts) (again : part.key ∈ taken)
    (hasRead : HasRead shape.fields taken draft) (distinct : (between.map Prod.fst).Nodup)
    (each : ∀ pair ∈ between, ∃ part ∈ parts, pair.1 = part.key ∧ part.written pair.2)
    (fresh : ∀ pair ∈ between, pair.1 ∉ taken) :
    Refused (members shape.fields draft (between ++ (part.key, node) :: after)) (.ok ()) := by
  -- The early key may have put another value into the draft, so the invariant only says which
  -- fields are set.
  have step : ∀ pair ∈ between, ∀ taken draft, pair.1 ∉ taken →
      HasRead shape.fields taken draft → ∃ next,
        member shape.fields draft pair.1 pair.2 = .ok next ∧
          HasRead shape.fields (pair.1 :: taken) next := by
    rintro ⟨key, node⟩ pairMember taken draft fresh hasRead
    obtain ⟨part, known, rfl, written⟩ := each (key, node) pairMember
    obtain ⟨field, _, fills, _⟩ := exists_field assembles.fills assembles.distinct known
    exact assembles.member_accepted known fresh hasRead (fills.check written)
  obtain ⟨next, run, nextHasRead⟩ := members_run step distinct fresh hasRead
  have stillRead : part.key ∈ (between.map Prod.fst).reverse ++ taken :=
    List.mem_append_right _ again
  rw [members_append, run]
  exact (assembles.refused_member_again known stillRead nextHasRead node).bind _

end Assembles

/-- A record is read from every layout of it. -/
theorem record_of_laidOut (assembles : Assembles shape empty parts value drafted) {node : Node}
    (laid : LaidOut parts node) : record shape empty node = .ok value := by
  cases laid with
  | @object pairs distinct each rest =>
      have finished : shape.finish (drafted (pairs.map Prod.fst).reverse) = .ok value := by
        apply assembles.finish
        intro part known
        exact (rest part known).imp_left List.mem_reverse.mpr
      simp only [record, assembles.members_written distinct each, Ending.check, bind, Except.bind,
        finished, Except.mapError]
  | @array front back nodes split each rest =>
      obtain rfl := split
      obtain ⟨others, _, read⟩ := elements_written each assembles.fills [] []
      rw [List.append_nil, List.append_nil, assembles.start] at read
      have finished : shape.finish (drafted (front.map Part.key).reverse) = .ok value := by
        apply assembles.finish
        intro part known
        rcases List.mem_append.mp known with inFront | inBack
        · exact .inl (List.mem_reverse.mpr (List.mem_map_of_mem inFront))
        · exact .inr (rest part inBack)
      simp only [record, read, elements, Ending.check, bind, Except.bind, finished,
        Except.mapError]

theorem Refused.members {fields : List (Field Draft)} {draft : Draft} {key : Text} {node : Node}
    {spare : Except Fault Unit} (refused : Refused (member fields draft key node) spare)
    (after : List (Text × Node)) :
    Refused (Decoder.members fields draft ((key, node) :: after)) spare := by
  simp only [Decoder.members]
  exact refused.bind _

theorem refused_record_of_members {draft : Draft} {before others : List (Text × Node)}
    {spare : Except Fault Unit} (run : members shape.fields empty before = .ok draft)
    (refused : Refused (members shape.fields draft others) spare) :
    Refused (record shape empty (.object (before ++ others) .closed)) spare := by
  simp only [record, members_append, run]
  exact refused.bind _

theorem Assembles.members_front (assembles : Assembles shape empty parts value drafted)
    {before others : List (Text × Node)}
    (laid : LaidOut parts (.object (before ++ others) .closed)) :
    members shape.fields empty before = .ok (drafted (before.map Prod.fst).reverse) := by
  have distinct := laid.distinct
  rw [List.map_append] at distinct
  exact assembles.members_written (List.nodup_append.mp distinct).1 fun pair pairMember =>
    laid.each pair (List.mem_append_left _ pairMember)

theorem refused_record_of_unknown (assembles : Assembles shape empty parts value drafted)
    {before after : List (Text × Node)} {key : Text} {node : Node}
    (laid : LaidOut parts (.object (before ++ after) .closed))
    (notKnown : ∀ part ∈ parts, part.key ≠ key) :
    Refused (record shape empty (.object (before ++ (key, node) :: after) .closed)) (.ok ()) := by
  apply refused_record_of_members (assembles.members_front laid)
  apply Refused.members
  rw [assembles.member_unknown notKnown]
  exact .mismatch _

theorem refused_record_of_behind (assembles : Assembles shape empty parts value drafted)
    {before after : List (Text × Node)} {key : Text} {node : Node}
    (laid : LaidOut parts (.object (before ++ after) .closed))
    (present : key ∈ before.map Prod.fst) :
    Refused (record shape empty (.object (before ++ (key, node) :: after) .closed)) (.ok ()) := by
  apply refused_record_of_members (assembles.members_front laid)
  apply Refused.members
  obtain ⟨pair, pairMember, rfl⟩ := List.mem_map.mp present
  obtain ⟨part, known, same, _⟩ := laid.each pair (List.mem_append_left _ pairMember)
  rw [same] at present ⊢
  exact assembles.refused_member_again known (List.mem_reverse.mpr present)
    (hasRead_drafted assembles.fills _) node

/-- A key that stands in front of the one it repeats, with a node that its field accepts: the
pairs up to the repeated key are taken in. -/
theorem refused_record_of_accepted (assembles : Assembles shape empty parts value drafted)
    {before after : List (Text × Node)} {part : Part} {node : Node}
    (laid : LaidOut parts (.object (before ++ after) .closed)) (known : part ∈ parts)
    (present : part.key ∈ after.map Prod.fst) (checked : part.check node = .ok ()) :
    Refused (record shape empty (.object (before ++ (part.key, node) :: after) .closed))
      (.ok ()) := by
  have fresh : part.key ∉ (before.map Prod.fst).reverse :=
    List.mem_reverse.not.mpr (laid.not_mem_front present)
  obtain ⟨next, read, nextRead⟩ := assembles.member_accepted known fresh
    (hasRead_drafted assembles.fills _) checked
  obtain ⟨⟨key, again⟩, pairMember, rfl⟩ := List.mem_map.mp present
  obtain ⟨between, last, rfl⟩ := List.append_of_mem pairMember
  have laidBetween : LaidOut parts (.object ((before ++ between) ++ (part.key, again) :: last)
      .closed) := by
    rwa [List.append_assoc]
  have betweenDistinct : (between.map Prod.fst).Nodup := by
    have distinct := laidBetween.distinct
    simp only [List.map_append, List.nodup_append] at distinct
    exact distinct.1.2.1
  have betweenEach : ∀ pair ∈ between, ∃ part ∈ parts,
      pair.1 = part.key ∧ part.written pair.2 := fun pair pairMember =>
    laid.each pair (List.mem_append_right _ (List.mem_append_left _ pairMember))
  have betweenFresh : ∀ pair ∈ between, pair.1 ∉ part.key :: (before.map Prod.fst).reverse := by
    intro pair pairMember taken
    have inBetween : pair.1 ∈ between.map Prod.fst := List.mem_map_of_mem pairMember
    rcases List.mem_cons.mp taken with same | inFront
    · have notBetween : part.key ∉ (before ++ between).map Prod.fst :=
        laidBetween.not_mem_front List.mem_cons_self
      rw [List.map_append, ← same] at notBetween
      exact notBetween (List.mem_append_right _ inBetween)
    · refine laid.not_mem_front ?_ (List.mem_reverse.mp inFront)
      rw [List.map_append]
      exact List.mem_append_left _ inBetween
  have refused : Refused
      (members shape.fields next (between ++ (part.key, again) :: last)) (.ok ()) :=
    assembles.refused_members_again known List.mem_cons_self nextRead betweenDistinct betweenEach
      betweenFresh
  apply refused_record_of_members (assembles.members_front laid)
  simpa only [members, read, bind, Except.bind] using refused

theorem refused_record_of_inFront (assembles : Assembles shape empty parts value drafted)
    {before after : List (Text × Node)} {part : Part} {node : Node}
    (laid : LaidOut parts (.object (before ++ after) .closed)) (known : part ∈ parts)
    (present : part.key ∈ after.map Prod.fst) :
    Refused (record shape empty (.object (before ++ (part.key, node) :: after) .closed))
      (part.check node) := by
  cases checked : part.check node with
  | ok _ => exact refused_record_of_accepted assembles laid known present checked
  | error fault =>
      have fresh : part.key ∉ (before.map Prod.fst).reverse :=
        List.mem_reverse.not.mpr (laid.not_mem_front present)
      obtain ⟨field, fills, read⟩ := assembles.exists_member_eq_fill known fresh
        (hasRead_drafted assembles.fills _) node
      apply refused_record_of_members (assembles.members_front laid)
      apply Refused.members
      rw [read, fills.refuses checked]
      exact .fault fault

/-- A record is refused in every layout with one key too many. -/
theorem refused_record_of_overfull (assembles : Assembles shape empty parts value drafted)
    {node : Node} {spare : Except Fault Unit} (overfull : Overfull parts node spare) :
    Refused (record shape empty node) spare := by
  cases overfull with
  | unknown laid notKnown => exact refused_record_of_unknown assembles laid notKnown
  | behind laid present => exact refused_record_of_behind assembles laid present
  | inFront laid known present => exact refused_record_of_inFront assembles laid known present
  | @member before after part _ inner _ laid known inside =>
      have fresh : part.key ∉ (before.map Prod.fst).reverse :=
        List.mem_reverse.not.mpr (laid.not_mem_front List.mem_cons_self)
      obtain ⟨field, fills, read⟩ := assembles.exists_member_eq_fill known fresh
        (hasRead_drafted assembles.fills _) inner
      apply refused_record_of_members (assembles.members_front laid)
      apply Refused.members
      rw [read]
      exact fills.refused_fill inside _
  | @element front back before after part _ inner _ laid position index inside =>
      obtain ⟨others, fills, read⟩ := elements_written (laid.array_front position index)
        (position ▸ assembles.fills) [] (inner :: after)
      rw [assembles.start] at read
      cases fills with
      | cons first _ =>
          simp only [record, read, elements, bind]
          exact ((first.refused_fill inside _).bind _).bind _

end Records

section Drafts

/-- What a draft has of a value, once the keys `taken` have been read. -/
def onceRead (name : String) (taken : List Text) (value : α) : Option α :=
  if name.toList ∈ taken then some value else none

variable {name other : String} {taken : List Text} {value default : α}

@[simp] theorem isSome_onceRead :
    (onceRead name taken value).isSome = decide (name.toList ∈ taken) := by
  by_cases present : name.toList ∈ taken <;> simp [onceRead, present]

@[simp] theorem onceRead_cons_self : onceRead name (name.toList :: taken) value = some value := by
  simp [onceRead]

theorem onceRead_cons_of_ne (different : name ≠ other) :
    onceRead name (other.toList :: taken) value = onceRead name taken value := by
  simp [onceRead, String.toList_inj, different]

theorem onceRead_of_mem (present : name.toList ∈ taken) :
    onceRead name taken value = some value := by
  simp [onceRead, present]

theorem getD_onceRead (given : name.toList ∈ taken ∨ value = default) :
    (onceRead name taken value).getD default = value := by
  by_cases present : name.toList ∈ taken
  · simp [onceRead, present]
  · have isDefault : value = default := given.resolve_left present
    simp [onceRead, present, isDefault]

end Drafts

end UtilityClass.Json.Decoder
