import Mathlib.Data.List.Infix
import UtilityClass.Proofs.Text.Encoding

/-!
# Decoded values

Decoding leaves two things as they are written: the backslash pairs other than an escaped
underscore, and the parts from `url(` to the parenthesis that closes them.  A decoded value
therefore has its pairs and its `url(` parts where the bracket text has them.  Encoding it
and decoding it again gives the same value, and a `url(` part may be put behind any text
that leaves nothing open.
-/

namespace UtilityClass

namespace BracketState

/-- Where a decoded text stands when its bracket text stands in a state.  A pair is decoded
as a whole, so the decoded text does not wait for the second character. -/
def settled : BracketState → BracketState
  | plain | escape => plain
  | url opened => url opened

theorem settled_eq_self {state : BracketState} (free : state ≠ .escape) :
    state.settled = state := by
  cases state with
  | plain => rfl
  | escape => exact absurd rfl free
  | url opened => rfl

end BracketState

namespace Text

theorem startsUrl_decodeFrom {character : Char} (noBackslash : character ≠ '\\') (rest : Text) :
    BracketState.startsUrl character
        (decodeFrom (BracketState.plain.step character rest) rest) =
      BracketState.startsUrl character rest := by
  cases starts : BracketState.startsUrl character rest with
  | true =>
      have inUrl : BracketState.plain.step character rest = .url 0 := by
        simp [BracketState.step, noBackslash, starts]
      have letters : character = 'u' ∧ ['r', 'l', '('] <+: rest := by
        simpa [BracketState.startsUrl] using starts
      obtain ⟨rfl, behind, rfl⟩ := letters
      rw [inUrl]
      rfl
  | false =>
      have stays : BracketState.plain.step character rest = .plain := by
        simp [BracketState.step, noBackslash, starts]
      have same : ['r', 'l', '('] <+: rest.decode ↔ ['r', 'l', '('] <+: rest :=
        prefix_decode_iff (by simp [BracketState.Literal])
      rw [stays, ← starts]
      unfold BracketState.startsUrl
      rw [Bool.eq_iff_iff, Bool.and_eq_true, Bool.and_eq_true, List.isPrefixOf_iff_prefix,
        List.isPrefixOf_iff_prefix]
      exact and_congr_right fun _ => same

theorem keepsPairs_decodeFrom (state : BracketState) (text : Text) :
    KeepsPairs state.settled (decodeFrom state text) := by
  -- The induction is on the bracket text.  Its own pairs and `url(` parts are met again in
  -- the decoded text, where an escaped underscore is a plain one and no pair.
  induction text generalizing state with
  | nil =>
      cases state with
      | plain => trivial
      | escape => exact ⟨BracketState.noConfusion, trivial⟩
      | url opened => trivial
  | cons character rest induction =>
      have later := induction (state.step character rest)
      cases state with
      | escape =>
          by_cases underscore : character = '_'
          · subst underscore
            exact ⟨BracketState.noConfusion, later⟩
          · have read : BracketState.escape.decoded character = ['\\', character] := by
              simp [BracketState.decoded, underscore]
            rw [decodeFrom, read]
            exact ⟨BracketState.noConfusion, fun _ => underscore, later⟩
      | url opened =>
          rw [BracketState.settled_eq_self (BracketState.step_url_ne_escape opened character rest)]
            at later
          exact ⟨BracketState.noConfusion, later⟩
      | plain =>
          by_cases backslash : character = '\\'
          · subst backslash
            exact later
          by_cases underscore : character = '_'
          · subst underscore
            exact ⟨BracketState.noConfusion, later⟩
          · have read : BracketState.plain.decoded character = [character] := by
              simp [BracketState.decoded, backslash, underscore]
            have nextState : BracketState.plain.step character
                (decodeFrom (BracketState.plain.step character rest) rest) =
                  BracketState.plain.step character rest := by
              conv_lhs => rw [BracketState.step, startsUrl_decodeFrom backslash]
              rfl
            have free : BracketState.plain.step character rest ≠ .escape :=
              BracketState.step_ne_escape BracketState.noConfusion backslash rest
            rw [BracketState.settled_eq_self free] at later
            rw [decodeFrom, read, List.singleton_append]
            refine ⟨BracketState.noConfusion, ?_⟩
            rw [BracketState.settled, nextState]
            exact later

theorem decode_encode_of_keepsPairs {text : Text} (keeps : KeepsPairs .plain text) :
    text.encode.decode = text :=
  decodeFrom_encodeFrom keeps

/-- The decoded texts are those without an escaped underscore. -/
theorem exists_decode_eq_iff {text : Text} :
    (∃ raw : Text, raw.decode = text) ↔ KeepsPairs .plain text := by
  constructor
  · rintro ⟨raw, rfl⟩
    exact keepsPairs_decodeFrom .plain raw
  · intro keeps
    exact ⟨text.encode, decode_encode_of_keepsPairs keeps⟩

/-- Encoding is a right inverse of decoding on all that decoding answers, and on every text
without a backslash. -/
theorem encoding_inverts_decoding :
    (∀ raw : Text, raw.decode.encode.decode = raw.decode) ∧
      ∀ text : Text, '\\' ∉ text → text.encode.decode = text := by
  constructor
  · intro raw
    exact decode_encode_of_keepsPairs (exists_decode_eq_iff.mp ⟨raw, rfl⟩)
  · intro text noBackslash
    exact decode_encode noBackslash

/-- A row of backslashes, a `u` that a backslash hides, and a `url(` part without an end. -/
theorem encoding_inverts_decoding_open_url :
    let raw : Text := "\\\\_\\url(_)\\__url(a_\\".toList
    let text : Text := "a_b url(c d".toList
    raw.decode = "\\\\ \\url( )_ url(a_\\".toList ∧
      raw.decode.encode.decode = raw.decode ∧
      '\\' ∉ text ∧ text.encode = "a\\_b_url(c d".toList ∧ text.encode.decode = text := by
  intro raw text
  have noBackslash : '\\' ∉ text := by decide
  exact ⟨rfl, encoding_inverts_decoding.1 raw, noBackslash, rfl,
    encoding_inverts_decoding.2 text noBackslash⟩

section UrlParts

/-- A reading of the text ends with nothing open: no backslash waits for its character and
no `url(` part for its closing parenthesis. -/
def Complete (text : Text) : Prop :=
  BracketState.plain.after text = .plain

instance (text : Text) : Decidable text.Complete :=
  inferInstanceAs (Decidable (BracketState.plain.after text = .plain))

/-- Every closing parenthesis of the text has an opening one before it. -/
def OpensFirst (text : Text) : Prop :=
  ∀ front, front <+: text → front.count ')' ≤ front.count '('

instance (text : Text) : Decidable text.OpensFirst :=
  decidable_of_iff (∀ front ∈ text.inits, front.count ')' ≤ front.count '(')
    (by simp only [List.mem_inits, OpensFirst])

/-- The parentheses of the text match. -/
structure Parenthesized (text : Text) : Prop where
  opensFirst : text.OpensFirst
  balanced : text.count '(' = text.count ')'

theorem prefix_append_cons_iff {mark : Char} {word text rest : Text} (absent : mark ∉ word) :
    word <+: text ++ mark :: rest ↔ word <+: text := by
  constructor
  · intro starts
    rcases Nat.lt_or_ge text.length word.length with longer | shorter
    · have upToMark : text ++ [mark] <+: text ++ mark :: rest := ⟨rest, by simp⟩
      have inWord : text ++ [mark] <+: word :=
        List.prefix_of_prefix_length_le upToMark starts (by rwa [List.length_append])
      exact absurd (inWord.subset (by simp)) absent
    · exact List.prefix_of_prefix_length_le starts (List.prefix_append text _) shorter
  · intro starts
    exact starts.trans (List.prefix_append text _)

theorem startsUrl_append (character : Char) (text rest : Text) :
    BracketState.startsUrl character (text ++ 'u' :: rest) =
      BracketState.startsUrl character text := by
  unfold BracketState.startsUrl
  rw [Bool.eq_iff_iff, Bool.and_eq_true, Bool.and_eq_true, List.isPrefixOf_iff_prefix,
    List.isPrefixOf_iff_prefix, prefix_append_cons_iff (by decide)]

theorem step_append (state : BracketState) (character : Char) (text rest : Text) :
    state.step character (text ++ 'u' :: rest) = state.step character text := by
  cases state with
  | plain => simp only [BracketState.step, startsUrl_append]
  | escape => rfl
  | url opened => rfl

/-- Behind a text that leaves nothing open, decoding starts anew. -/
theorem decodeFrom_append {state : BracketState} {text : Text}
    (complete : state.after text = .plain) (rest : Text) :
    decodeFrom state (text ++ 'u' :: rest) = decodeFrom state text ++ decode ('u' :: rest) := by
  induction text generalizing state with
  | nil =>
      obtain rfl : state = .plain := complete
      rfl
  | cons character text induction =>
      have later : decodeFrom (state.step character text) (text ++ 'u' :: rest) =
          decodeFrom (state.step character text) text ++ decode ('u' :: rest) :=
        induction complete
      rw [List.cons_append, decodeFrom, step_append, later, decodeFrom, List.append_assoc]

/-- One character of a `url(` part opens or closes one parenthesis or none.  The part goes
on while one of them is open. -/
theorem step_url {opened : Nat} {character : Char}
    (staysOpen : [character].count ')' < opened + [character].count '(') (rest : Text) :
    (BracketState.url opened).step character rest =
      .url (opened + [character].count '(' - [character].count ')') := by
  by_cases opens : character = '('
  · subst opens
    rfl
  by_cases closes : character = ')'
  · subst closes
    have notLast : ¬opened ≤ 1 := Nat.not_le_of_gt staysOpen
    simp [BracketState.step, notLast]
  · simp [BracketState.step, opens, closes]

theorem decodeFrom_url_append {opened : Nat} {body : Text}
    (staysOpen : ∀ front, front <+: body → front.count ')' < opened + front.count '(')
    (rest : Text) :
    decodeFrom (.url opened) (body ++ rest) =
      body ++ decodeFrom (.url (opened + body.count '(' - body.count ')')) rest := by
  induction body generalizing opened with
  | nil => rfl
  | cons character body induction =>
      have split (mark : Char) (text : Text) :
          (character :: text).count mark = [character].count mark + text.count mark :=
        @List.count_append _ _ mark [character] text
      have first := staysOpen [character] (List.prefix_append [character] body)
      have behind : ∀ front, front <+: body → front.count ')' <
          opened + [character].count '(' - [character].count ')' + front.count '(' := by
        intro front starts
        have both := staysOpen (character :: front) (List.cons_prefix_cons.mpr ⟨rfl, starts⟩)
        rw [split ')' front, split '(' front] at both
        omega
      have later := induction behind
      have total : opened + [character].count '(' - [character].count ')' + body.count '(' -
          body.count ')' = opened + (character :: body).count '(' -
            (character :: body).count ')' := by
        have whole := staysOpen (character :: body) List.prefix_rfl
        rw [split ')' body, split '(' body] at whole ⊢
        omega
      rw [List.cons_append, decodeFrom, step_url first, later, total]
      rfl

/-- A `url(` part whose parentheses match is copied, wherever it stands.  So is one that is
never closed, up to the end of the text. -/
theorem url_parts_are_copied {text : Text} (complete : text.Complete) :
    (∀ body rest : Text, body.Parenthesized →
        decode (text ++ ("url(".toList ++ (body ++ ')' :: rest))) =
          text.decode ++ ("url(".toList ++ (body ++ ')' :: rest.decode))) ∧
      ∀ tail : Text, tail.OpensFirst →
        decode (text ++ ("url(".toList ++ tail)) = text.decode ++ ("url(".toList ++ tail) := by
  have starts (rest : Text) : decode (text ++ ("url(".toList ++ rest)) =
      text.decode ++ ("url(".toList ++ decodeFrom (.url 1) rest) :=
    decodeFrom_append complete _
  have staysOpen {body : Text} (opensFirst : body.OpensFirst) :
      ∀ front, front <+: body → front.count ')' < 1 + front.count '(' := by
    intro front inFront
    have counted := opensFirst front inFront
    omega
  constructor
  · intro body rest parenthesized
    have oneOpen : 1 + body.count '(' - body.count ')' = 1 := by
      rw [parenthesized.balanced, Nat.add_sub_cancel]
    rw [starts, decodeFrom_url_append (staysOpen parenthesized.opensFirst), oneOpen]
    rfl
  · intro tail opensFirst
    have copied := decodeFrom_url_append (staysOpen opensFirst) []
    rw [List.append_nil] at copied
    rw [starts, copied, decodeFrom, List.append_nil]

/-- Behind a pair of backslashes, a whole `url(` part and the letters `ur`: nested
parentheses with a backslash before one of them, and a tail that opens more than it closes. -/
theorem url_parts_are_copied_behind_ur :
    let text : Text := "a_\\\\_url(b_)_ur".toList
    let body : Text := "x_(\\)_(()_)\\".toList
    let tail : Text := "_(_)(".toList
    text.Complete ∧ body.Parenthesized ∧ tail.OpensFirst ∧
      decode (text ++ ("url(".toList ++ (body ++ ')' :: "_y".toList))) =
        "a \\\\ url(b_) ururl(x_(\\)_(()_)\\) y".toList ∧
      decode (text ++ ("url(".toList ++ tail)) = "a \\\\ url(b_) ururl(_(_)(".toList := by
  intro text body tail
  have complete : text.Complete := by decide
  have parenthesized : body.Parenthesized := ⟨by decide, by decide⟩
  have opensFirst : tail.OpensFirst := by decide
  have copied := url_parts_are_copied complete
  exact ⟨complete, parenthesized, opensFirst, copied.1 body "_y".toList parenthesized,
    copied.2 tail opensFirst⟩

end UrlParts

end Text

end UtilityClass
