import RobotScript.Proofs.JsonText
import RobotScript.Proofs.StreamShape

/-!
# Tokens as JSON

A token is written as an object with a field for each of its parts, and a stream as the array of its
tokens. What is written stands for the token, if its numbers are machine integers, and for no other
one. The numbers of a stream are machine integers if the values of constants and the size of the
source are.

Results:

* `Token.ofJsonText?_toJsonText`: the token that the text of a token stands for.
* `Token.toJsonText_injective`: two tokens have two texts.
* `Token.written_toJsonText`: the text of a token, character by character.
* `Vocabulary.fits_stream`: the numbers of a stream.
* `Stream.json_roundTrip`: all of this for tokens and for the streams of sources.
-/

namespace RobotScript

/-! ## Tokens as JSON values -/

/-- The numbers of a token are machine integers. -/
structure Token.Fits (t : Token) : Prop where
  id : fitsInt64 t.id = true
  start : fitsWord64 t.span.start = true
  stop : fitsWord64 t.span.stop = true

namespace Token

theorem fits_iff {t : Token} : t.Fits ↔ fitsInt64 t.id = true ∧ fitsWord64 t.span.start = true ∧
    fitsWord64 t.span.stop = true :=
  ⟨fun h => ⟨h.id, h.start, h.stop⟩, fun h => ⟨h.1, h.2.1, h.2.2⟩⟩

instance (t : Token) : Decidable t.Fits := decidable_of_iff _ fits_iff.symm

theorem integral_toJson (t : Token) : t.toJson.Integral := by
  have hspan : (spanToJson t.span).Integral := by
    refine .object fun field hfield => ?_
    simp only [List.mem_cons, List.not_mem_nil, or_false] at hfield
    rcases hfield with rfl | rfl <;> exact .int _
  refine .object fun field hfield => ?_
  simp only [List.mem_cons, List.not_mem_nil, or_false] at hfield
  rcases hfield with rfl | rfl | rfl | rfl | rfl
  · exact .str _
  · exact .str _
  · exact .str _
  · exact .int _
  · exact hspan

theorem ofJsonName?_jsonName (kind : TokenKind) :
    TokenKind.ofJsonName? kind.jsonName = some kind := by
  cases kind <;> decide

theorem int64?_int (i : Int) :
    (Json.int i).int64? = if fitsInt64 i = true then some i else none := rfl

theorem nat64?_nat (n : Nat) :
    (Json.nat n).nat64? = if fitsWord64 n = true then some n else none := by
  simp [Json.nat, Json.nat64?]

theorem spanOfJson?_spanToJson (s : Span) :
    spanOfJson? (spanToJson s) =
      if fitsWord64 s.start = true ∧ fitsWord64 s.stop = true then some s else none := by
  have hstart : (spanToJson s).required "start" 0 Json.nat64? = (Json.nat s.start).nat64? := rfl
  have hstop : (spanToJson s).required "end" 1 Json.nat64? = (Json.nat s.stop).nat64? := rfl
  unfold spanOfJson?
  rw [hstart, hstop, nat64?_nat, nat64?_nat]
  by_cases h : fitsWord64 s.start = true
  · by_cases h' : fitsWord64 s.stop = true
    · rw [if_pos h, if_pos h', if_pos ⟨h, h'⟩]
      rfl
    · have hnot : ¬(fitsWord64 s.start = true ∧ fitsWord64 s.stop = true) := mt And.right h'
      rw [if_pos h, if_neg h', if_neg hnot]
      rfl
  · have hnot : ¬(fitsWord64 s.start = true ∧ fitsWord64 s.stop = true) := mt And.left h
    rw [if_neg h, if_neg hnot]
    rfl

/-- The JSON form of a token stands for the token if its numbers are machine integers, and for
nothing otherwise. -/
theorem ofJson?_toJson (t : Token) : ofJson? t.toJson = if t.Fits then some t else none := by
  have htext : t.toJson.required "text" 0 Json.str? = some t.text := rfl
  have hseparator : t.toJson.required "separator" 1 Json.str? = some t.separator := rfl
  have hkind : t.toJson.required "kind" 2 (Json.word? TokenKind.ofJsonName?) = some t.kind :=
    ofJsonName?_jsonName t.kind
  have hid : t.toJson.required "id" 3 Json.int64? = (Json.int t.id).int64? := rfl
  have hspan : t.toJson.required "span" 4 spanOfJson? = spanOfJson? (spanToJson t.span) := rfl
  unfold ofJson?
  rw [htext, hseparator, hkind, hid, hspan, int64?_int, spanOfJson?_spanToJson]
  by_cases hvalue : fitsInt64 t.id = true
  · by_cases hplace : fitsWord64 t.span.start = true ∧ fitsWord64 t.span.stop = true
    · rw [if_pos hvalue, if_pos hplace, if_pos (fits_iff.2 ⟨hvalue, hplace⟩)]
      rfl
    · rw [if_pos hvalue, if_neg hplace, if_neg fun h => hplace (fits_iff.1 h).2]
      rfl
  · rw [if_neg hvalue, if_neg (mt Fits.id hvalue)]
    rfl

/-- The text of a token stands for the token if its numbers are machine integers, and for nothing
otherwise. -/
theorem ofJsonText?_toJsonText (t : Token) :
    ofJsonText? t.toJsonText = if t.Fits then some t else none := by
  unfold ofJsonText? toJsonText
  rw [Json.parse?_compact t.integral_toJson, Option.bind_some, ofJson?_toJson]

theorem toJson_injective : Function.Injective toJson := by
  intro t u h
  obtain ⟨text, separator, kind, id, span⟩ := t
  obtain ⟨text', separator', kind', id', span'⟩ := u
  simp only [toJson, spanToJson, Json.nat, Json.object.injEq, List.cons.injEq, Prod.mk.injEq,
    Json.str.injEq, Json.int.injEq, true_and, and_true, Int.natCast_inj] at h
  obtain ⟨rfl, rfl, hkind, rfl, hstart, hstop⟩ := h
  have hkind : kind = kind' := by
    have hsame := congrArg TokenKind.ofJsonName? hkind
    rw [ofJsonName?_jsonName, ofJsonName?_jsonName] at hsame
    exact Option.some.inj hsame
  rw [hkind, show span = span' by cases span; cases span'; simp_all]

/-- Two tokens have two texts, also if their numbers are no machine integers. -/
theorem toJsonText_injective : Function.Injective toJsonText := by
  intro t u h
  have hparse := Json.parse?_compact t.integral_toJson
  rw [← toJsonText, h, toJsonText, Json.parse?_compact u.integral_toJson] at hparse
  exact toJson_injective (Option.some.inj hparse).symm

/-! ## The text of a token -/

end Token

/-- A text in quotes: what stands for each of its characters, one after the other. -/
def Json.Quoted (s : String) (form : List Char) : Prop :=
  ∃ forms, List.Forall₂ Json.Escaped s.toList forms ∧ form = '"' :: (forms.flatten ++ ['"'])

theorem Json.quoted_quote (s : String) : Quoted s (quote s) := by
  refine ⟨s.toList.map escapeChar, ?_, by rw [quote, List.flatMap_def]⟩
  exact List.forall₂_map_right_iff.2 (List.forall₂_same.2 fun c _ => escaped_escapeChar c)

namespace Token

/-- A text is that of a token: its parts under their names, without white space between them. -/
def Written (t : Token) (s : String) : Prop :=
  ∃ text separator kind,
    Json.Quoted t.text text ∧ Json.Quoted t.separator separator ∧
      Json.Quoted t.kind.jsonName kind ∧
        s.toList = "\x7b\"text\":".toList ++ text ++ ",\"separator\":".toList ++ separator ++
          ",\"kind\":".toList ++ kind ++ ",\"id\":".toList ++ (toString t.id).toList ++
            ",\"span\":\x7b\"start\":".toList ++ (toString t.span.start).toList ++
              ",\"end\":".toList ++ (toString t.span.stop).toList ++ "\x7d\x7d".toList

theorem written_toJsonText (t : Token) : t.Written t.toJsonText := by
  refine ⟨_, _, _, Json.quoted_quote t.text, Json.quoted_quote t.separator,
    Json.quoted_quote t.kind.jsonName, ?_⟩
  have hnames : Json.quote "text" = "\"text\"".toList ∧
      Json.quote "separator" = "\"separator\"".toList ∧ Json.quote "kind" = "\"kind\"".toList ∧
        Json.quote "id" = "\"id\"".toList ∧ Json.quote "span" = "\"span\"".toList ∧
          Json.quote "start" = "\"start\"".toList ∧ Json.quote "end" = "\"end\"".toList := by
    decide
  have hnat (n : Nat) : (Int.repr n).toList = Nat.toDigits 10 n := by
    rw [show Int.repr n = n.repr from rfl, Nat.repr_eq_ofList_toDigits, String.toList_ofList]
  simp [toJsonText, Json.compact, toJson, spanToJson, Json.chars, Json.fieldChars, Json.nat, hnames,
    hnat]

end Token

/-! ## Streams -/

namespace Stream

/-- The tokens that a JSON text stands for, if it is an array of tokens. -/
def tokensOfJsonText? (s : String) : Option (List Token) := do
  let items ← (← Json.parse? s).items?
  items.mapM Token.ofJson?

theorem integral_toJson (stream : Stream) : stream.toJson.Integral := by
  refine .array fun item hitem => ?_
  obtain ⟨t, -, rfl⟩ := List.mem_map.1 hitem
  exact t.integral_toJson

theorem mapM_ofJson? {ts : List Token} (h : ∀ t ∈ ts, t.Fits) :
    (ts.map Token.toJson).mapM Token.ofJson? = some ts := by
  induction ts with
  | nil => rfl
  | cons t ts ih =>
    obtain ⟨ht, hts⟩ := List.forall_mem_cons.1 h
    rw [List.map_cons, List.mapM_cons, Token.ofJson?_toJson, if_pos ht, ih hts]
    rfl

/-- A stream whose numbers are machine integers is read back from its text, token by token. -/
theorem tokensOfJsonText?_compact {stream : Stream} (h : ∀ t ∈ stream.tokens.toList, t.Fits) :
    tokensOfJsonText? stream.toJson.compact = some stream.tokens.toList := by
  unfold tokensOfJsonText?
  rw [Json.parse?_compact stream.integral_toJson]
  exact mapM_ofJson? h

/-- The text of a stream is that of its tokens, with commas between them. -/
theorem toList_compact (stream : Stream) :
    stream.toJson.compact.toList =
      '[' :: ([','].intercalate (stream.tokens.toList.map fun t => t.toJsonText.toList) ++
        [']']) := by
  have hitems (items : List Json) :
      Json.itemChars items = [','].intercalate (items.map Json.chars) := by
    induction items with
    | nil => rfl
    | cons item items ih =>
      cases items with
      | nil => simp [Json.itemChars]
      | cons next items =>
        rw [Json.itemChars, ih]
        simp [List.intercalate]
  have hchars (t : Token) : t.toJsonText.toList = Json.chars t.toJson := by
    simp [Token.toJsonText, Json.compact]
  simp only [toJson, Json.compact, Json.chars, hitems, hchars, String.toList_ofList, List.map_map]
  rfl

end Stream

/-! ## The numbers of a stream -/

/-- All values that commands bind are machine integers. -/
def Constant.Fits (commands : List Constant.Command) : Prop :=
  ∀ name value, Constant.Command.define name value ∈ commands → fitsInt64 value = true

namespace Vocabulary

variable {spellings : Keyword.Spellings} {limit : Nat} {commands : List Constant.Command}

theorem define_mem_of_mem_asked {b : String × Int} (h : b ∈ Constant.asked commands) :
    .define b.1 b.2 ∈ commands := by
  induction commands using List.reverseRecOn with
  | nil => cases h
  | append_singleton commands c ih =>
    rw [Constant.asked, List.foldl_append, List.foldl_cons, List.foldl_nil, ← Constant.asked] at h
    rw [List.mem_append]
    cases c with
    | reset => cases h
    | define name value =>
      rcases List.mem_append.1 h with h | h
      · exact Or.inl (ih h)
      · obtain rfl := List.mem_singleton.1 h
        exact Or.inr (by simp)
    | resolve | contains | listing | state => exact Or.inl (ih h)

/-- The value of a constant is one that a command binds. -/
theorem fitsInt64_of_resolve (h : Constant.Fits commands) {word : String} {value : Int}
    (hvalue : (Constant.Table.afterCommands limit commands).resolve word = some value) :
    fitsInt64 value = true := by
  have hmem := Constant.Table.resolve_eq_some_iff.1 hvalue
  rw [Constant.Table.entries_afterCommands] at hmem
  have hasked := (Bindings.firsts_sublist _).subset ((List.take_sublist _ _).subset hmem)
  exact h _ _ (define_mem_of_mem_asked (List.mem_filter.1 hasked).1)

/-- The id of a word is a machine integer: ids of keywords are below 2400. -/
theorem fitsInt64_classify (h : Constant.Fits commands) (first : Bool) (text : String) :
    fitsInt64 ((afterCommands spellings limit commands).classify first text).2 = true := by
  unfold classify
  dsimp only
  split
  case isTrue hid =>
    rcases Keyword.Entries.lookup_eq_iff.1
      (rfl : _ = (Keyword.populate spellings).entries.lookup text) with hmem | ⟨hnone, -⟩
    · have hrange := ((Keyword.ordered_populate spellings).spelled _ hmem).2
      simp only [fitsInt64, Bool.and_eq_true, decide_eq_true_eq]
      simp only [afterCommands]
      omega
    · simp only [afterCommands] at hid
      omega
  case isFalse =>
    cases hvalue : (afterCommands spellings limit commands).constants.resolve text with
    | some value => exact fitsInt64_of_resolve h hvalue
    | none => rfl

/-- The numbers of a stream are machine integers. -/
theorem fits_stream (h : Constant.Fits commands) {source : String}
    (hsize : fitsWord64 source.utf8ByteSize = true) {gap : List GapItem} {ls : List Lexeme}
    (hcut : Cut (afterCommands spellings limit commands).knows source gap ls) :
    let stream := (afterCommands spellings limit commands).stream gap ls source.utf8ByteSize
    ∀ t ∈ stream.tokens.toList, t.Fits := by
  have hplace {n : Nat} (hn : n ≤ source.utf8ByteSize) : fitsWord64 n = true := by
    simp only [fitsWord64, Bool.and_eq_true, decide_eq_true_eq] at hsize ⊢
    omega
  intro stream t ht
  rw [toList_stream, List.mem_cons, List.mem_append, List.mem_singleton] at ht
  rcases ht with rfl | ht | rfl
  · exact ⟨fitsInt64_classify h true _, hplace (Nat.zero_le _), hplace (Nat.zero_le _)⟩
  · obtain ⟨-, hforward, hstop⟩ := span_of_mem_tokens t ht
    rw [← hcut.utf8ByteSize_eq] at hstop
    obtain ⟨l, -, offset, rfl, -⟩ := exists_of_mem_tokens hcut.isText hcut.bytes_eq.symm t ht
    exact ⟨fitsInt64_classify h false _, hplace (Nat.le_trans hforward hstop), hplace hstop⟩
  · exact ⟨rfl, hplace (Nat.le_refl _), hplace (Nat.le_refl _)⟩

end Vocabulary

/-! ## Round trips -/

/-- Tokens and streams are read back from their texts. The text of a token is its parts under their
names; it stands for the token, if the numbers of the token are machine integers, and for no other
one. The text of a stream is that of its tokens, with commas between them, and stands for these
tokens in their order. -/
theorem Stream.json_roundTrip :
    (∀ t : Token, t.Written t.toJsonText ∧ (t.Fits → Token.ofJsonText? t.toJsonText = some t)) ∧
      Function.Injective Token.toJsonText ∧
      ∀ (spellings : Keyword.Spellings) (limit : Nat) (commands : List Constant.Command)
        (source : String) (stream : Stream), Constant.Fits commands →
        fitsWord64 source.utf8ByteSize = true →
        Stream.tokenize (.afterCommands spellings limit commands) source = some stream →
        stream.toJson.compact.toList =
            '[' :: ([','].intercalate (stream.tokens.toList.map fun t => t.toJsonText.toList) ++
              [']']) ∧
          tokensOfJsonText? stream.toJson.compact = some stream.tokens.toList := by
  refine ⟨fun t => ⟨t.written_toJsonText, fun ht => ?_⟩, Token.toJsonText_injective, ?_⟩
  · rw [Token.ofJsonText?_toJsonText, if_pos ht]
  · intro spellings limit commands source stream hcommands hsize hstream
    obtain ⟨gap, ls, hcut, rfl⟩ := Stream.exists_cut hstream
    have hfits := Vocabulary.fits_stream hcommands hsize hcut
    exact ⟨toList_compact _, tokensOfJsonText?_compact hfits⟩

/-- A token with characters of every kind and numbers at their limits, and a stream with a constant
at its limit. -/
theorem Stream.json_roundTrip_limits :
    let t : Token := ⟨"\"\\\n\x01é", "\t", .string, -0x8000000000000000, ⟨0, 0xFFFFFFFFFFFFFFFF⟩⟩
    let commands : List Constant.Command := [.define "Max" 0x7FFFFFFFFFFFFFFF]
    let v := Vocabulary.afterCommands Keyword.standard 1 commands
    Token.ofJsonText? t.toJsonText = some t ∧
      ∃ stream, Stream.tokenize v "Max // é" = some stream ∧
        tokensOfJsonText? stream.toJson.compact = some stream.tokens.toList := by
  intro t commands v
  have hcommands : Constant.Fits commands := by
    intro name value hmem
    obtain ⟨-, rfl⟩ : name = "Max" ∧ value = 0x7FFFFFFFFFFFFFFF := by simpa [commands] using hmem
    decide
  obtain ⟨stream, hstream⟩ : ∃ stream, Stream.tokenize v "Max // é" = some stream := by
    obtain ⟨gap, ls, hcut⟩ := Cut.exists_cut v.knows "Max // é"
    exact ⟨_, hcut.tokenize_eq (by decide)⟩
  obtain ⟨htoken, -, hstreams⟩ := Stream.json_roundTrip
  exact ⟨(htoken t).2 ⟨by decide, by decide, by decide⟩, stream, hstream,
    (hstreams _ _ commands _ _ hcommands (by decide) hstream).2⟩

end RobotScript
