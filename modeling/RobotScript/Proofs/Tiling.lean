import Mathlib.Data.List.Chain
import RobotScript.Proofs.Lexemes

/-!
# Tokens tile the source

Every byte of a source belongs to one word or one separator. A call for a token starts where the
scanner stands and leaves it after the separator, whatever flags the calls before had, and a stream
has the whole source in its spans and separators.

Results:

* `Scanner.At.exists_take`: what a call from a place in a source takes.
* `Scanner.At.next?`: a call leaves the scanner in the source, at the end of the separator.
* `Scanner.at_of_mem_calls`: all calls with any flags are from places in the source.
* `Vocabulary.covers_stream`: the stream of a source has all of it.
* `Scanner.calls_tile_source`: all calls with any flags, and the whole stream.
-/

namespace RobotScript

open Bytes (IsText)

/-! ## One call -/

/-- How a call from a place in a source is answered: at the end there is no token, and the scanner
stays there; before the end, a token starts at the place, and its separator is what stands between
the word and the place after the call. -/
inductive Tiled (source : String) (before : Scanner) : Option Token × Scanner → Prop
  | atEnd : before.offset = source.utf8ByteSize → Tiled source before (none, before)
  | token {t : Token} {after : Scanner} : before.offset ≠ source.utf8ByteSize →
      t.span.start = before.offset → t.span.start ≤ t.span.stop →
      Text.slice? source t.span.stop after.offset = some t.separator →
      Tiled source before (some t, after)

namespace Scanner

/-- The scanner stands in a source, where a character begins. -/
structure At (source : String) (s : Scanner) : Prop where
  split : ∃ pre, Bytes.ofText source = pre ++ s.rest ∧ pre.length = s.offset
  isText : IsText s.rest

namespace At

variable {source : String} {s : Scanner} {v : Vocabulary} {first : Bool}

theorem ofText (source : String) : At source (Scanner.ofText source) :=
  ⟨⟨[], rfl, rfl⟩, Bytes.isText_ofText source⟩

/-- What has been taken and what is left are the source. -/
theorem offset_add_length (h : At source s) : s.offset + s.rest.length = source.utf8ByteSize := by
  obtain ⟨pre, hsplit, hlen⟩ := h.split
  rw [← Text.length_ofText, hsplit, List.length_append, hlen]

theorem offset_eq_iff (h : At source s) : s.offset = source.utf8ByteSize ↔ s.rest = [] := by
  rw [← h.offset_add_length, ← List.length_eq_zero_iff]
  omega

theorem next?_eq_none_iff (h : At source s) :
    s.next? v first = none ↔ s.offset = source.utf8ByteSize := by
  rw [h.offset_eq_iff]
  unfold Scanner.next? Scanner.isAtEnd
  cases s.rest <;> simp

/-- A call takes a word and its gap from the place where the scanner stands. -/
theorem exists_take {t : Token} {s' : Scanner} (h : At source s)
    (hn : s.next? v first = some (t, s')) :
    ∃ pre l rest, Lexeme.take v.knows first s.rest = (l, rest) ∧
      Bytes.ofText source = pre ++ l.word ++ l.separator ++ rest ∧ pre.length = s.offset ∧
      (IsText l.word ∧ IsText l.separator ∧ IsText rest) ∧
      t = v.token first s.offset l ∧ s' = s.advance l rest := by
  have hrest : s.rest ≠ [] := by
    intro hnil
    have hnone : s.next? v first = none := h.next?_eq_none_iff.2 (h.offset_eq_iff.2 hnil)
    rw [hn] at hnone
    cases hnone
  obtain ⟨pre, hsplit, hlen⟩ := h.split
  rcases htake : Lexeme.take v.knows first s.rest with ⟨l, rest⟩
  rw [next?_eq_some hrest htake] at hn
  obtain ⟨rfl, rfl⟩ := Prod.mk.inj (Option.some.inj hn)
  have hsource : Bytes.ofText source = pre ++ l.word ++ l.separator ++ rest := by
    rw [hsplit, ← Lexeme.bytes_append_of_take htake, Lexeme.bytes]
    simp only [List.append_assoc]
  exact ⟨pre, l, rest, rfl, hsource, hlen, Lexeme.isText_of_take h.isText htake, rfl, rfl⟩

/-- A call leaves the scanner in the source, at the end of the separator. -/
theorem next? {t : Token} {s' : Scanner} (h : At source s)
    (hn : s.next? v first = some (t, s')) : At source s' ∧ Tiled source s (some t, s') := by
  obtain ⟨pre, l, rest, -, hsource, hlen, ⟨-, hsep, hafter⟩, rfl, rfl⟩ := h.exists_take hn
  have hne : s.offset ≠ source.utf8ByteSize := by
    intro he
    rw [h.next?_eq_none_iff.2 he] at hn
    cases hn
  refine ⟨⟨⟨pre ++ l.bytes, ?_, ?_⟩, hafter⟩, .token hne rfl (Nat.le_add_right _ _) ?_⟩
  · rw [hsource, Lexeme.bytes]
    simp only [Scanner.advance, List.append_assoc]
  · rw [List.length_append, hlen, Lexeme.length_bytes]
    rfl
  · have hslice := Text.slice?_eq_some hsource (hsep.append hafter).startsCharacter
      hafter.startsCharacter
    rw [List.length_append, hlen] at hslice
    have hoffset : (s.advance l rest).offset = s.offset + l.word.length + l.separator.length := by
      simp only [Scanner.advance, Lexeme.length]
      omega
    rw [hoffset]
    exact hslice

end At

/-- The calls with any flags from a place in the source. -/
theorem At.calls {source : String} {v : Vocabulary} (firsts : List Bool) {s : Scanner}
    (h : At source s) (t : Option Token) :
    List.IsChain (fun a b => Tiled source a.2 b) ((t, s) :: s.calls v firsts) := by
  induction firsts generalizing s t with
  | nil => exact .singleton _
  | cons first firsts ih =>
    rw [Scanner.calls]
    split
    · rename_i hn
      exact .cons_cons (.atEnd (h.next?_eq_none_iff.1 hn)) (ih h none)
    · rename_i t' s' hn
      obtain ⟨h', htiled⟩ := h.next? hn
      exact .cons_cons htiled (ih h' (some t'))

/-- All places that calls lead to are in the source, and a call from one took each token. -/
theorem At.of_mem_calls {source : String} {v : Vocabulary} (firsts : List Bool) {s : Scanner}
    (h : At source s) : ∀ a ∈ s.calls v firsts, At source a.2 ∧ ∀ t ∈ a.1, ∃ first before,
      At source before ∧ before.next? v first = some (t, a.2) := by
  induction firsts generalizing s with
  | nil => simp [Scanner.calls]
  | cons first firsts ih =>
    rw [Scanner.calls]
    split
    · exact List.forall_mem_cons.2 ⟨⟨h, by simp⟩, ih h⟩
    · rename_i t s' hn
      have h' := (h.next? hn).1
      refine List.forall_mem_cons.2 ⟨⟨h', ?_⟩, ih h'⟩
      intro t' ht'
      obtain rfl := Option.some.inj ht'
      exact ⟨first, s, h, hn⟩

/-- Calls with any flags from the start of a source on lead to places in it. -/
theorem at_of_mem_calls (v : Vocabulary) (source : String) (firsts : List Bool) :
    ∀ a ∈ (none, .ofText source) :: (Scanner.ofText source).calls v firsts,
      At source a.2 ∧ ∀ t ∈ a.1, ∃ first before,
        At source before ∧ before.next? v first = some (t, a.2) := by
  have hstart := At.ofText source
  exact List.forall_mem_cons.2 ⟨⟨hstart, by simp⟩, hstart.of_mem_calls firsts⟩

theorem length_calls (v : Vocabulary) (firsts : List Bool) (s : Scanner) :
    (s.calls v firsts).length = firsts.length := by
  induction firsts generalizing s with
  | nil => rfl
  | cons first firsts ih =>
    rw [Scanner.calls]
    split <;> rw [List.length_cons, ih, List.length_cons]

end Scanner

/-! ## Whole streams -/

/-- Two tokens are neighbours: the second starts where the separator of the first ends. -/
def Token.Adjacent (a b : Token) : Prop :=
  a.span.stop + a.separator.utf8ByteSize = b.span.start

/-- What stands in a source at a token, with the separator of the token. -/
def Token.part? (source : String) (t : Token) : Option String :=
  (t.span.slice? source).map (· ++ t.separator)

/-- A stream has the whole source in its spans and separators. -/
structure Stream.Covers (source : String) (stream : Stream) : Prop where
  head : stream.head.span = ⟨0, 0⟩
  adjacent : stream.tokens.toList.IsChain Token.Adjacent
  terminator : stream.terminator.span = .emptyAt source.utf8ByteSize
  whole : (stream.tokens.toList.mapM (Token.part? source)).map String.join = some source

namespace Vocabulary

variable {v : Vocabulary} {source : String} {ls : List Lexeme} {gap : List GapItem}

/-- The tokens of lexemes are neighbours, and so are the tokens before and after them. -/
theorem isChain_tokens (hls : ∀ l ∈ ls, IsText l.word ∧ IsText l.separator) {t : Token}
    {offset : Nat} (ht : t.span.stop + t.separator.utf8ByteSize = offset) :
    (t :: (v.tokens offset ls ++
      [.terminator (offset + (ls.flatMap Lexeme.bytes).length)])).IsChain Token.Adjacent := by
  induction ls generalizing t offset with
  | nil => exact .cons_cons ht (.singleton _)
  | cons l ls ih =>
    obtain ⟨⟨-, hsep⟩, hls⟩ := List.forall_mem_cons.1 hls
    refine .cons_cons ht ?_
    have hnext : (v.token false offset l).span.stop +
        (v.token false offset l).separator.utf8ByteSize = offset + l.length := by
      simp only [Vocabulary.token, hsep.utf8ByteSize_toText, Lexeme.length]
      omega
    rw [List.flatMap_cons, List.length_append, Lexeme.length_bytes, ← Nat.add_assoc]
    exact ih hls hnext

theorem join_map_bytes (hls : ∀ l ∈ ls, IsText l.word ∧ IsText l.separator) :
    String.join (ls.map fun l => Bytes.toText l.bytes) = Bytes.toText (ls.flatMap Lexeme.bytes) := by
  induction ls with
  | nil => rfl
  | cons l ls ih =>
    obtain ⟨⟨hword, hsep⟩, hls⟩ := List.forall_mem_cons.1 hls
    have hbytes : IsText l.bytes := hword.append hsep
    rw [List.map_cons, String.join_cons, ih hls, List.flatMap_cons,
      hbytes.toText_append (Lexeme.isText_flatMap_bytes hls)]

/-- What stands at a token are the word and the gap. -/
theorem part?_token {first : Bool} {l : Lexeme} {pre post : Bytes}
    (h : Bytes.ofText source = pre ++ l.bytes ++ post) (hword : IsText l.word)
    (hsep : IsText l.separator) (hpost : IsText post) :
    Token.part? source (v.token first pre.length l) = some (Bytes.toText l.bytes) := by
  rw [Token.part?, slice?_token h hword hsep hpost, Lexeme.bytes, hword.toText_append hsep]
  rfl

theorem part?_terminator (source : String) :
    Token.part? source (.terminator source.utf8ByteSize) = some "" := by
  rw [Token.part?, Token.slice?_terminator]
  rfl

/-- The stream of a cut source has all of it. -/
theorem covers_stream (h : Cut v.knows source gap ls) :
    Stream.Covers source (v.stream gap ls source.utf8ByteSize) := by
  have hgap := h.isText_gap
  have hls := h.isText
  have hhead : (v.token true 0 ⟨[], gap⟩).span.stop +
      (v.token true 0 ⟨[], gap⟩).separator.utf8ByteSize = (Gap.bytes gap).length := by
    simp only [Vocabulary.token, Lexeme.separator, hgap.utf8ByteSize_toText, List.length_nil]
    omega
  have hterminator : (v.stream gap ls source.utf8ByteSize).terminator.span =
      .emptyAt source.utf8ByteSize := by
    simp [Vocabulary.stream, Stream.ofTokens, Stream.terminator, Token.terminator]
  have hhead' : (v.stream gap ls source.utf8ByteSize).head.span = ⟨0, 0⟩ := by
    simp [Vocabulary.stream, Stream.ofTokens, Stream.head, Vocabulary.token]
  refine ⟨hhead', ?_, hterminator, ?_⟩
  · rw [toList_stream, h.utf8ByteSize_eq]
    exact isChain_tokens hls hhead
  · have hsource : Bytes.ofText source =
        [] ++ Lexeme.bytes ⟨[], gap⟩ ++ ls.flatMap Lexeme.bytes := h.bytes_eq.symm
    have hfirst : Token.part? source (v.token true 0 ⟨[], gap⟩) =
        some (Bytes.toText (Gap.bytes gap)) :=
      part?_token hsource IsText.nil hgap (Lexeme.isText_flatMap_bytes hls)
    have hwords : (v.tokens (Gap.bytes gap).length ls).mapM (Token.part? source) =
        some (ls.map fun l => Bytes.toText l.bytes) :=
      mapM_tokens (fun _ _ _ => part?_token) hls h.bytes_eq.symm
    rw [toList_stream, List.mapM_cons, List.mapM_append, hfirst, hwords, List.mapM_cons,
      part?_terminator]
    show some (String.join (Bytes.toText (Gap.bytes gap) ::
      (ls.map (fun l => Bytes.toText l.bytes) ++ [""]))) = some source
    rw [String.join_cons, String.join_append, join_map_bytes hls,
      show String.join [""] = "" from rfl, String.append_empty,
      ← hgap.toText_append (Lexeme.isText_flatMap_bytes hls), h.bytes_eq, Text.toText_ofText]

end Vocabulary

/-- Calls with any flags tile a source: each answers for the place where the one before it left the
scanner. An empty source has no stream, and any other has one that covers it. -/
theorem Scanner.calls_tile_source (v : Vocabulary) (source : String) (firsts : List Bool) :
    let calls := (Scanner.ofText source).calls v firsts
    calls.length = firsts.length ∧
      ((none, .ofText source) :: calls).IsChain (fun a b => Tiled source a.2 b) ∧
      match Stream.tokenize v source with
      | none => source = ""
      | some stream => source ≠ "" ∧ stream.Covers source := by
  refine ⟨length_calls v firsts _, (At.ofText source).calls firsts none, ?_⟩
  by_cases hne : source = ""
  · subst hne
    rfl
  · obtain ⟨gap, ls, hcut⟩ := Cut.exists_cut v.knows source
    rw [Stream.tokenize, hcut.scan?_eq hne]
    exact ⟨hne, Vocabulary.covers_stream hcut⟩

end RobotScript
