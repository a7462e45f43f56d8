import RobotScript.Proofs.StreamShape

/-!
# Scanning from the middle

The scanner knows nothing of what it has taken but where it stands. So a source that is cut off
before one of its words has the tokens from that word on, at places moved by what was cut off.

Results:

* `Cut.suffix`: a source from one of its words on is cut into the lexemes from there.
* `Vocabulary.map_shift_tokens`: tokens at places that are moved.
* `Stream.tokenize_suffix`: the stream of a source from one of its words on.
-/

namespace RobotScript

open Bytes (IsText)

/-! ## Places that are moved -/

/-- The range that is `k` bytes further on. -/
def Span.shift (k : Nat) (s : Span) : Span := ⟨s.start + k, s.stop + k⟩

/-- The token with a place that is `k` bytes further on. -/
def Token.shift (k : Nat) (t : Token) : Token := { t with span := t.span.shift k }

namespace Vocabulary

theorem shift_token (v : Vocabulary) (first : Bool) (k offset : Nat) (l : Lexeme) :
    (v.token first offset l).shift k = v.token first (offset + k) l := by
  simp only [token, Token.shift, Span.shift, Nat.add_right_comm]

theorem map_shift_tokens (v : Vocabulary) (k offset : Nat) (ls : List Lexeme) :
    (v.tokens offset ls).map (Token.shift k) = v.tokens (offset + k) ls := by
  induction ls generalizing offset with
  | nil => rfl
  | cons l ls ih => rw [tokens, List.map_cons, shift_token, ih, tokens, Nat.add_right_comm]

theorem shift_terminator (k offset : Nat) :
    (Token.terminator offset).shift k = .terminator (offset + k) := rfl

/-- The tokens of a stream from a lexeme on are the tokens of a stream of the lexemes from there,
apart from its head, at the places of the lexemes. -/
theorem drop_stream (v : Vocabulary) (gap : List GapItem) (ls₁ ls₂ : List Lexeme) (size : Nat) :
    (v.stream gap (ls₁ ++ ls₂)
        ((Gap.bytes gap).length + (ls₁.flatMap Lexeme.bytes).length + size)).tokens.toList.drop
      (ls₁.length + 1) =
    (v.stream [] ls₂ size).tokens.toList.tail.map
      (Token.shift ((Gap.bytes gap).length + (ls₁.flatMap Lexeme.bytes).length)) := by
  rw [toList_stream, toList_stream, List.drop_succ_cons, tokens_append, List.append_assoc,
    List.drop_left' (length_tokens _ _ _), List.tail_cons, List.map_append, map_shift_tokens,
    List.map_singleton, shift_terminator, Nat.add_comm size]
  simp [Gap.bytes]

end Vocabulary

/-! ## Sources that are cut off -/

namespace Cut

variable {known : Bytes → Bool} {source : String} {gap : List GapItem} {ls₁ ls₂ : List Lexeme}

theorem isText_append_right (h : Cut known source gap (ls₁ ++ ls₂)) :
    IsText (ls₂.flatMap Lexeme.bytes) :=
  Lexeme.isText_flatMap_bytes fun l hl => h.isText l (List.mem_append_right ls₁ hl)

/-- From one of its words on, a source is cut into the lexemes from there, without a gap before
them. -/
theorem suffix (h : Cut known source gap (ls₁ ++ ls₂)) :
    Cut known (Bytes.toText (ls₂.flatMap Lexeme.bytes)) [] ls₂ := by
  have hlexed := h.lexed.of_append
  refine ⟨?_, hlexed⟩
  rw [h.isText_append_right.ofText_toText]
  exact Gap.scan_of_next?_eq_none (Gap.next?_eq_none_iff.2 hlexed.begins_eq_false)

theorem utf8ByteSize_append (h : Cut known source gap (ls₁ ++ ls₂)) :
    source.utf8ByteSize = (Gap.bytes gap).length + (ls₁.flatMap Lexeme.bytes).length +
      (Bytes.toText (ls₂.flatMap Lexeme.bytes)).utf8ByteSize := by
  rw [h.isText_append_right.utf8ByteSize_toText, h.utf8ByteSize_eq, List.flatMap_append,
    List.length_append, Nat.add_assoc]

/-- What stands in a source from one of its words on. -/
theorem slice?_suffix (h : Cut known source gap (ls₁ ++ ls₂)) :
    Text.slice? source ((Gap.bytes gap).length + (ls₁.flatMap Lexeme.bytes).length)
      source.utf8ByteSize = some (Bytes.toText (ls₂.flatMap Lexeme.bytes)) := by
  have hbytes := h.bytes_eq.symm
  rw [List.flatMap_append, ← List.append_assoc] at hbytes
  rw [← List.length_append]
  exact Text.slice?_of_append hbytes h.isText_append_right

theorem suffix_ne_empty {l : Lexeme} (h : Cut known source gap (ls₁ ++ l :: ls₂)) :
    Bytes.toText ((l :: ls₂).flatMap Lexeme.bytes) ≠ "" := by
  intro hempty
  have htext := h.isText_append_right.ofText_toText
  rw [hempty] at htext
  exact h.lexed.of_append.ne_nil htext.symm

end Cut

/-- A source from one of its words on has a head without a separator, and then just the tokens of
the source from that word on, with all places moved back to the new start. -/
theorem Stream.tokenize_suffix (spellings : Keyword.Spellings) (limit : Nat)
    (commands : List Constant.Command) (source : String) (stream : Stream) (i : Nat) (t : Token)
    (hstream : Stream.tokenize (.afterCommands spellings limit commands) source = some stream)
    (ht : stream.get? i = some t) (hword : t.isWord = true) :
    ∃ suffix restarted rest, Text.slice? source t.span.start source.utf8ByteSize = some suffix ∧
      Stream.tokenize (.afterCommands spellings limit commands) suffix = some restarted ∧
      restarted.tokens.toList = ⟨"", "", .leading, -1, .emptyAt 0⟩ :: rest ∧
      stream.tokens.toList.drop i = rest.map (Token.shift t.span.start) := by
  generalize hv : Vocabulary.afterCommands spellings limit commands = v at hstream ⊢
  have hhead : v.classify true "" = (.leading, -1) := by
    rw [← hv]
    exact Vocabulary.classify_head
  obtain ⟨gap, ls, hcut, rfl⟩ := Stream.exists_cut hstream
  rcases Vocabulary.get?_stream_cases ht with ⟨-, rfl⟩ | ⟨ls₁, l, ls₂, rfl, rfl, rfl⟩ | rfl
  · rw [Vocabulary.token_head hhead] at hword
    cases hword
  · have hdrop := Vocabulary.drop_stream v gap ls₁ (l :: ls₂)
      (Bytes.toText ((l :: ls₂).flatMap Lexeme.bytes)).utf8ByteSize
    rw [← hcut.utf8ByteSize_append] at hdrop
    refine ⟨_, _, _, hcut.slice?_suffix, hcut.suffix.tokenize_eq hcut.suffix_ne_empty, ?_, hdrop⟩
    rw [Vocabulary.toList_stream, Vocabulary.token_head hhead]
    rfl
  · cases hword

/-- From the keyword after a comment on, the tokens are the same. -/
theorem Stream.tokenize_suffix_standard :
    let v := Vocabulary.afterCommands Keyword.standard 1 [.define "n" 7]
    let source := " é/**/while n"
    ∃ stream t suffix restarted rest, Stream.tokenize v source = some stream ∧
      stream.get? 2 = some t ∧ t.isWord = true ∧
      Text.slice? source t.span.start source.utf8ByteSize = some suffix ∧
      Stream.tokenize v suffix = some restarted ∧
      restarted.tokens.toList = ⟨"", "", .leading, -1, .emptyAt 0⟩ :: rest ∧
      stream.tokens.toList.drop 2 = rest.map (Token.shift t.span.start) := by
  intro v source
  have hword : (Stream.tokenize v source).map (fun stream => (stream.get? 2).map Token.isWord) =
      some (some true) := by
    decide +kernel
  obtain ⟨stream, hstream, hword⟩ := Option.map_eq_some_iff.1 hword
  obtain ⟨t, ht, hword⟩ := Option.map_eq_some_iff.1 hword
  obtain ⟨suffix, restarted, rest, h⟩ :=
    Stream.tokenize_suffix Keyword.standard 1 [.define "n" 7] source stream 2 t hstream ht hword
  exact ⟨stream, t, suffix, restarted, rest, hstream, ht, hword, h⟩

end RobotScript
