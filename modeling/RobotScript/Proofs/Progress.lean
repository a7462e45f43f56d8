import RobotScript.Proofs.Tiling

/-!
# Progress of the scanner

A plain word may be empty: its first byte may be one that ends words. All such bytes are white space
or begin operators, so a word is empty just before white space, and then the gap after it is not. So
each call for a word takes a byte at least, and to scan a source takes no more calls than it has
bytes, but for the call that takes the head and the one that finds the end.

Results:

* `Word.length_eq_zero_iff`: a word is empty just before white space.
* `Scanner.At.advances`: a call for a word from a place before the end of the source.
* `Scanner.At.drains`: the calls for words from a place in the source up to its end.
* `Scanner.calls_progress`: both from wherever calls with any flags lead to, and whole streams.
-/

namespace RobotScript

open Bytes (IsText)

/-! ## Empty words -/

/-- White space ends words, and the words that begin with a byte that ends them and is no white
space are operators. So a word is empty just before white space. -/
theorem Word.length_eq_zero_iff {known : Bytes → Bool} {b : UInt8} {rest : Bytes} :
    Word.length known (b :: rest) = 0 ↔ isBlank b = true := by
  constructor
  · intro hzero
    by_contra hblank
    have hpos := length_pos known b rest (by simpa using hblank)
    omega
  · intro hblank
    have hboundary : isBoundary b = true := by
      have blanks : (blankBytes.all isBoundary) = true := by decide +kernel
      exact List.all_eq_true.1 blanks b (List.contains_iff_mem.1 hblank)
    have hplain : Kind.ofByte b = .plain := by
      by_contra hkind
      rw [isBlank_eq_false_of_ofByte_ne hkind] at hblank
      cases hblank
    simp only [Word.length, hplain, munch, plainStep, hboundary, if_true]

/-! ## Calls for words -/

namespace Scanner

/-- A call for a word takes a byte at least, and its token is empty just before white space. -/
structure Advances (source : String) (before : Scanner) (t : Token) (after : Scanner) : Prop where
  lt : before.offset < after.offset
  le : after.offset ≤ source.utf8ByteSize
  span_eq_iff : t.span = .emptyAt before.offset ↔
    ∃ b ∈ before.rest.head?, Word.isBlank b = true
  text_eq_iff : t.text = "" ↔ ∃ b ∈ before.rest.head?, Word.isBlank b = true

/-- Calls for words take the tokens `ts` and then find the end of the source. -/
structure Drains (v : Vocabulary) (source : String) (s : Scanner) (ts : List Token) : Prop where
  calls_eq : (s.calls v (List.replicate (ts.length + 1) false)).map Prod.fst =
    ts.map some ++ [none]
  /-- There are no more tokens than bytes that are left. -/
  le : s.offset + ts.length ≤ source.utf8ByteSize

variable {source : String} {v : Vocabulary} {s : Scanner}

namespace At

theorem advances {t : Token} {s' : Scanner} (h : At source s)
    (hn : s.next? v false = some (t, s')) : Advances source s t s' := by
  have hlt : s'.rest.length < s.rest.length := length_lt_of_next? hn
  have hoffset := h.offset_add_length
  have hoffset' := (h.next? hn).1.offset_add_length
  obtain ⟨b, r, hrest⟩ := List.exists_cons_of_ne_nil (List.ne_nil_of_length_pos
    (Nat.zero_lt_of_lt hlt))
  have hstep : s.offset < s'.offset ∧ s'.offset ≤ source.utf8ByteSize := by omega
  obtain ⟨pre, l, rest, htake, -, -, ⟨hword, -, -⟩, rfl, rfl⟩ := h.exists_take hn
  have hempty : l.word = [] ↔ ∃ b ∈ s.rest.head?, Word.isBlank b = true := by
    rw [hrest] at htake ⊢
    rw [← List.length_eq_zero_iff, ← Lexeme.length_of_take htake, Word.length_eq_zero_iff]
    simp
  refine ⟨hstep.1, hstep.2, ?_, ?_⟩
  · rw [← hempty, ← List.length_eq_zero_iff]
    simp [Vocabulary.token, Span.emptyAt]
  · rw [← hempty]
    exact Lexeme.text_eq_empty_iff hword

/-- Calls for words from a place in the source on find its end, and before that they take what the
scan of all that is left takes. -/
theorem drains (h : At source s) (found : Array Token) : ∃ ts, Drains v source s ts ∧
    (s.drain v found).1 = found ++ ts.toArray ∧
    (s.drain v found).2.offset = source.utf8ByteSize := by
  fun_induction Scanner.drain v found s with
  | case1 found s hn =>
    have hend := h.next?_eq_none_iff.1 hn
    refine ⟨[], ⟨?_, Nat.le_of_eq hend⟩, ?_, hend⟩
    · simp [Scanner.calls, hn]
    · simp
  | case2 found s t s' hn ih =>
    obtain ⟨ts, ⟨hcalls, hle⟩, hfound, hend⟩ := ih (h.next? hn).1
    -- each call takes a byte, so that there are enough of them for the tokens
    have hlt := (h.advances hn).lt
    refine ⟨t :: ts, ⟨?_, ?_⟩, ?_, hend⟩
    · rw [List.length_cons, List.replicate_succ, Scanner.calls, hn, List.map_cons, hcalls]
      rfl
    · rw [List.length_cons]
      omega
    · rw [hfound, ← Array.toList_inj]
      simp

end At

end Scanner

/-! ## Streams -/

/-- The calls that make a stream: one takes the head, those for words come next and take the tokens
between head and terminator, and the last one finds the end of the source. -/
structure Stream.Drained (v : Vocabulary) (source : String) (stream : Stream) : Prop where
  calls : ∃ head after ts, (Scanner.ofText source).next? v true = some (head, after) ∧
    after.Drains v source ts ∧
    stream.tokens.toList = head :: (ts ++ [.terminator source.utf8ByteSize])
  size_le : stream.size ≤ source.utf8ByteSize + 2

/-- An empty source has no stream, and the calls that make that of any other one end. -/
theorem Stream.tokenize_drained (v : Vocabulary) (source : String) :
    match Stream.tokenize v source with
    | none => source = ""
    | some stream => stream.Drained v source := by
  have hstart := Scanner.At.ofText source
  cases hn : (Scanner.ofText source).next? v true with
  | none =>
    have hsize : source.utf8ByteSize = 0 := (hstart.next?_eq_none_iff.1 hn).symm
    simpa [Stream.tokenize, Stream.scan?, hn] using hsize
  | some taken =>
    obtain ⟨head, after⟩ := taken
    obtain ⟨ts, hts, hfound, hend⟩ := (hstart.next? hn).1.drains (v := v) #[]
    have hstream : Stream.tokenize v source =
        some (.ofTokens head ts.toArray source.utf8ByteSize) := by
      simp [Stream.tokenize, Stream.scan?, hn, hfound, hend]
    rw [hstream]
    refine ⟨⟨head, after, ts, hn, hts, by simp [Stream.ofTokens]⟩, ?_⟩
    have hsize : (Stream.ofTokens head ts.toArray source.utf8ByteSize).size = ts.length + 2 := by
      simp [Stream.size, Stream.ofTokens]
    rw [hsize]
    exact Nat.add_le_add_right (Nat.le_trans (Nat.le_add_left _ _) hts.le) 2

/-- Wherever calls with any flags lead to, a call for a word moves the scanner on unless it is at
the end of the source, and calls for words find that end. So scanning a source ends, and its stream
has no more tokens than the source has bytes, but for head and terminator. -/
theorem Scanner.calls_progress (v : Vocabulary) (source : String) (firsts : List Bool) :
    (∀ a ∈ (none, .ofText source) :: (Scanner.ofText source).calls v firsts,
      (a.2.isAtEnd = false →
        ∃ t after, a.2.next? v false = some (t, after) ∧ a.2.Advances source t after) ∧
      ∃ ts, a.2.Drains v source ts) ∧
    match Stream.tokenize v source with
    | none => source = ""
    | some stream => stream.Drained v source := by
  refine ⟨fun a ha => ?_, Stream.tokenize_drained v source⟩
  have h := (at_of_mem_calls v source firsts a ha).1
  refine ⟨fun hend => ?_, ?_⟩
  · cases hn : a.2.next? v false with
    | none => simp [Scanner.next?, hend] at hn
    | some taken => exact ⟨taken.1, taken.2, rfl, h.advances hn⟩
  · obtain ⟨ts, hts, -⟩ := h.drains (v := v) #[]
    exact ⟨ts, hts⟩

/-- A source may have as many tokens as that. -/
example : (Stream.tokenize ⟨.empty, .empty⟩ "((").map Stream.size = some 4 := by
  decide +kernel

end RobotScript
