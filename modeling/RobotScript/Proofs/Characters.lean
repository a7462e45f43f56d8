import RobotScript.Proofs.Literals
import RobotScript.Proofs.Tiling

/-!
# No character is torn

The scanner steps over single bytes of a text. Still each word, each gap and the scanner itself
begin and end where characters do, so that all parts of the source that it takes are texts. What a
quoted word stands for is a text, too, though a backslash may take just the first byte of a
character: it is what the literal stands for when it is read one character after the other.

Results:

* `Vocabulary.isRead_token`: the token of a quoted word, against the literal read as characters.
* `Scanner.At.untorn`: the token of a call.
* `Scanner.calls_untorn`: all calls with any flags.
-/

namespace RobotScript

open Bytes (IsText ofChars)

/-- A token is a literal that begins with an opening quote and the characters `cs`: reading these
one after the other gives its text and what follows it in the source. -/
structure Token.IsRead (source : String) (t : Token) (cs : List Char) : Prop where
  start_eq : Text.slice? source t.span.start source.utf8ByteSize = some (String.ofList ('"' :: cs))
  text_eq : t.text = String.ofList ('"' :: (Literal.read cs).1)
  stop_eq : Text.slice? source t.span.stop source.utf8ByteSize =
    some (String.ofList (Literal.read cs).2)

/-- A token and its separator, which goes up to the offset `after`, begin and end where characters
do. -/
structure Token.Untorn (source : String) (t : Token) (after : Nat) : Prop where
  start : Text.isBoundary source t.span.start = true
  stop : Text.isBoundary source t.span.stop = true
  separator : Text.slice? source t.span.stop after = some t.separator
  /-- What the word stands for is a text, without a replacement for bytes that are of none. -/
  text : ∃ word, t.word? source = some word ∧ Bytes.toText? (Word.decode word) = some t.text
  literal : ∀ w, t.word? source = some (Word.quote :: w) → ∃ cs, t.IsRead source cs

/-! ## One call -/

/-- A quoted word is the literal that is read from its place in the source on. -/
theorem Vocabulary.isRead_token {v : Vocabulary} {first : Bool} {source : String} {l : Lexeme}
    {pre front rest w : Bytes} (hsource : Bytes.ofText source = pre ++ front)
    (hfront : IsText front) (htake : Lexeme.take v.knows first front = (l, rest))
    (hquote : l.word = Word.quote :: w) : ∃ cs, (v.token first pre.length l).IsRead source cs := by
  cases first with
  | true =>
    have hnil : l.word = [] := by
      cases htake
      rfl
    rw [hquote] at hnil
    cases hnil
  | false =>
    have hall := Lexeme.bytes_append_of_take htake
    rw [Lexeme.bytes, hquote, List.cons_append, List.cons_append] at hall
    rw [← hall] at hfront
    obtain ⟨cs, hcs⟩ := hfront.tail_of_lt (by decide)
    rw [← hcs] at hall
    subst hall
    obtain ⟨raw, hraw, hword, htext⟩ := Lexeme.exists_of_take_quote htake
    refine ⟨cs, ?_, htext, ?_⟩
    · have hslice := Text.slice?_of_append hsource ⟨'"' :: cs, rfl⟩
      rw [← Bytes.toText_ofChars]
      exact hslice
    · have hcut : Bytes.ofText source = (pre ++ l.word) ++ ofChars (Literal.read cs).2 := by
        rw [hsource, hword, List.append_assoc, List.cons_append, ← Bytes.ofChars_append, ← hraw]
      have hslice := Text.slice?_of_append hcut (Bytes.isText_ofChars _)
      rw [List.length_append, Bytes.toText_ofChars] at hslice
      exact hslice

namespace Scanner

variable {source : String} {v : Vocabulary}

theorem At.isBoundary {s : Scanner} (h : At source s) :
    Text.isBoundary source s.offset = true := by
  obtain ⟨pre, hsplit, hlen⟩ := h.split
  rw [← hlen]
  exact Text.isBoundary_of_append hsplit h.isText

/-- The token that a call takes, with its separator up to the scanner after the call. -/
theorem At.untorn {first : Bool} {s s' : Scanner} {t : Token} (h : At source s)
    (hn : s.next? v first = some (t, s')) : t.Untorn source s'.offset := by
  have htiled := (h.next? hn).2
  obtain ⟨pre, l, rest, htake, hsource, hlen, ⟨hword, hsep, hrest⟩, rfl, rfl⟩ := h.exists_take hn
  have hfront := Lexeme.bytes_append_of_take htake
  have hwords : (v.token first s.offset l).word? source = some l.word := by
    rw [List.append_assoc pre] at hsource
    rw [← hlen]
    exact Vocabulary.word?_token hsource hword hsep hrest
  refine ⟨h.isBoundary, ?_, ?_, ⟨l.word, hwords, ?_⟩, ?_⟩
  · have hboundary := Text.isBoundary_of_append (by rw [hsource, List.append_assoc])
      (hsep.append hrest)
    rw [List.length_append, hlen] at hboundary
    exact hboundary
  · cases htiled with
    | token _ _ _ hslice => exact hslice
  · exact (Word.isText_decode hword).toText?_eq_some
  · intro w hw
    rw [hwords, Option.some.injEq] at hw
    have hrest' : Bytes.ofText source = pre ++ s.rest := by
      rw [hsource, ← hfront, Lexeme.bytes]
      simp only [List.append_assoc]
    rw [← hlen]
    exact Vocabulary.isRead_token hrest' h.isText htake hw

/-- Calls with any flags tear no character: the scanner is where one begins after each of them, and
so are both ends of each token and its separator. -/
theorem calls_untorn (v : Vocabulary) (source : String) (firsts : List Bool) :
    ∀ a ∈ (none, .ofText source) :: (Scanner.ofText source).calls v firsts,
      Text.isBoundary source a.2.offset = true ∧ ∀ t ∈ a.1, t.Untorn source a.2.offset := by
  intro a ha
  obtain ⟨hplace, htaken⟩ := at_of_mem_calls v source firsts a ha
  refine ⟨hplace.isBoundary, fun t ht => ?_⟩
  obtain ⟨first, before, hbefore, hn⟩ := htaken t ht
  exact hbefore.untorn hn

/-- A backslash takes the first of two bytes of a character, and no more than the backslash is
missing in the text. -/
theorem calls_untorn_escaped :
    let source := "\"\\é\""
    let t : Token := ⟨"\"é\"", "", .string, -1, ⟨0, 5⟩⟩
    let after : Scanner := ⟨[], 5, 0, none⟩
    (some t, after) ∈ (none, .ofText source) ::
        (Scanner.ofText source).calls ⟨.empty, .empty⟩ [true, false] ∧
      Text.isBoundary source after.offset = true ∧ t.Untorn source after.offset := by
  intro source t after
  have hmem : (some t, after) ∈ (none, .ofText source) ::
      (Scanner.ofText source).calls ⟨.empty, .empty⟩ [true, false] := by
    decide +kernel
  obtain ⟨hboundary, htokens⟩ := calls_untorn ⟨.empty, .empty⟩ source [true, false] _ hmem
  exact ⟨hmem, hboundary, htokens t rfl⟩

end Scanner

end RobotScript
