import RobotScript.Lexer
import RobotScript.Proofs.Lexemes

/-!
# Literals without a closing quote

A token does not say whether its literal was closed: its text is asked for a quote at the end. That
quote may also be an escaped one, which the text shows like any other. So a literal that is not
closed is taken for a closed one exactly if the last of its bytes is an escaped quote, and the
content of the token lacks that quote then.

Results:

* `Token.showsLiteral`: what a token says about a literal, against the bytes of the literal.
* `Diagnostic.filter_ofStream`: the problems with literals, in the order of the tokens.
* `Lexer.tokenize_reports_open_literals`: what a lexer reports about the literals of a source.
-/

namespace RobotScript

open Bytes (IsText ofChars)

/-! ## The bytes of a literal -/

namespace Word

/-- The bytes between the quotes of a quoted word; the closing one may be missing. -/
def body (word : Bytes) : Bytes :=
  if isClosed word then (word.drop 1).dropLast else word.drop 1

/-- The text that stands between the quotes of a quoted word. -/
def content (word : Bytes) : String := Bytes.toText (unescape (body word))

/-- Whether a quoted word is not closed, and shows it by having no quote at its end. -/
def showsOpen (word : Bytes) : Bool := !isClosed word && !endsInEscapedQuote word

/-- What a token shows of the content of a quoted word: all of it, but for an escaped quote at its
end. -/
def shownContent (word : Bytes) : String :=
  if endsInEscapedQuote word then String.ofList (content word).toList.dropLast else content word

variable {w : Bytes} {state : QuotedState}

theorem isClosed_quote_cons (h : w.foldlM quotedStep .body = some state) :
    isClosed (quote :: w) = (state == .closed) := by
  rw [isClosed, List.drop_one, List.tail_cons, quotedState_eq h]

/-- The characters that a closed word stands for, up to the closing quote. -/
theorem content_of_isClosed {cs : List Char}
    (h : (ofChars cs).foldlM quotedStep .body = some .closed) :
    content (quote :: ofChars cs) = String.ofList (unescapeChars cs).dropLast := by
  obtain ⟨front, hcs, hfront⟩ := foldlM_quotedStep_eq_closed h
  have htext : IsText (front ++ [quote]) := ⟨cs, hcs⟩
  obtain ⟨⟨ds, hds⟩, -⟩ := htext.of_append (Bytes.startsCharacter_of_lt (by decide))
  have hdrop : body (quote :: ofChars cs) = ofChars ds := by
    rw [body, isClosed_quote_cons h, List.drop_one, List.tail_cons, hcs, List.dropLast_concat, hds]
    rfl
  have hchars : unescapeChars cs = unescapeChars ds ++ ['"'] := by
    apply Bytes.ofChars_injective
    rw [← unescape_ofChars, hcs, unescape_append_of_body hfront, ← hds, unescape_ofChars,
      Bytes.ofChars_append]
    rfl
  rw [content, hdrop, unescape_ofChars, Bytes.toText_ofChars, hchars, List.dropLast_concat]

/-- The characters that a word without a closing quote stands for. -/
theorem content_of_not_isClosed {cs : List Char} (h : isClosed (quote :: ofChars cs) = false) :
    content (quote :: ofChars cs) = String.ofList (unescapeChars cs) := by
  rw [content, body, h, List.drop_one, List.tail_cons, if_neg Bool.false_ne_true,
    unescape_ofChars, Bytes.toText_ofChars]

end Word

/-! ## Tokens of literals -/

namespace Token

open Word

variable {t : Token} {cs : List Char} {state : QuotedState}

/-- The bytes of a token in the source. -/
def word? (source : String) (t : Token) : Option Bytes := (t.span.slice? source).map Bytes.ofText

/-- Whether a token is a literal that is not closed in the source, and shows it. -/
def showsOpen (source : String) (t : Token) : Bool :=
  t.kind = .string && (t.word? source).any Word.showsOpen

/-- What the token of a literal says about it, against the bytes of the literal. -/
structure ShowsLiteral (t : Token) (word : Bytes) : Prop where
  isUnterminatedString_eq : t.isUnterminatedString = Word.showsOpen word
  stringContent?_eq : t.stringContent? = some (shownContent word)
  /-- Both answers are right exactly if the literal does not end in an escaped quote. -/
  right_iff : (t.isUnterminatedString = !isClosed word) ∧ t.stringContent? = some (content word) ↔
    endsInEscapedQuote word = false

/-- A literal is taken for an open one if the characters after its opening quote do not end in a
quote. -/
theorem isUnterminatedString_iff (hk : t.kind = .string)
    (ht : t.text = String.ofList ('"' :: cs)) :
    t.isUnterminatedString = true ↔ cs.getLast? ≠ some '"' := by
  have hsize : t.text.utf8ByteSize = 1 + (ofChars cs).length := by
    rw [ht, ← Text.length_ofText, Bytes.ofText_ofList, Bytes.ofChars_cons, List.length_append]
    rfl
  cases cs with
  | nil => simp [isUnterminatedString, hk, hsize]
  | cons c cs =>
    have hpos : 0 < (ofChars (c :: cs)).length := by
      rw [Bytes.ofChars_cons, List.length_append]
      have := List.length_pos_iff.2 (String.utf8EncodeChar_ne_nil (c := c))
      omega
    have hlong : ¬t.text.utf8ByteSize < 2 := by omega
    have hlast : t.text.toList.getLast? = (c :: cs).getLast? := by
      rw [ht, String.toList_ofList, List.getLast?_cons_cons]
    simp only [isUnterminatedString, hk, hlong, hlast]
    simp

theorem stringContent?_eq_some (hk : t.kind = .string) (ht : t.text = String.ofList ('"' :: cs)) :
    t.stringContent? = some (String.ofList (dropLastQuote cs)) := by
  rw [stringContent?, if_pos hk, ht, String.toList_ofList]
  rfl

variable (hword : (ofChars cs).foldlM quotedStep .body = some state)
  (hk : t.kind = .string) (ht : t.text = String.ofList ('"' :: unescapeChars cs))

include hword hk ht

/-- A literal is taken for an open one if it is not closed and shows it. -/
theorem isUnterminatedString_eq_showsOpen :
    t.isUnterminatedString = Word.showsOpen (quote :: ofChars cs) := by
  have hlast := getLast?_unescapeChars_eq_quote_iff hword
  rw [Bool.eq_iff_iff, isUnterminatedString_iff hk ht, Ne, hlast, Word.showsOpen,
    isClosed_quote_cons hword]
  simp

/-- The content of a literal is all of it, but for a quote at the end of a literal that is not
closed. -/
theorem stringContent?_eq_shownContent :
    t.stringContent? = some (shownContent (quote :: ofChars cs)) := by
  have hlast := getLast?_unescapeChars_eq_quote_iff hword
  rw [stringContent?_eq_some hk ht, dropLastQuote, shownContent]
  by_cases hc : state = .closed
  · subst hc
    rw [if_pos (hlast.2 (Or.inl rfl)), content_of_isClosed hword,
      endsInEscapedQuote_of_closed hword, if_neg Bool.false_ne_true]
  · have hopen : isClosed (quote :: ofChars cs) = false := by
      rw [isClosed_quote_cons hword]
      simpa using hc
    rw [content_of_not_isClosed hopen, String.toList_ofList]
    cases hescaped : endsInEscapedQuote (quote :: ofChars cs) with
    | true => rw [if_pos (hlast.2 (Or.inr hescaped)), if_pos rfl]
    | false =>
      rw [if_neg, if_neg Bool.false_ne_true]
      rw [hlast, hescaped]
      simpa using hc

theorem showsLiteral : t.ShowsLiteral (quote :: ofChars cs) := by
  have hopen := isUnterminatedString_eq_showsOpen hword hk ht
  have hcontent := stringContent?_eq_shownContent hword hk ht
  refine ⟨hopen, hcontent, ?_⟩
  rw [hopen, hcontent, Word.showsOpen, shownContent]
  cases hescaped : endsInEscapedQuote (quote :: ofChars cs) with
  | false => simp
  | true =>
    have hclosed : isClosed (quote :: ofChars cs) = false := by
      rw [isClosed_quote_cons hword, beq_eq_false_iff_ne]
      rintro rfl
      rw [endsInEscapedQuote_of_closed hword] at hescaped
      cases hescaped
    simp [hclosed]

end Token

/-! ## Literals of a source -/

/-- A quoted word that is taken drives the machine on. -/
theorem Lexeme.exists_foldlM_of_take {known : Bytes → Bool} {front rest w : Bytes} {l : Lexeme}
    (h : take known false front = (l, rest)) (hw : l.word = Word.quote :: w) :
    ∃ state, w.foldlM Word.quotedStep .body = some state := by
  have hlen := length_of_take h
  rw [← bytes_append_of_take h, bytes, List.append_assoc, hw] at hlen
  obtain ⟨state, hstate, -⟩ := (Word.length_append_iff_of_quoted rfl).1 hlen
  exact ⟨state, hstate⟩

namespace Vocabulary

variable {v : Vocabulary} {source : String} {ls : List Lexeme} {gap : List GapItem}

/-- The bytes of a token in the source are those of its word. -/
theorem word?_token {first : Bool} {l : Lexeme} {pre post : Bytes}
    (h : Bytes.ofText source = pre ++ l.bytes ++ post) (hword : IsText l.word)
    (hsep : IsText l.separator) (hpost : IsText post) :
    (v.token first pre.length l).word? source = some l.word := by
  rw [Token.word?, slice?_token h hword hsep hpost, Option.map_some, hword.ofText_toText]

theorem exists_of_literalKind_eq_string {first : Bool} {text : String}
    (h : literalKind first text = .string) :
    first = false ∧ ∃ w, Bytes.ofText text = Word.quote :: w := by
  unfold literalKind at h
  cases first with
  | true => cases h
  | false =>
    refine ⟨rfl, ?_⟩
    cases hb : Bytes.ofText text with
    | nil => simp [hb] at h
    | cons b w =>
      simp only [hb, Bool.false_eq_true, ite_false] at h
      split at h
      · cases h
      · split at h
        · rename_i hquote
          exact ⟨w, by rw [beq_iff_eq.1 hquote]⟩
        · cases h

/-- A literal is a quoted word, and no head. -/
theorem exists_of_kind_eq_string {first : Bool} {offset : Nat} {l : Lexeme} (hl : IsText l.word)
    (hk : (v.token first offset l).kind = .string) :
    first = false ∧ ∃ cs, l.word = Word.quote :: ofChars cs := by
  have hliteral : literalKind first l.text = .string := by
    simp only [Vocabulary.token, classify] at hk
    split at hk
    · cases hk
    · split at hk
      · cases hk
      · exact hk
  obtain ⟨hfirst, w, hw⟩ := exists_of_literalKind_eq_string hliteral
  refine ⟨hfirst, ?_⟩
  have hhead : l.word.head? = some Word.quote := by
    rw [← Word.head?_decode, ← Lexeme.ofText_text hl, hw, List.head?_cons]
  obtain ⟨tail, hword⟩ := List.head?_eq_some_iff.1 hhead
  rw [hword] at hl ⊢
  obtain ⟨cs, rfl⟩ := hl.tail_of_lt (by decide)
  exact ⟨cs, rfl⟩

/-- Head and terminator are no literals. -/
theorem mem_tokens_of_kind_eq_string {size : Nat} {t : Token}
    (ht : t ∈ (v.stream gap ls size).tokens.toList) (hk : t.kind = .string) :
    t ∈ v.tokens (Gap.bytes gap).length ls := by
  rw [toList_stream, List.mem_cons, List.mem_append, List.mem_singleton] at ht
  obtain rfl | ht | rfl := ht
  · obtain ⟨hfirst, -⟩ := exists_of_kind_eq_string IsText.nil hk
    cases hfirst
  · exact ht
  · cases hk

end Vocabulary

/-- What the token of a literal shows, against the bytes of its word. -/
theorem Cut.shows_literals {v : Vocabulary} {source : String} {ls : List Lexeme}
    {gap : List GapItem} (h : Cut v.knows source gap ls) :
    ∀ t ∈ (v.stream gap ls source.utf8ByteSize).tokens.toList, t.kind = .string →
      ∃ word, t.word? source = some word ∧ t.ShowsLiteral word := by
  intro t ht hk
  obtain ⟨l, hl, offset, rfl, hslice⟩ := Vocabulary.exists_of_mem_tokens h.isText h.bytes_eq.symm t
    (Vocabulary.mem_tokens_of_kind_eq_string ht hk)
  obtain ⟨-, cs, hword⟩ := Vocabulary.exists_of_kind_eq_string (h.isText l hl).1 hk
  obtain ⟨-, front, rest, htake⟩ := h.lexed.exists_take l hl
  obtain ⟨state, hstate⟩ := Lexeme.exists_foldlM_of_take htake hword
  have htext : (v.token false offset l).text = String.ofList ('"' :: Word.unescapeChars cs) := by
    show Bytes.toText (Word.decode l.word) = _
    rw [hword, Word.decode_quote_cons, Word.unescape_ofChars, ← Bytes.toText_ofChars]
    rfl
  refine ⟨Word.quote :: ofChars cs, ?_, Token.showsLiteral hstate hk htext⟩
  rw [Token.word?, hslice, Option.map_some, (h.isText l hl).1.ofText_toText, hword]

/-! ## What a lexer reports -/

namespace Diagnostic

/-- Whether a problem is a literal without its closing quote. -/
def isOpenString (d : Diagnostic) : Bool := d.code = .unterminatedString

theorem filter_isOpenString_openString (ts : List Token) :
    (ts.map fun t => openString t.span).filter isOpenString =
      ts.map fun t => openString t.span := by
  rw [List.filter_eq_self, List.forall_mem_map]
  intro t _
  rfl

theorem filter_isOpenString_openComment (starts : List Nat) (stop : Nat) :
    (starts.map fun start => openComment ⟨start, stop⟩).filter isOpenString = [] := by
  rw [List.filter_eq_nil_iff, List.forall_mem_map]
  intro start _ h
  cases h

/-- The problems with literals keep the order of the tokens, whatever comments are among them. -/
theorem filter_ofStream {stream : Stream} {scanner : Scanner}
    (h : (stream.tokens.toList.filter Token.isUnterminatedString).Pairwise
      fun a b => a.span.start ≤ b.span.start) :
    (ofStream stream scanner).filter isOpenString =
      (stream.tokens.toList.filter Token.isUnterminatedString).map fun t => openString t.span := by
  unfold ofStream
  rw [Array.toList_filter]
  generalize stream.tokens.toList.filter Token.isUnterminatedString = ts at h
  have hcomments := filter_isOpenString_openComment scanner.openComment.toList scanner.offset
  generalize (scanner.openComment.toList.map fun start =>
    openComment ⟨start, scanner.offset⟩) = comments at hcomments
  have hsorted : (ts.map fun t => openString t.span).Pairwise
      fun a b => decide (a.span.start ≤ b.span.start) := by
    rw [List.pairwise_map]
    exact h.imp fun hle => decide_eq_true hle
  -- sorting keeps the literals in their order, and adds no other problem of their code
  have hsub := (List.sublist_mergeSort (fun a b c hab hbc => by simp at *; omega)
    (fun a b => by simp; omega) hsorted (List.sublist_append_left _ comments)).filter isOpenString
  have hperm := (List.mergeSort_perm ((ts.map fun t => openString t.span) ++ comments)
    fun a b => decide (a.span.start ≤ b.span.start)).filter isOpenString
  rw [filter_isOpenString_openString] at hsub
  rw [List.filter_append, filter_isOpenString_openString, hcomments, List.append_nil] at hperm
  exact (hsub.eq_of_length hperm.length_eq.symm).symm

end Diagnostic

namespace Metrics

theorem openStrings_record (detailed : Bool) (m : Metrics) (t : Token) :
    (m.record detailed t).openStrings =
      m.openStrings + if t.isUnterminatedString then 1 else 0 := by
  have hdetails : ∀ m : Metrics, (m.recordDetails t).openStrings = m.openStrings := fun _ => rfl
  unfold record Token.isWord
  cases hk : t.kind with
  | string =>
    cases detailed <;> simp [hdetails, recordKind, hk]
  | _ =>
    have hopen : t.isUnterminatedString = false := by simp [Token.isUnterminatedString, hk]
    rw [hopen]
    cases detailed <;> simp [hdetails, recordKind, hk]

theorem openStrings_foldl (detailed : Bool) (ts : List Token) (m : Metrics) :
    (ts.foldl (record detailed) m).openStrings =
      m.openStrings + (ts.filter Token.isUnterminatedString).length := by
  induction ts generalizing m with
  | nil => rfl
  | cons t ts ih =>
    rw [List.foldl_cons, ih, openStrings_record, List.filter_cons]
    split
    · rw [List.length_cons]
      omega
    · rfl

theorem openStrings_measure (detailed : Bool) (bytes : Nat) (stream : Stream) (s : Scanner) :
    (Lexer.measure detailed bytes stream s).openStrings =
      (stream.tokens.toList.filter Token.isUnterminatedString).length := by
  have h := openStrings_foldl detailed stream.tokens.toList (.ofSize bytes)
  rw [Array.foldl_toList] at h
  exact h.trans (Nat.zero_add _)

end Metrics

/-- What a lexer reports about the literals of a source. A literal is reported as open exactly if
it has no closing quote and the last of its bytes is no escaped quote: the problems with literals
and their number are those of these literals, in their order. A token has the whole content of its
literal, but for a quote that was escaped at the end of it. -/
theorem Lexer.tokenize_reports_open_literals (elapsed : Nat) (source : String) (l : Lexer) :
    match l.tokenize elapsed source with
    | (none, l', _) => l'.diagnostics = [] ∧ l'.metrics.openStrings = 0
    | (some stream, l', _) =>
      (∀ t ∈ stream.tokens.toList, t.kind = .string →
        ∃ word, t.word? source = some word ∧ t.ShowsLiteral word) ∧
      l'.diagnostics.filter Diagnostic.isOpenString =
        (stream.tokens.toList.filter (Token.showsOpen source)).map
          (fun t => Diagnostic.openString t.span) ∧
      l'.metrics.openStrings = (stream.tokens.toList.filter (Token.showsOpen source)).length := by
  rcases hkeywords : keywordsFor source l.keywords with ⟨entries, keywords, effects⟩
  rw [Lexer.tokenize, hkeywords]
  by_cases hne : source = ""
  · subst hne
    have hscan : Stream.scan? ⟨entries, l.constants⟩ "" = none :=
      (Stream.scan?_eq_none_iff _ _).2 rfl
    simp [hscan, Metrics.ofSize]
  · obtain ⟨gap, ls, hcut⟩ := Cut.exists_cut (Vocabulary.knows ⟨entries, l.constants⟩) source
    have hshows := hcut.shows_literals
    have hsorted := Vocabulary.pairwise_stream hcut
    simp only [hcut.scan?_eq hne]
    generalize Vocabulary.stream ⟨entries, l.constants⟩ gap ls source.utf8ByteSize = stream
      at hshows hsorted
    have hfilter : stream.tokens.toList.filter Token.isUnterminatedString =
        stream.tokens.toList.filter (Token.showsOpen source) := by
      refine List.filter_congr fun t ht => ?_
      by_cases hk : t.kind = .string
      · obtain ⟨word, hword, hliteral⟩ := hshows t ht hk
        simp [Token.showsOpen, hk, hword, hliteral.isUnterminatedString_eq]
      · simp [Token.isUnterminatedString, Token.showsOpen, hk]
    rw [← hfilter]
    refine ⟨hshows, Diagnostic.filter_ofStream ?_, Metrics.openStrings_measure _ _ _ _⟩
    exact (hsorted.imp fun h => Nat.le_trans h.1 h.2).filter _

/-- A quote, a backslash and a quote: the only closing quote there could be is escaped, and is the
content of the literal. The token shows no content, and no problem is found. -/
theorem Stream.scan?_escaped_quote_at_end :
    (Stream.tokenize ⟨.empty, .empty⟩ "\"\\\"").map (fun stream =>
      (stream.tokens.toList.filter fun t => t.kind = .string).map fun t =>
        ((t.word? "\"\\\"").map Word.isClosed, (t.word? "\"\\\"").map Word.content,
          t.isUnterminatedString, t.stringContent?)) =
      some [(some false, some "\"", false, some "")] ∧
    (Stream.scan? ⟨.empty, .empty⟩ "\"\\\"").map (fun (stream, scanner) =>
      Diagnostic.ofStream stream scanner) = some [] := by
  constructor
  · decide +kernel
  · decide +kernel

end RobotScript
