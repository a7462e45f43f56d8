import RobotScript.Proofs.OpenStrings
import RobotScript.Proofs.StreamShape

/-!
# Literals

A quoted word is taken byte by byte. It is the same to read it one character after the other: no
character is torn when its first byte is compared with a quote, a backslash or the end of a line, or
when a backslash takes just its first byte. Every text can be written as a literal, and is read back
whatever follows the literal in the source.

Results:

* `Literal.exists_of_read`: the characters of a literal drive the scanner as their bytes do.
* `Lexeme.exists_of_take_quote`: the quoted word that is taken, and its text.
* `Literal.read_write`: what is written is read back.
* `Stream.scan?_write`: a source that begins with a literal has it as its first word.
-/

namespace RobotScript

open Bytes (IsText ofChars)

/-! ## One character after the other -/

namespace Literal

/-- Whether a character ends a literal without closing it. -/
def endsLine (c : Char) : Bool := c == '\r' || c == '\n' || c == '\t'

/-- Reads the characters after an opening quote: those that the literal stands for, with its closing
quote if it has one, and those that follow the literal. -/
def read : List Char → List Char × List Char
  | [] => ([], [])
  | c :: rest =>
    if c = '"' then (['"'], rest)
    else if endsLine c then ([], c :: rest)
    else if c = '\\' then
      match rest with
      | [] => (['\\'], [])
      | d :: rest =>
        let (text, rest) := read rest
        (Word.unescapeChar d :: text, rest)
    else
      let (text, rest) := read rest
      (c :: text, rest)

end Literal

namespace Word

theorem foldlM_quotedStep_body {w : Bytes}
    (h : ∀ b ∈ w, b ≠ quote ∧ b ≠ backslash ∧ endsLine b = false) :
    w.foldlM quotedStep .body = some .body := by
  induction w with
  | nil => rfl
  | cons b w ih =>
    obtain ⟨hb, hw⟩ := List.forall_mem_cons.1 h
    have hstep : quotedStep .body b = some .body := quotedStep_eq_body_iff.2 (Or.inr ⟨rfl, hb⟩)
    rw [List.foldlM_cons, hstep, Option.bind_eq_bind, Option.bind_some, ih hw]

theorem body_of_isContinuation {b : UInt8} (h : Bytes.isContinuation b = true) :
    b ≠ quote ∧ b ≠ backslash ∧ endsLine b = false := by
  have hlt : ¬b < 0x80 := fun hb => by
    rw [Bytes.isContinuation_eq_false_of_lt hb] at h
    cases h
  refine ⟨?_, ne_backslash_of_isContinuation h, ?_⟩
  · rintro rfl
    exact hlt (by decide)
  · rw [← Bool.not_eq_true]
    exact fun hb => hlt (lt_of_endsLine hb)

/-- The bytes of a character that ends no literal and begins no escape are within the literal. -/
theorem foldlM_quotedStep_char {c : Char} (hquote : c ≠ '"') (hline : Literal.endsLine c = false)
    (hback : c ≠ '\\') : (String.utf8EncodeChar c).foldlM quotedStep .body = some .body := by
  simp only [Literal.endsLine, Bool.or_eq_false_iff, beq_eq_false_iff_ne] at hline
  apply foldlM_quotedStep_body
  intro b hb
  refine ⟨Bytes.ne_ascii_of_mem (by decide) hquote b hb, ne_backslash_of_mem hback b hb, ?_⟩
  simp only [endsLine, Bool.or_eq_false_iff, beq_eq_false_iff_ne]
  exact ⟨⟨Bytes.ne_ascii_of_mem (by decide) hline.1.1 b hb,
    Bytes.ne_ascii_of_mem (by decide) hline.1.2 b hb⟩,
    Bytes.ne_ascii_of_mem (by decide) hline.2 b hb⟩

/-- A backslash takes the first byte of a character, and the others are within the literal. -/
theorem foldlM_quotedStep_escaped (c : Char) :
    (String.utf8EncodeChar c).foldlM quotedStep .escaped = some .body := by
  obtain ⟨b, tail, he, -, ht, -⟩ := Bytes.utf8EncodeChar_shape c
  rw [he, List.foldlM_cons, quotedStep, Option.bind_eq_bind, Option.bind_some]
  exact foldlM_quotedStep_body fun x hx => body_of_isContinuation (ht x hx)

theorem halts_of_endsLine {c : Char} (h : Literal.endsLine c = true) (cs : List Char) :
    Halts quotedStep .body (ofChars (c :: cs)) := by
  simp only [Literal.endsLine, Bool.or_eq_true, beq_iff_eq] at h
  have hchar : c.val.toNat ≤ 0x7f := by
    rcases h with (rfl | rfl) | rfl <;> decide
  have hbyte : endsLine (Bytes.ascii c) = true := by
    rcases h with (rfl | rfl) | rfl <;> decide
  rw [Bytes.ofChars_cons, Bytes.utf8EncodeChar_of_le hchar]
  intro b hb
  obtain rfl := Option.some.inj hb
  exact quotedStep_body_eq_none_iff.2 hbyte

end Word

namespace Literal

/-- The characters of a literal drive the scanner as their bytes do, which it halts after, and stand
for the characters that are read. -/
theorem exists_of_read (cs : List Char) :
    ∃ raw state, cs = raw ++ (read cs).2 ∧
      (ofChars raw).foldlM Word.quotedStep .body = some state ∧
      Word.Halts Word.quotedStep state (ofChars (read cs).2) ∧
      Word.unescapeChars raw = (read cs).1 := by
  fun_induction read cs with
  | case1 => exact ⟨[], .body, rfl, rfl, by simp [Word.Halts], rfl⟩
  | case2 rest =>
    refine ⟨['"'], .closed, rfl, rfl, ?_, rfl⟩
    intro b _
    rfl
  | case3 c rest hquote hline =>
    exact ⟨[], .body, rfl, rfl, Word.halts_of_endsLine hline rest, rfl⟩
  | case4 => exact ⟨['\\'], .escaped, rfl, rfl, by simp [Word.Halts], rfl⟩
  | case5 d rest text rest' hread _ _ ih =>
    rw [hread] at ih
    obtain ⟨raw, state, rfl, hstate, hhalts, htext⟩ := ih
    refine ⟨'\\' :: d :: raw, state, rfl, ?_, hhalts, ?_⟩
    · have hback : String.utf8EncodeChar '\\' = [Word.backslash] := rfl
      have hstep : Word.quotedStep .body Word.backslash = some .escaped := rfl
      rw [Bytes.ofChars_cons, hback, List.singleton_append, List.foldlM_cons, hstep,
        Option.bind_eq_bind, Option.bind_some, Bytes.ofChars_cons, List.foldlM_append,
        Word.foldlM_quotedStep_escaped, Option.bind_eq_bind, Option.bind_some, hstate]
    · rw [Word.unescapeChars_backslash_cons, htext]
  | case6 c rest hquote hline hback text rest' hread ih =>
    rw [hread] at ih
    obtain ⟨raw, state, rfl, hstate, hhalts, htext⟩ := ih
    refine ⟨c :: raw, state, rfl, ?_, hhalts, ?_⟩
    · have hchar := Word.foldlM_quotedStep_char hquote (by simpa using hline) hback
      rw [Bytes.ofChars_cons, List.foldlM_append, hchar, Option.bind_eq_bind, Option.bind_some,
        hstate]
    · rw [Word.unescapeChars_cons_of_ne hback, htext]

end Literal

/-! ## The quoted word that is taken -/

/-- A quoted word is the literal that its characters are read as. -/
theorem Lexeme.exists_of_take_quote {known : Bytes → Bool} {cs : List Char} {rest : Bytes}
    {l : Lexeme} (h : take known false (Word.quote :: ofChars cs) = (l, rest)) :
    ∃ raw, cs = raw ++ (Literal.read cs).2 ∧ l.word = Word.quote :: ofChars raw ∧
      l.text = String.ofList ('"' :: (Literal.read cs).1) := by
  obtain ⟨raw, state, hcs, hstate, hhalts, htext⟩ := Literal.exists_of_read cs
  have hlength : Word.length known (Word.quote :: ofChars cs) =
      (Word.quote :: ofChars raw).length := by
    have hwhole : ofChars cs = ofChars raw ++ ofChars (Literal.read cs).2 := by
      rw [← Bytes.ofChars_append, ← hcs]
    rw [hwhole]
    exact (Word.length_append_iff_of_quoted rfl).2 ⟨state, hstate, hhalts⟩
  have hword : l.word = Word.quote :: ofChars raw := by
    have hall := bytes_append_of_take h
    rw [hcs, Bytes.ofChars_append, bytes, List.append_assoc, ← List.cons_append] at hall
    rw [length_of_take h] at hlength
    exact List.append_inj_left hall hlength
  refine ⟨raw, hcs, hword, ?_⟩
  rw [Lexeme.text, hword, Word.decode_quote_cons, Word.unescape_ofChars, htext,
    ← Bytes.toText_ofChars]
  rfl

namespace Cut

variable {known : Bytes → Bool} {source : String} {gap : List GapItem} {ls : List Lexeme}
  {cs : List Char}

/-- A source that begins with a quote has no gap at its head, and its first word is the literal that
its characters are read as. -/
theorem exists_of_quote (h : Cut known source gap ls)
    (hsource : Bytes.ofText source = Word.quote :: ofChars cs) :
    gap = [] ∧ ∃ l ls' raw, ls = l :: ls' ∧ cs = raw ++ (Literal.read cs).2 ∧
      l.word = Word.quote :: ofChars raw ∧ l.text = String.ofList ('"' :: (Literal.read cs).1) := by
  have hscan := h.scan
  have hbegins : Gap.begins (Word.quote :: ofChars cs) = false := rfl
  rw [hsource, Gap.scan_of_next?_eq_none (Gap.next?_eq_none_iff.2 hbegins)] at hscan
  obtain ⟨rfl, hbytes⟩ := Prod.mk.inj hscan
  have hlexed := h.lexed
  rw [← hbytes] at hlexed
  cases hlexed with
  | cons _ _ htake _ =>
    obtain ⟨raw, hcs, hword, htext⟩ := Lexeme.exists_of_take_quote htake
    exact ⟨rfl, _, _, raw, rfl, hcs, hword, htext⟩

end Cut

/-! ## Writing literals -/

namespace Literal

/-- How a character is written in a literal. -/
def escape : Char → List Char
  | '"' => ['\\', '"']
  | '\\' => ['\\', '\\']
  | '\n' => ['\\', 'n']
  | '\r' => ['\\', 'r']
  | '\t' => ['\\', 't']
  | c => [c]

/-- A text as a literal. -/
def write (c : String) : String := "\"" ++ String.ofList (c.toList.flatMap escape) ++ "\""

theorem read_escape_append (c : Char) (rest : List Char) :
    read (escape c ++ rest) = (c :: (read rest).1, (read rest).2) := by
  unfold escape
  split
  · rfl
  · rfl
  · rfl
  · rfl
  · rfl
  · rename_i hquote hback hn hr ht
    have hline : endsLine c = false := by
      simp only [endsLine, Bool.or_eq_false_iff, beq_eq_false_iff_ne]
      exact ⟨⟨hr, hn⟩, ht⟩
    rw [List.singleton_append, read.eq_def]
    simp only [hline, Bool.false_eq_true, if_false]
    rw [if_neg hquote, if_neg hback]

/-- What is written is read back, whatever follows it. -/
theorem read_write (cs rest : List Char) :
    read (cs.flatMap escape ++ '"' :: rest) = (cs ++ ['"'], rest) := by
  induction cs with
  | nil =>
    rw [List.flatMap_nil, List.nil_append, read.eq_def]
    rfl
  | cons c cs ih =>
    rw [List.flatMap_cons, List.append_assoc, read_escape_append, ih, List.cons_append]

theorem ofText_write (c : String) : Bytes.ofText (write c) =
    Word.quote :: ofChars (c.toList.flatMap escape ++ ['"']) := by
  rw [write, Bytes.ofText_eq_ofChars]
  simp only [String.toList_append, String.toList_ofList]
  rfl

theorem ofText_write_append (c r : String) : Bytes.ofText (write c ++ r) =
    Word.quote :: ofChars (c.toList.flatMap escape ++ '"' :: r.toList) := by
  rw [Text.ofText_append, ofText_write, Bytes.ofText_eq_ofChars r, List.cons_append,
    ← Bytes.ofChars_append, List.append_assoc, List.singleton_append]

end Literal

/-! ## Literals in the stream -/

/-- No standard keyword begins with a quote. -/
theorem Keyword.lookup_standard_quote {text : String} {w : Bytes}
    (ht : Bytes.ofText text = Word.quote :: w) :
    (populate standard).entries.lookup text = -1 := by
  have hoffers : ∀ entry ∈ offers standard, (Bytes.ofText entry.1).head? ≠ some Word.quote := by
    decide +kernel
  apply lookup_eq_neg_one
  rintro entry hentry rfl
  exact hoffers entry ((sublist_populate standard).subset hentry) (by rw [ht, List.head?_cons])

namespace Vocabulary

variable {text : String} {w : Bytes}

/-- A text that begins with a quote is a literal, if it is neither a keyword nor a constant. -/
theorem classify_quote {keywords : Keyword.Entries} {constants : Constant.Table}
    (ht : Bytes.ofText text = Word.quote :: w) (hk : keywords.lookup text = -1)
    (hc : constants.resolve text = none) :
    classify ⟨keywords, constants⟩ false text = (.string, -1) := by
  simp only [classify, hk, hc, literalKind, ht]
  rfl

/-- With the standard keywords and no constants, each text that begins with a quote is a literal. -/
theorem classify_standard_quote (limit : Nat) (ht : Bytes.ofText text = Word.quote :: w) :
    (afterCommands Keyword.standard limit []).classify false text = (.string, -1) := by
  rw [afterCommands]
  exact classify_quote ht (Keyword.lookup_standard_quote ht) rfl

end Vocabulary

/-- A problem with a literal is that of a token that is taken for an open one. -/
theorem Diagnostic.exists_of_mem_ofStream {stream : Stream} {scanner : Scanner} {d : Diagnostic}
    (hd : d ∈ ofStream stream scanner) (hopen : d.isOpenString = true) :
    ∃ t ∈ stream.tokens.toList, t.isUnterminatedString = true ∧ d.span = t.span := by
  unfold ofStream at hd
  rw [List.mem_mergeSort, List.mem_append, List.mem_map, Array.toList_filter] at hd
  rcases hd with ⟨t, ht, rfl⟩ | hcomment
  · obtain ⟨hmem, hunterminated⟩ := List.mem_filter.1 ht
    exact ⟨t, hmem, hunterminated, rfl⟩
  · obtain ⟨start, -, rfl⟩ := List.mem_map.1 hcomment
    cases hopen

/-- A token is what a text is written as, at the start of a source. -/
structure Token.IsWritten (t : Token) (c : String) : Prop where
  kind_eq : t.kind = .string
  span_eq : t.span = ⟨0, (Literal.write c).utf8ByteSize⟩
  text_eq : t.text = "\"" ++ c ++ "\""
  stringContent?_eq : t.stringContent? = some c
  isUnterminatedString_eq : t.isUnterminatedString = false

theorem Vocabulary.isWritten_token {v : Vocabulary} {l : Lexeme} {c : String}
    (hword : l.word = Bytes.ofText (Literal.write c))
    (htext : l.text = String.ofList ('"' :: (c.toList ++ ['"'])))
    (hclass : v.classify false l.text = (.string, -1)) : (v.token false 0 l).IsWritten c := by
  have hkind : (v.token false 0 l).kind = .string := congrArg Prod.fst hclass
  refine ⟨hkind, ?_, ?_, ?_, ?_⟩
  · show Span.mk 0 (0 + l.word.length) = _
    rw [hword, Text.length_ofText, Nat.zero_add]
  · show l.text = _
    rw [htext, ← String.toList_inj]
    simp
  · rw [Token.stringContent?_eq_some hkind htext, Token.dropLastQuote, List.getLast?_concat,
      if_pos rfl, List.dropLast_concat, String.ofList_toList]
  · rw [← Bool.not_eq_true, Token.isUnterminatedString_iff hkind htext, List.getLast?_concat]
    simp

/-- Tokens that have bytes are known by their places. -/
theorem Vocabulary.eq_of_span_eq {v : Vocabulary} {source : String} {gap : List GapItem}
    {ls : List Lexeme} (h : Cut v.knows source gap ls) {a b : Token}
    (ha : a ∈ (v.stream gap ls source.utf8ByteSize).tokens.toList)
    (hb : b ∈ (v.stream gap ls source.utf8ByteSize).tokens.toList) (hspan : a.span = b.span)
    (hpos : a.span.start < a.span.stop) : a = b := by
  have hpairwise := List.pairwise_iff_getElem.1 (pairwise_stream h)
  obtain ⟨i, hi, rfl⟩ := List.mem_iff_getElem.1 ha
  obtain ⟨j, hj, rfl⟩ := List.mem_iff_getElem.1 hb
  rcases Nat.lt_trichotomy i j with hlt | rfl | hlt
  · have hplaces := hpairwise i j hi hj hlt
    rw [← hspan] at hplaces
    omega
  · rfl
  · have hplaces := hpairwise j i hj hi hlt
    rw [← hspan] at hplaces
    omega

/-- A source that begins with a written text has it as its first word, if literals are neither
keywords nor constants. -/
theorem Stream.exists_isWritten {v : Vocabulary} (hhead : v.classify true "" = (.leading, -1))
    (hclass : ∀ text w, Bytes.ofText text = Word.quote :: w →
      v.classify false text = (.string, -1)) (c r : String) :
    ∃ stream scanner t, Stream.scan? v (Literal.write c ++ r) = some (stream, scanner) ∧
      stream.words[0]? = some t ∧ t.IsWritten c ∧
      ∀ d ∈ Diagnostic.ofStream stream scanner, d.isOpenString = true → d.span ≠ t.span := by
  have hsource := Literal.ofText_write_append c r
  have hne : Literal.write c ++ r ≠ "" := by
    intro h
    rw [h] at hsource
    cases hsource
  obtain ⟨gap, ls, hcut⟩ := Cut.exists_cut v.knows (Literal.write c ++ r)
  obtain ⟨rfl, l, ls, raw, rfl, hraw, hword, htext⟩ := hcut.exists_of_quote hsource
  rw [Literal.read_write] at hraw htext
  have hwritten : (v.token false 0 l).IsWritten c := by
    apply Vocabulary.isWritten_token _ htext
    · apply hclass l.text (ofChars (c.toList ++ ['"']))
      rw [htext, Bytes.ofText_ofList]
      rfl
    · rw [List.append_cons] at hraw
      rw [hword, ← List.append_cancel_right hraw, Literal.ofText_write]
  refine ⟨_, _, v.token false 0 l, hcut.scan?_eq hne, ?_, hwritten, ?_⟩
  · rw [← Array.getElem?_toList, hcut.words_stream hhead]
    rfl
  · intro d hd hopen hspan
    obtain ⟨t, ht, hunterminated, hdt⟩ := Diagnostic.exists_of_mem_ofStream hd hopen
    have hmem : v.token false 0 l ∈
        (v.stream [] (l :: ls) (Literal.write c ++ r).utf8ByteSize).tokens.toList := by
      rw [Vocabulary.toList_stream]
      exact List.mem_cons_of_mem _ List.mem_cons_self
    have hpos : (v.token false 0 l).span.start < (v.token false 0 l).span.stop := by
      show 0 < 0 + l.word.length
      rw [hword, List.length_cons]
      omega
    have heq := Vocabulary.eq_of_span_eq hcut hmem ht (hspan.symm.trans hdt) hpos
    rw [← heq, hwritten.isUnterminatedString_eq] at hunterminated
    cases hunterminated

/-- Every text can be written as a literal: with the standard keywords and no constants, a source
that begins with it has it as its first word, whatever follows it, and no problem with it is
found. -/
theorem Stream.scan?_write (limit : Nat) (c r : String) :
    ∃ stream scanner t,
      Stream.scan? (.afterCommands Keyword.standard limit []) (Literal.write c ++ r) =
        some (stream, scanner) ∧
      stream.words[0]? = some t ∧ t.IsWritten c ∧
      ∀ d ∈ Diagnostic.ofStream stream scanner, d.isOpenString = true → d.span ≠ t.span := by
  apply Stream.exists_isWritten Vocabulary.classify_head
  intro text w ht
  exact Vocabulary.classify_standard_quote limit ht

end RobotScript
