import RobotScript.Proofs.Comments

/-!
# Places of problems

The problems with literals come from the tokens, and the problem with a comment from the scanner.
A word with a closing quote or without one has bytes and ends where its gap begins, and a comment
without its end is the last thing in the last gap. So all these places are apart, in the order of
the tokens and then the comment, and sorting them changes nothing.

Results:

* `Cut.starts_with_quote`: the place of a literal.
* `Cut.starts_with_mark`: the place of a comment without its end.
* `Cut.stop_le_of_openLast?`: all words end before such a comment.
* `Diagnostic.ofStream_eq`: problems at places that are apart are not moved.
* `Lexer.tokenize_reports_apart`: the places of all problems in a source.
-/

namespace RobotScript

open Bytes (IsText)

/-! ## Places -/

/-- A range has bytes in a source, and begins and ends where characters do. -/
structure Span.Within (source : String) (s : Span) : Prop where
  start_lt : s.start < s.stop
  stop_le : s.stop ≤ source.utf8ByteSize
  isBoundary_start : Text.isBoundary source s.start = true
  isBoundary_stop : Text.isBoundary source s.stop = true

/-- The range of a text within another. -/
theorem Span.Within.of_append {source : String} {pre mid post : Bytes}
    (h : Bytes.ofText source = pre ++ (mid ++ post)) (hne : mid ≠ []) (hmid : IsText (mid ++ post))
    (hpost : IsText post) : Within source ⟨pre.length, pre.length + mid.length⟩ := by
  have hpos := List.length_pos_iff.2 hne
  have hsize := congrArg List.length h
  rw [Text.length_ofText, List.length_append, List.length_append] at hsize
  have hstop : Text.isBoundary source (pre ++ mid).length = true :=
    Text.isBoundary_of_append (by rw [h, List.append_assoc]) hpost
  rw [List.length_append] at hstop
  exact ⟨by simpa using hpos, by simp only; omega, Text.isBoundary_of_append h hmid, hstop⟩

/-- The bytes of a source from an offset on begin with a mark. -/
def Bytes.MarkAt (source : String) (offset : Nat) (mark : Bytes) : Prop :=
  mark <+: (ofText source).drop offset

/-- The mark that opens a block comment. -/
def Gap.blockStart : Bytes := [slash, star]

/-! ## Literals -/

/-- A literal of a source begins with its quote. -/
theorem Cut.starts_with_quote {v : Vocabulary} {source : String} {gap : List GapItem}
    {ls : List Lexeme} (h : Cut v.knows source gap ls) {t : Token}
    (ht : t ∈ (v.stream gap ls source.utf8ByteSize).tokens.toList) (hk : t.kind = .string) :
    t.span.Within source ∧ Bytes.MarkAt source t.span.start [Word.quote] := by
  obtain ⟨pre, l, post, htaken, rfl⟩ :=
    h.exists_takenFrom t (Vocabulary.mem_tokens_of_kind_eq_string ht hk)
  obtain ⟨hword, hsep, hpost⟩ := Lexeme.isText_of_take htaken.isText htaken.take_eq
  obtain ⟨-, cs, hquote⟩ := Vocabulary.exists_of_kind_eq_string hword hk
  have hbytes := htaken.bytes_eq
  have htext := htaken.isText
  rw [Lexeme.bytes, List.append_assoc] at hbytes htext
  refine ⟨.of_append hbytes htaken.word_ne_nil htext (hsep.append hpost), ?_⟩
  show [Word.quote] <+: (Bytes.ofText source).drop pre.length
  rw [hbytes, List.drop_left, hquote]
  exact ⟨_, rfl⟩

/-! ## A comment without its end -/

theorem Gap.mem_of_openLast? {items : List GapItem} {item : GapItem}
    (h : openLast? items = some item) : item ∈ items ∧ item.isOpen = true := by
  obtain ⟨hlast, hopen⟩ := Option.filter_eq_some_iff.1 h
  exact ⟨List.mem_of_getLast? hlast, hopen⟩

/-- An item of several stands somewhere. -/
theorem Gap.Items.exists_stands {s rest : Bytes} {items : List GapItem} (h : Items s items rest) :
    ∀ item ∈ items, ∃ rest, Stands item rest := by
  induction h with
  | nil => simp
  | cons _ hstands _ ih => exact List.forall_mem_cons.2 ⟨⟨_, hstands⟩, ih⟩

/-- A comment without its end begins with its mark. -/
theorem Gap.Stands.blockStart_isPrefix {item : GapItem} {rest : Bytes} (h : Stands item rest)
    (hopen : item.isOpen = true) : blockStart <+: item.bytes := by
  cases h with
  | opened htext => exact htext
  | _ => cases hopen

namespace Cut

variable {source : String} {gap : List GapItem} {ls : List Lexeme} {item : GapItem}

/-- The items after the words and before the first one stand somewhere. -/
theorem exists_stands {known : Bytes → Bool} (h : Cut known source gap ls) :
    ∀ item ∈ (⟨[], gap⟩ :: ls : List Lexeme).flatMap Lexeme.items, ∃ rest, Gap.Stands item rest := by
  have hscans : ∀ {l : Lexeme} {rest : Bytes}, Gap.scan (l.separator ++ rest) = (l.gap, rest) →
      ∀ item ∈ l.items, ∃ rest, Gap.Stands item rest := by
    intro l rest hscan
    have hitems := Gap.items_scan (l.separator ++ rest)
    rw [hscan] at hitems
    exact hitems.exists_stands
  intro item hitem
  obtain ⟨l, hl, hitem⟩ := List.mem_flatMap.1 hitem
  rcases List.mem_cons.1 hl with rfl | hl
  · exact hscans h.scan_head item hitem
  · obtain ⟨-, front, rest, htake⟩ := h.lexed.exists_take l hl
    exact hscans (Lexeme.scan_of_take htake) item hitem

/-- A comment without its end has its mark at its place, and goes up to the end of the source. -/
theorem starts_with_mark {known : Bytes → Bool} (h : Cut known source gap ls)
    (ho : Gap.openLast? ((⟨[], gap⟩ :: ls).flatMap Lexeme.items) = some item) :
    Span.Within source ⟨source.utf8ByteSize - item.bytes.length, source.utf8ByteSize⟩ ∧
      Bytes.MarkAt source (source.utf8ByteSize - item.bytes.length) Gap.blockStart := by
  obtain ⟨hmem, hopen⟩ := Gap.mem_of_openLast? ho
  obtain ⟨rest, hstands⟩ := h.exists_stands item hmem
  have hmark := hstands.blockStart_isPrefix hopen
  obtain ⟨tail, htail⟩ := hmark
  obtain ⟨pre, hpre⟩ := h.isSuffix_of_openLast? ho
  have hsize := congrArg List.length hpre
  rw [List.length_append, Text.length_ofText] at hsize
  have hstart : source.utf8ByteSize - item.bytes.length = pre.length := by omega
  have htext : IsText item.bytes := by
    have hall := Bytes.isText_ofText source
    rw [← hpre] at hall
    refine (hall.of_append ?_).2
    rw [← htail]
    exact Bytes.startsCharacter_of_lt Gap.slash_lt
  rw [hstart]
  constructor
  · rw [← hsize]
    have hbytes : Bytes.ofText source = pre ++ (item.bytes ++ []) := by
      rw [List.append_nil, hpre]
    refine .of_append hbytes ?_ (htext.append IsText.nil) IsText.nil
    rw [← htail]
    exact List.cons_ne_nil _ _
  · show Gap.blockStart <+: (Bytes.ofText source).drop pre.length
    rw [← hpre, List.drop_left]
    exact ⟨tail, htail⟩

end Cut

/-- From the start of a word on, all words end before a comment without its end. -/
theorem Lexed.stop_le_of_openLast? {v : Vocabulary} {s : Bytes} {ls : List Lexeme}
    {item : GapItem} (h : Lexed v.knows s ls)
    (ho : Gap.openLast? (ls.flatMap Lexeme.items) = some item) (offset : Nat) :
    ∀ t ∈ v.tokens offset ls, t.span.stop + item.bytes.length ≤ offset + s.length := by
  induction h generalizing offset with
  | nil => cases ho
  | @cons s rest l ls _ _ htake hls ih =>
    have hscan := Lexeme.scan_of_take htake
    have hlength := congrArg List.length (Lexeme.bytes_append_of_take htake)
    rw [List.length_append, Lexeme.length_bytes, Lexeme.length] at hlength
    intro t ht
    rcases hls.openLast?_cases hscan with ⟨rfl, rfl⟩ | ⟨-, htail⟩
    · -- the comment is in the gap after this word, and no other word follows
      rw [List.flatMap_singleton] at ho
      have hle := (Gap.isSuffix_of_openLast? ho).length_le
      rw [Lexeme.items, Gap.bytes_flatMap_parts] at hle
      obtain rfl := List.mem_singleton.1 ht
      simp only [Vocabulary.token, Lexeme.separator] at hlength ⊢
      omega
    · rw [htail] at ho
      have hle := (hls.isSuffix_of_openLast? ho).length_le
      rcases List.mem_cons.1 ht with rfl | ht
      · simp only [Vocabulary.token]
        omega
      · have hrest := ih ho (offset + l.length) t ht
        rw [Lexeme.length] at hrest
        omega

/-- All words of a source end before a comment without its end. -/
theorem Cut.stop_le_of_openLast? {v : Vocabulary} {source : String} {gap : List GapItem}
    {ls : List Lexeme} {item : GapItem} (h : Cut v.knows source gap ls)
    (ho : Gap.openLast? ((⟨[], gap⟩ :: ls).flatMap Lexeme.items) = some item) :
    ∀ t ∈ v.tokens (Gap.bytes gap).length ls,
      t.span.stop ≤ source.utf8ByteSize - item.bytes.length := by
  intro t ht
  rcases h.lexed.openLast?_cases h.scan_head with ⟨-, rfl⟩ | ⟨-, htail⟩
  · cases ht
  · rw [htail] at ho
    have hle := h.lexed.stop_le_of_openLast? ho _ t ht
    rw [h.utf8ByteSize_eq]
    omega

/-! ## Problems in order -/

namespace Diagnostic

/-- One problem stands before another, and they have no byte in common. -/
def Before (a b : Diagnostic) : Prop :=
  a.span.start < b.span.start ∧ a.span.stop ≤ b.span.start

/-- The problems with the literals among tokens, and with a comment that starts at an offset and has
no end, in this order. -/
def inOrder (tokens : List Token) (comment : Option Nat) (size : Nat) : List Diagnostic :=
  ((tokens.filter Token.isUnterminatedString).map fun t => openString t.span) ++
    comment.toList.map fun start => openComment ⟨start, size⟩

/-- Sorting does not move problems that are in order. -/
theorem ofStream_eq {stream : Stream} {scanner : Scanner} {size : Nat}
    (hsize : scanner.offset = size)
    (h : (inOrder stream.tokens.toList scanner.openComment size).Pairwise Before) :
    ofStream stream scanner = inOrder stream.tokens.toList scanner.openComment size := by
  unfold ofStream
  rw [Array.toList_filter, hsize]
  exact List.mergeSort_of_pairwise (h.imp fun hab => decide_eq_true (Nat.le_of_lt hab.1))

/-- What a lexer reports about a source with a stream. -/
structure Apart (source : String) (stream : Stream) (problems : List Diagnostic) : Prop where
  apart : problems.Pairwise Before
  within : ∀ d ∈ problems, d.span.Within source
  literal : ∀ d ∈ problems, d.code = .unterminatedString →
    (∃ t ∈ stream.tokens.toList, t.kind = .string ∧ t.span = d.span) ∧
      Bytes.MarkAt source d.span.start [Word.quote]
  /-- So there is one such problem at most. -/
  comment : ∀ d ∈ problems, d.code = .unterminatedComment → problems.getLast? = some d ∧
    d.span.stop = source.utf8ByteSize ∧ Bytes.MarkAt source d.span.start Gap.blockStart
  /-- No problem was moved by sorting. -/
  unmoved : ∃ start, problems = inOrder stream.tokens.toList start source.utf8ByteSize

end Diagnostic

theorem Token.kind_of_isUnterminatedString {t : Token} (h : t.isUnterminatedString = true) :
    t.kind = .string := by
  simp only [isUnterminatedString, Bool.and_eq_true, decide_eq_true_iff] at h
  exact h.1

namespace Diagnostic

variable {source : String} {stream : Stream} {start : Option Nat}

/-- A problem is one with a literal among the tokens or the one with the comment, which is the
last. -/
theorem inOrder_cases {tokens : List Token} {size : Nat} {d : Diagnostic}
    (h : d ∈ inOrder tokens start size) :
    (∃ t ∈ tokens, t.isUnterminatedString = true ∧ d = openString t.span) ∨
      ∃ offset ∈ start, d = openComment ⟨offset, size⟩ ∧
        (inOrder tokens start size).getLast? = some d := by
  rcases List.mem_append.1 h with h | h
  · obtain ⟨t, ht, rfl⟩ := List.mem_map.1 h
    obtain ⟨hmem, hopen⟩ := List.mem_filter.1 ht
    exact Or.inl ⟨t, hmem, hopen, rfl⟩
  · obtain ⟨offset, hoffset, rfl⟩ := List.mem_map.1 h
    obtain rfl := Option.mem_toList.1 hoffset
    exact Or.inr ⟨offset, rfl, rfl, List.getLast?_concat⟩

/-- What is known of the places of literals and of a comment is known of the problems. -/
theorem Apart.of_places
    (hpairs : (inOrder stream.tokens.toList start source.utf8ByteSize).Pairwise Before)
    (hliteral : ∀ t ∈ stream.tokens.toList, t.kind = .string →
      t.span.Within source ∧ Bytes.MarkAt source t.span.start [Word.quote])
    (hcomment : ∀ offset ∈ start, Span.Within source ⟨offset, source.utf8ByteSize⟩ ∧
      Bytes.MarkAt source offset Gap.blockStart) :
    Apart source stream (inOrder stream.tokens.toList start source.utf8ByteSize) where
  apart := hpairs
  within := by
    intro d hd
    rcases inOrder_cases hd with ⟨t, ht, hopen, rfl⟩ | ⟨offset, hoffset, rfl, -⟩
    · exact (hliteral t ht (Token.kind_of_isUnterminatedString hopen)).1
    · exact (hcomment offset hoffset).1
  literal := by
    intro d hd hcode
    rcases inOrder_cases hd with ⟨t, ht, hopen, rfl⟩ | ⟨offset, hoffset, rfl, -⟩
    · have hk := Token.kind_of_isUnterminatedString hopen
      exact ⟨⟨t, ht, hk, rfl⟩, (hliteral t ht hk).2⟩
    · exact absurd hcode (show Log.Code.unterminatedComment ≠ .unterminatedString by decide)
  comment := by
    intro d hd hcode
    rcases inOrder_cases hd with ⟨t, ht, hopen, rfl⟩ | ⟨offset, hoffset, rfl, hlast⟩
    · exact absurd hcode (show Log.Code.unterminatedString ≠ .unterminatedComment by decide)
    · exact ⟨hlast, rfl, (hcomment offset hoffset).2⟩
  unmoved := ⟨start, rfl⟩

end Diagnostic

namespace Cut

variable {v : Vocabulary} {source : String} {gap : List GapItem} {ls : List Lexeme}

/-- What the scanner remembers in the end is the place of a comment without its end. -/
theorem exists_of_openComment {known : Bytes → Bool} (h : Cut known source gap ls) {start : Nat}
    (hstart : start ∈ ((Scanner.ofText source).after (⟨[], gap⟩ :: ls)).openComment) :
    ∃ item, Gap.openLast? ((⟨[], gap⟩ :: ls).flatMap Lexeme.items) = some item ∧
      start = source.utf8ByteSize - item.bytes.length := by
  rw [h.openComment_after] at hstart
  obtain ⟨item, hitem, rfl⟩ := Option.map_eq_some_iff.1 hstart
  exact ⟨item, hitem, rfl⟩

/-- The problems with literals stand one before the other, and before that with a comment. -/
theorem pairwise_before (h : Cut v.knows source gap ls) :
    (Diagnostic.inOrder (v.stream gap ls source.utf8ByteSize).tokens.toList
      ((Scanner.ofText source).after (⟨[], gap⟩ :: ls)).openComment
      source.utf8ByteSize).Pairwise Diagnostic.Before := by
  have hwithin : ∀ t ∈ (v.stream gap ls source.utf8ByteSize).tokens.toList.filter
      Token.isUnterminatedString, t ∈ v.tokens (Gap.bytes gap).length ls ∧
        t.span.start < t.span.stop := by
    intro t ht
    obtain ⟨hmem, hopen⟩ := List.mem_filter.1 ht
    have hk := Token.kind_of_isUnterminatedString hopen
    exact ⟨Vocabulary.mem_tokens_of_kind_eq_string hmem hk, (h.starts_with_quote hmem hk).1.start_lt⟩
  have hliterals := (Vocabulary.pairwise_stream h).filter Token.isUnterminatedString
  rw [Diagnostic.inOrder, List.pairwise_append, List.pairwise_map]
  refine ⟨hliterals.imp_of_mem fun {a b} ha _ hab => ?_, ?_, ?_⟩
  · exact ⟨Nat.lt_of_lt_of_le (hwithin a ha).2 hab.2, hab.2⟩
  · cases ((Scanner.ofText source).after (⟨[], gap⟩ :: ls)).openComment with
    | none => exact .nil
    | some start => exact List.pairwise_singleton _ _
  · simp only [List.forall_mem_map, Option.mem_toList]
    intro t ht start hstart
    obtain ⟨item, hitem, rfl⟩ := h.exists_of_openComment hstart
    obtain ⟨hmem, hlt⟩ := hwithin t ht
    have hstop := h.stop_le_of_openLast? hitem t hmem
    exact ⟨Nat.lt_of_lt_of_le hlt hstop, hstop⟩

/-- The problems of a source. -/
theorem apart (h : Cut v.knows source gap ls) :
    let stream := v.stream gap ls source.utf8ByteSize
    Diagnostic.Apart source stream
      (Diagnostic.ofStream stream ((Scanner.ofText source).after (⟨[], gap⟩ :: ls))) := by
  intro stream
  rw [Diagnostic.ofStream_eq h.offset_after h.pairwise_before]
  refine .of_places h.pairwise_before (fun t => h.starts_with_quote) fun start hstart => ?_
  obtain ⟨item, hitem, rfl⟩ := h.exists_of_openComment hstart
  exact h.starts_with_mark hitem

end Cut

namespace Lexer

variable (elapsed : Nat) (l : Lexer)

/-- The empty source has no stream and no problems. -/
theorem tokenize_empty : (l.tokenize elapsed "").1 = none ∧
    (l.tokenize elapsed "").2.1.diagnostics = [] := by
  have hscan : Stream.scan? ⟨.empty, l.constants⟩ "" = none := (Stream.scan?_eq_none_iff _ _).2 rfl
  simp [tokenize, keywordsFor, hscan]

/-- Any other source has a stream, and problems that are apart. -/
theorem exists_apart {source : String} (h : source ≠ "") :
    ∃ stream, (l.tokenize elapsed source).1 = some stream ∧
      Diagnostic.Apart source stream (l.tokenize elapsed source).2.1.diagnostics := by
  rcases hkeywords : keywordsFor source l.keywords with ⟨entries, keywords, effects⟩
  rw [tokenize, hkeywords]
  obtain ⟨gap, ls, hcut⟩ := Cut.exists_cut (Vocabulary.knows ⟨entries, l.constants⟩) source
  simp only [hcut.scan?_eq h]
  exact ⟨_, rfl, hcut.apart⟩

/-- The problems of a source are apart and in order. Each is about some whole characters of the
source, a literal from its quote on or a comment from its mark to the end of the source, and stands
before the next one. The literals come in the order of their tokens, and after them at most one
comment, and sorting moves none of them. -/
theorem tokenize_reports_apart (source : String) :
    match l.tokenize elapsed source with
    | (none, l', _) => source = "" ∧ l'.diagnostics = []
    | (some stream, l', _) => Diagnostic.Apart source stream l'.diagnostics := by
  by_cases hne : source = ""
  · subst hne
    obtain ⟨hnone, hempty⟩ := l.tokenize_empty elapsed
    generalize l.tokenize elapsed "" = run at hnone hempty
    obtain ⟨found, after, events⟩ := run
    obtain rfl : found = none := hnone
    exact ⟨rfl, hempty⟩
  · obtain ⟨stream, hsome, hapart⟩ := l.exists_apart elapsed hne
    generalize l.tokenize elapsed source = run at hsome hapart
    obtain ⟨found, after, events⟩ := run
    obtain rfl : found = some stream := hsome
    exact hapart

end Lexer

end RobotScript
