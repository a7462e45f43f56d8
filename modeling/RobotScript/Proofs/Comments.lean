import Mathlib.Data.List.Forall2
import RobotScript.Proofs.GapItems
import RobotScript.Proofs.OpenStrings

/-!
# Comments of a source

The scanner counts comments while it goes, and remembers where one without its end starts. A comment
without its end goes up to the end of the source, so it is the last item of all gaps: what the
scanner has counted and remembers in the end is told by the items of the separators.

Results:

* `Scanner.comments_after`, `Lexed.remembers`: what a scanner has counted and remembers after words
  with gaps.
* `Cut.forall₂_spaced`: the separators of a stream are the longest sequences of items there.
* `Diagnostic.filter_isOpenComment_ofStream`: the problem with a comment.
* `Lexer.tokenize_reports_comments`: gaps at all places in a source, and what a lexer reports about
  the comments of the source.
-/

namespace RobotScript

open Bytes (IsText)

/-! ## Gaps of a source -/

/-- The items after a word. -/
def Lexeme.items (l : Lexeme) : List GapItem := l.gap.flatMap Gap.parts

theorem Scanner.comments_after (s : Scanner) (ls : List Lexeme) :
    (s.after ls).comments = s.comments + Gap.comments (ls.flatMap Lexeme.items) := by
  induction ls generalizing s with
  | nil => rfl
  | cons l ls ih =>
    rw [Scanner.after_cons, ih, List.flatMap_cons, Gap.comments_append, ← Nat.add_assoc,
      Lexeme.items, Gap.comments_flatMap_parts]
    rfl

/-- A scanner remembers the comment at the end of a gap, if that is open, and otherwise what it
remembered before. -/
theorem Scanner.openComment_advance {s : Scanner} {l : Lexeme} {rest : Bytes}
    (h : Gap.scan (l.separator ++ rest) = (l.gap, rest)) :
    (s.advance l rest).openComment = ((Gap.openLast? l.items).map fun item =>
      (s.advance l rest).offset - item.bytes.length).or s.openComment := by
  have hopen := Gap.openComment?_scan (l.separator ++ rest)
  rw [h] at hopen
  simp only [Scanner.advance, hopen]
  cases hlast : Gap.openLast? l.items with
  | none =>
    rw [Lexeme.items] at hlast
    rw [hlast]
    rfl
  | some item =>
    have hle := (Gap.isSuffix_of_openLast? hlast).length_le
    rw [Lexeme.items] at hlast hle
    rw [Gap.bytes_flatMap_parts] at hle
    rw [hlast]
    show some (s.offset + l.word.length + ((Gap.bytes l.gap).length - item.bytes.length)) =
      some (s.offset + l.length - item.bytes.length)
    rw [Lexeme.length, Lexeme.separator]
    congr 1
    omega

/-- Nothing follows a word whose gap has a comment without its end. After any other word, such a
comment is in the gaps of the words that follow. -/
theorem Lexed.openLast?_cases {known : Bytes → Bool} {rest : Bytes} {l : Lexeme} {ls : List Lexeme}
    (hscan : Gap.scan (l.separator ++ rest) = (l.gap, rest)) (h : Lexed known rest ls) :
    rest = [] ∧ ls = [] ∨ Gap.openLast? l.items = none ∧
      Gap.openLast? ((l :: ls).flatMap Lexeme.items) = Gap.openLast? (ls.flatMap Lexeme.items) := by
  cases hlast : Gap.openLast? l.items with
  | none => exact Or.inr ⟨rfl, Gap.openLast?_append hlast⟩
  | some item =>
    have hitems := Gap.items_scan (l.separator ++ rest)
    rw [hscan] at hitems
    obtain rfl := hitems.eq_nil_of_openLast? hlast
    cases ls with
    | nil => exact Or.inl ⟨rfl, rfl⟩
    | cons l' ls => exact absurd rfl h.ne_nil

/-- The scanner remembers the last item of all gaps that it has taken, if it is open. -/
def Scanner.Remembers (s : Scanner) (ls : List Lexeme) : Prop :=
  (s.after ls).openComment = ((Gap.openLast? (ls.flatMap Lexeme.items)).map fun item =>
    (s.after ls).offset - item.bytes.length).or s.openComment

theorem Scanner.Remembers.cons {known : Bytes → Bool} {s : Scanner} {rest : Bytes} {l : Lexeme}
    {ls : List Lexeme} (hs : s.rest = l.bytes ++ rest)
    (hscan : Gap.scan (l.separator ++ rest) = (l.gap, rest)) (h : Lexed known rest ls)
    (ih : (s.advance l rest).Remembers ls) : s.Remembers (l :: ls) := by
  have hadvance := Scanner.openComment_advance (s := s) hscan
  unfold Remembers at ih ⊢
  rw [Scanner.after_cons, hs, Lexeme.drop_bytes]
  rcases h.openLast?_cases hscan with ⟨rfl, rfl⟩ | ⟨hnone, htail⟩
  · rw [List.flatMap_singleton]
    exact hadvance
  · rw [hnone] at hadvance
    rw [ih, htail, hadvance]
    rfl

theorem Lexed.remembers {known : Bytes → Bool} {s : Scanner} {ls : List Lexeme}
    (h : Lexed known s.rest ls) : s.Remembers ls := by
  generalize hr : s.rest = r at h
  induction h generalizing s with
  | nil => rfl
  | @cons r rest l ls _ _ htake hls ih =>
    rw [← Lexeme.bytes_append_of_take htake] at hr
    exact .cons hr (Lexeme.scan_of_take htake) hls (ih rfl)

theorem Lexed.isSuffix_cons {known : Bytes → Bool} {rest : Bytes} {l : Lexeme} {ls : List Lexeme}
    {item : GapItem} (hscan : Gap.scan (l.separator ++ rest) = (l.gap, rest))
    (h : Lexed known rest ls)
    (ih : Gap.openLast? (ls.flatMap Lexeme.items) = some item → item.bytes <:+ rest)
    (ho : Gap.openLast? ((l :: ls).flatMap Lexeme.items) = some item) :
    item.bytes <:+ l.bytes ++ rest := by
  rcases h.openLast?_cases hscan with ⟨rfl, rfl⟩ | ⟨-, htail⟩
  · rw [List.flatMap_singleton] at ho
    have hsuffix := Gap.isSuffix_of_openLast? ho
    rw [Lexeme.items, Gap.bytes_flatMap_parts] at hsuffix
    rw [List.append_nil]
    exact hsuffix.trans (List.suffix_append _ _)
  · rw [htail] at ho
    exact (ih ho).trans (List.suffix_append _ _)

/-- A comment without its end stands at the end of the bytes. -/
theorem Lexed.isSuffix_of_openLast? {known : Bytes → Bool} {s : Bytes} {ls : List Lexeme}
    {item : GapItem} (h : Lexed known s ls) :
    Gap.openLast? (ls.flatMap Lexeme.items) = some item → item.bytes <:+ s := by
  induction h with
  | nil =>
    intro ho
    cases ho
  | cons _ _ htake hls ih =>
    intro ho
    rw [← Lexeme.bytes_append_of_take htake]
    exact hls.isSuffix_cons (Lexeme.scan_of_take htake) ih ho

/-! ## Separators -/

/-- The separator of a token is the longest sequence of items that stands in the source where the
token ends. -/
structure Token.Spaced (source : String) (t : Token) (items : List GapItem) : Prop where
  bytes_eq : Gap.bytes items = Bytes.ofText t.separator
  maximal : Gap.Maximal ((Bytes.ofText source).drop t.span.stop) items
    ((Bytes.ofText source).drop (t.span.stop + t.separator.utf8ByteSize))

namespace Vocabulary

variable {v : Vocabulary} {source : String} {ls : List Lexeme} {gap : List GapItem}

theorem spaced_token {first : Bool} {l : Lexeme} {pre post : Bytes}
    (h : Bytes.ofText source = pre ++ l.bytes ++ post) (hsep : IsText l.separator)
    (hscan : Gap.scan (l.separator ++ post) = (l.gap, post)) :
    Token.Spaced source (v.token first pre.length l) l.items := by
  have hmaximal := Gap.maximal_scan (l.separator ++ post)
  rw [hscan] at hmaximal
  have hbytes : Bytes.ofText source = (pre ++ l.word) ++ (l.separator ++ post) := by
    rw [h, Lexeme.bytes]
    simp only [List.append_assoc]
  have hword : (Bytes.ofText source).drop (pre.length + l.word.length) = l.separator ++ post := by
    rw [hbytes, ← List.length_append, List.drop_left]
  have hpost : (Bytes.ofText source).drop (pre.length + l.word.length + l.separator.length) =
      post := by
    rw [← List.drop_drop, hword, List.drop_left]
  refine ⟨?_, ?_⟩
  · rw [Lexeme.items, Gap.bytes_flatMap_parts]
    exact hsep.ofText_toText.symm
  · show Gap.Maximal ((Bytes.ofText source).drop (pre.length + l.word.length)) _
      ((Bytes.ofText source).drop (pre.length + l.word.length +
        (Bytes.toText l.separator).utf8ByteSize))
    rw [hword, hsep.utf8ByteSize_toText, hpost]
    exact hmaximal

theorem spaced_terminator (source : String) :
    Token.Spaced source (.terminator source.utf8ByteSize) [] := by
  have hmaximal := Gap.maximal_scan []
  rw [Gap.scan_of_next?_eq_none rfl] at hmaximal
  refine ⟨rfl, ?_⟩
  show Gap.Maximal ((Bytes.ofText source).drop source.utf8ByteSize) []
    ((Bytes.ofText source).drop source.utf8ByteSize)
  rw [← Text.length_ofText, List.drop_length]
  exact hmaximal

/-- The separators of the words and the terminator. -/
theorem forall₂_spaced {s pre : Bytes} (h : Lexed v.knows s ls) (hs : IsText s)
    (hsource : Bytes.ofText source = pre ++ s) :
    List.Forall₂ (Token.Spaced source)
      (v.tokens pre.length ls ++ [.terminator source.utf8ByteSize])
      (ls.map Lexeme.items ++ [[]]) := by
  induction h generalizing pre with
  | nil => exact .cons (spaced_terminator source) .nil
  | @cons s rest l ls _ _ htake _ ih =>
    obtain ⟨-, hsep, hrest⟩ := Lexeme.isText_of_take hs htake
    have hbytes : Bytes.ofText source = pre ++ l.bytes ++ rest := by
      rw [hsource, ← Lexeme.bytes_append_of_take htake, List.append_assoc]
    have htail := ih hrest hbytes
    rw [List.length_append, Lexeme.length_bytes] at htail
    exact .cons (spaced_token hbytes hsep (Lexeme.scan_of_take htake)) htail

end Vocabulary

namespace Cut

variable {v : Vocabulary} {known : Bytes → Bool} {source : String} {ls : List Lexeme}
  {gap : List GapItem}

/-- The gap of the head, as a gap after an empty word. -/
theorem scan_head (h : Cut known source gap ls) :
    Gap.scan (Lexeme.separator ⟨[], gap⟩ ++ ls.flatMap Lexeme.bytes) =
      (gap, ls.flatMap Lexeme.bytes) := by
  rw [Lexeme.separator, h.bytes_eq, h.scan]

/-- The separators of a stream. -/
theorem forall₂_spaced (h : Cut v.knows source gap ls) :
    List.Forall₂ (Token.Spaced source) (v.stream gap ls source.utf8ByteSize).tokens.toList
      ((⟨[], gap⟩ :: ls).map Lexeme.items ++ [[]]) := by
  have hrest := Gap.isText_scan_snd (Bytes.isText_ofText source)
  rw [h.scan] at hrest
  rw [Vocabulary.toList_stream]
  have hsource : Bytes.ofText source =
      [] ++ Lexeme.bytes ⟨[], gap⟩ ++ ls.flatMap Lexeme.bytes := h.bytes_eq.symm
  have hhead : Token.Spaced source (v.token true 0 ⟨[], gap⟩) (Lexeme.items ⟨[], gap⟩) :=
    Vocabulary.spaced_token hsource h.isText_gap h.scan_head
  exact .cons hhead (Vocabulary.forall₂_spaced h.lexed hrest h.bytes_eq.symm)

theorem remembers (h : Cut known source gap ls) :
    (Scanner.ofText source).Remembers (⟨[], gap⟩ :: ls) :=
  .cons h.bytes_eq.symm h.scan_head h.lexed (Lexed.remembers h.lexed)

/-- The place of a comment without its end, from the end of the source. -/
theorem openComment_after (h : Cut known source gap ls) :
    ((Scanner.ofText source).after (⟨[], gap⟩ :: ls)).openComment =
      (Gap.openLast? ((⟨[], gap⟩ :: ls).flatMap Lexeme.items)).map fun item =>
        source.utf8ByteSize - item.bytes.length := by
  have hopen := h.remembers
  unfold Scanner.Remembers at hopen
  rw [hopen, h.offset_after]
  exact Option.or_none

/-- A comment without its end stands at the end of the source. -/
theorem isSuffix_of_openLast? {item : GapItem} (h : Cut known source gap ls)
    (ho : Gap.openLast? ((⟨[], gap⟩ :: ls).flatMap Lexeme.items) = some item) :
    item.bytes <:+ Bytes.ofText source := by
  rw [← h.bytes_eq]
  exact h.lexed.isSuffix_cons h.scan_head h.lexed.isSuffix_of_openLast? ho

end Cut

/-! ## What a lexer reports -/

namespace Diagnostic

/-- Whether a problem is a block comment without its end. -/
def isOpenComment (d : Diagnostic) : Bool := d.code = .unterminatedComment

/-- The problem with a comment is the one that the scanner remembers. -/
theorem filter_isOpenComment_ofStream (stream : Stream) (scanner : Scanner) :
    (ofStream stream scanner).filter isOpenComment =
      scanner.openComment.toList.map fun start => openComment ⟨start, scanner.offset⟩ := by
  have hstrings : ∀ ts : List Token,
      (ts.map fun t => openString t.span).filter isOpenComment = [] := by
    intro ts
    rw [List.filter_eq_nil_iff, List.forall_mem_map]
    intro t _ h
    cases h
  have hcomments : ∀ starts : List Nat,
      (starts.map fun start => openComment ⟨start, scanner.offset⟩).filter isOpenComment =
        starts.map fun start => openComment ⟨start, scanner.offset⟩ := by
    intro starts
    rw [List.filter_eq_self, List.forall_mem_map]
    intro start _
    rfl
  have hperm := (List.mergeSort_perm
    ((stream.tokens.filter Token.isUnterminatedString).toList.map (fun t => openString t.span) ++
      scanner.openComment.toList.map fun start => openComment ⟨start, scanner.offset⟩)
    fun a b => decide (a.span.start ≤ b.span.start)).filter isOpenComment
  rw [List.filter_append, hstrings, hcomments, List.nil_append] at hperm
  unfold ofStream
  cases hopen : scanner.openComment with
  | none =>
    rw [hopen] at hperm
    exact List.perm_nil.1 hperm
  | some start =>
    rw [hopen] at hperm
    exact List.perm_singleton.1 hperm

end Diagnostic

/-- What is a gap, and what a lexer reports about the comments of a source. A gap at any place is
the longest sequence of items there. The separators of a stream are such sequences, and the lexer
counts the comments in them. A problem with a comment is reported just if the last of all their
items is a block comment without its end; it is about all bytes from the opening slash to the end of
the source. -/
theorem Lexer.tokenize_reports_comments (elapsed : Nat) (source : String) (l : Lexer) :
    (∀ offset, ∃ items,
      Gap.Maximal ((Bytes.ofText source).drop offset) items
        (Gap.scan ((Bytes.ofText source).drop offset)).2 ∧
      Gap.bytes items = Gap.bytes (Gap.scan ((Bytes.ofText source).drop offset)).1 ∧
      Gap.comments items = Gap.comments (Gap.scan ((Bytes.ofText source).drop offset)).1) ∧
    match l.tokenize elapsed source with
    | (none, l', _) => source = "" ∧ l'.diagnostics = [] ∧ l'.metrics.comments = 0 ∧
      l'.metrics.openComments = 0
    | (some stream, l', _) => ∃ gaps : List (List GapItem),
      List.Forall₂ (Token.Spaced source) stream.tokens.toList gaps ∧
      l'.metrics.comments = Gap.comments gaps.flatten ∧
      l'.metrics.openComments = (if (Gap.openLast? gaps.flatten).isSome then 1 else 0) ∧
      l'.diagnostics.filter Diagnostic.isOpenComment =
        ((Gap.openLast? gaps.flatten).toList.map fun item => Diagnostic.openComment
          ⟨source.utf8ByteSize - item.bytes.length, source.utf8ByteSize⟩) ∧
      ∀ item ∈ Gap.openLast? gaps.flatten, item.bytes <:+ Bytes.ofText source := by
  refine ⟨fun offset => ⟨_, Gap.maximal_scan _, Gap.bytes_flatMap_parts _,
    Gap.comments_flatMap_parts _⟩, ?_⟩
  rcases hkeywords : keywordsFor source l.keywords with ⟨entries, keywords, effects⟩
  rw [Lexer.tokenize, hkeywords]
  by_cases hne : source = ""
  · subst hne
    have hscan : Stream.scan? ⟨entries, l.constants⟩ "" = none :=
      (Stream.scan?_eq_none_iff _ _).2 rfl
    simp [hscan, Metrics.ofSize]
  · obtain ⟨gap, ls, hcut⟩ := Cut.exists_cut (Vocabulary.knows ⟨entries, l.constants⟩) source
    have hspaced := hcut.forall₂_spaced
    have hopen := hcut.openComment_after
    have hcomments := (Scanner.ofText source).comments_after (⟨[], gap⟩ :: ls)
    simp only [hcut.scan?_eq hne]
    refine ⟨_, hspaced, ?_⟩
    have hflatten : (((⟨[], gap⟩ :: ls : List Lexeme)).map Lexeme.items ++ [[]]).flatten =
        (⟨[], gap⟩ :: ls : List Lexeme).flatMap Lexeme.items := by
      rw [List.flatten_append, List.flatMap_def]
      exact List.append_nil _
    rw [hflatten]
    refine ⟨hcomments.trans (Nat.zero_add _), ?_, ?_, fun item => hcut.isSuffix_of_openLast?⟩
    · show (if Option.isSome _ then 1 else 0) = _
      rw [hopen, Option.isSome_map]
    · rw [Diagnostic.filter_isOpenComment_ofStream, hopen, hcut.offset_after]
      cases Gap.openLast? _ <;> rfl

end RobotScript
