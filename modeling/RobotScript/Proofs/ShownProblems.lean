import RobotScript.Proofs.Problems
import RobotScript.Proofs.Underlines

/-!
# Problems as they are shown

A problem with a literal starts at a quote and one with a comment at a slash, so no problem starts
inside a character or inside a line break. Its range is underlined from its first character to its
last one, or to the end of the line that is shown, and there is always something to underline.

Results:

* `Span.Within.exists_cut`: the characters of a range.
* `SourceMap.diagnostic?_of_cut`: how a range is shown that starts at a character of its line.
* `Lexer.tokenize_points_at`: how the problems of a source are shown.
-/

namespace RobotScript

open Bytes (ofChars)
open Text (firstLine lastLine)

/-! ## How a range is shown -/

namespace SourceMap

/-- The number of carets under a range of the characters `marked`: one for each of them, or one for
each character up to the end of the line that is shown, if they go on after it. -/
def carets (before marked after : List Char) : Nat :=
  if '\n' ∈ marked then
    ((shownLine before (marked ++ after)).drop (lastLine before).length).length
  else marked.length

open Text (columnOf Place)

variable {source : String} {before cs after : List Char} {c : Char}

/-- The line of a character that is no part of a line break is shown up to that character at
least. -/
theorem shownLine_cons (hfeed : c ≠ '\n') (hreturn : c ≠ '\r') (before after : List Char) :
    shownLine before (c :: after) =
      lastLine before ++ c :: (firstLine after).rdropWhile (· == '\r') := by
  have hfirst : firstLine (c :: after) = c :: firstLine after :=
    List.takeWhile_cons_of_pos (by simpa using hfeed)
  rw [shownLine, hfirst]
  exact Text.rdropWhile_append_cons (by simpa using hreturn) _ _

/-- The columns under a range that starts at such a character. -/
theorem columnAfter_eq (hfeed : c ≠ '\n') (hreturn : c ≠ '\r') (before cs after : List Char) :
    columnAfter before (c :: cs) (c :: cs ++ after) 0 =
      columnOf before 0 + carets before (c :: cs) after ∧ 0 < carets before (c :: cs) after := by
  rw [carets, columnOf_zero]
  by_cases hline : '\n' ∈ c :: cs
  · rw [columnAfter_of_mem hline, if_pos hline, List.cons_append,
      shownLine_cons hfeed hreturn, List.drop_left, List.length_append]
    exact ⟨rfl, Nat.succ_pos _⟩
  · rw [columnAfter_of_notMem hline, if_neg hline, columnOf_zero, Text.lastLine_append hline,
      List.length_append]
    exact ⟨rfl, Nat.succ_pos _⟩

/-- How a range is shown that starts at such a character. -/
theorem diagnostic?_of_cut {span : Span} (h : source.toList = before ++ (c :: cs ++ after))
    (hstart : span.start = (ofChars before).length)
    (hstop : span.stop = (ofChars (before ++ c :: cs)).length) (hfeed : c ≠ '\n')
    (hreturn : c ≠ '\r') (hsize : source.utf8ByteSize + 1 < UInt32.size) (label message : String) :
    (ofText source).diagnostic? span label message =
      some (picture (label ++ ": " ++ message) (before.count '\n' + 1)
        ((lastLine before).length + 1) (shownLine before (c :: cs ++ after))
        (carets before (c :: cs) after)) := by
  have hplace : Place source span.start before 0 (c :: cs ++ after) := by
    rw [hstart]
    exact .of_append h
  have hend : Place source span.stop (before ++ c :: cs) 0 after := by
    rw [hstop]
    exact .of_append (by rw [h, List.append_assoc])
  obtain ⟨hafter, hpos⟩ := columnAfter_eq hfeed hreturn before cs after
  have hforward : ¬columnOf before 0 + carets before (c :: cs) after < columnOf before 0 := by
    omega
  rw [diagnostic?_eq hplace hend hsize, hafter, if_neg hforward, Nat.add_sub_cancel_left,
    Nat.max_eq_right hpos, columnOf_zero]

/-- The line of such a character is shown with all that stands before the character. -/
theorem lastLine_isPrefix (hfeed : c ≠ '\n') (hreturn : c ≠ '\r') (before after : List Char) :
    lastLine before <+: shownLine before (c :: after) := by
  rw [shownLine_cons hfeed hreturn]
  exact List.prefix_append _ _

end SourceMap

/-! ## Problems of a source -/

/-- A character that begins with the byte of an ASCII character is that character. -/
theorem Bytes.eq_of_isPrefix {c d : Char} {cs : List Char} (hd : d.val.toNat ≤ 0x7f)
    (h : [ascii d] <+: ofChars (c :: cs)) : c = d := by
  obtain ⟨b, tail, he, -, -, -⟩ := utf8EncodeChar_shape c
  rw [ofChars_cons, he, List.cons_append, List.cons_prefix_cons] at h
  rw [← h.1] at he
  exact eq_of_utf8EncodeChar_eq_cons hd he

/-- The characters of a range that begins with a mark. -/
theorem Span.Within.exists_cut {source : String} {s : Span} {mark : Char}
    (h : s.Within source) (hd : mark.val.toNat ≤ 0x7f)
    (hmark : Bytes.MarkAt source s.start [Bytes.ascii mark]) :
    ∃ before cs after, source.toList = before ++ (mark :: cs ++ after) ∧
      s.start = (ofChars before).length ∧ s.stop = (ofChars (before ++ mark :: cs)).length := by
  obtain ⟨hlt, -, hstart, hstop⟩ := h
  obtain ⟨before, mid, after, hcut, hfirst, hlast⟩ :=
    Text.exists_append_of_isBoundary_of_le hstart hstop (Nat.le_of_lt hlt)
  cases mid with
  | nil =>
    rw [List.append_nil, ← hfirst] at hlast
    omega
  | cons c cs =>
    have hbytes : (Bytes.ofText source).drop s.start = ofChars (c :: (cs ++ after)) := by
      rw [Bytes.ofText_eq_ofChars, hcut, Bytes.ofChars_append, hfirst, List.drop_left]
      rfl
    obtain rfl : c = mark := Bytes.eq_of_isPrefix hd (by rwa [← hbytes])
    exact ⟨before, cs, after, hcut, hfirst, hlast⟩

namespace Diagnostic

/-- A problem begins with the mark of a literal or of a comment. -/
theorem Apart.exists_mark {source : String} {stream : Stream} {problems : List Diagnostic}
    (h : Apart source stream problems) : ∀ d ∈ problems, ∃ mark, (mark = '"' ∨ mark = '/') ∧
      Bytes.MarkAt source d.span.start [Bytes.ascii mark] := by
  intro d hd
  obtain ⟨start, hproblems⟩ := h.unmoved
  have hcases := hd
  rw [hproblems] at hcases
  rcases inOrder_cases hcases with ⟨t, -, -, ht⟩ | ⟨offset, -, hoffset, -⟩
  · exact ⟨'"', Or.inl rfl, (h.literal d hd (by rw [ht]; rfl)).2⟩
  · obtain ⟨-, -, hmark⟩ := h.comment d hd (by rw [hoffset]; rfl)
    exact ⟨'/', Or.inr rfl, List.IsPrefix.trans ⟨[Gap.star], rfl⟩ hmark⟩

/-- A problem is shown where it is: with the line and column of its first character, with the line
of that, and with the characters `marked` of its range underlined as far as they are shown. -/
structure PointsAt (source : String) (d : Diagnostic) (before marked after : List Char) : Prop where
  toList_eq : source.toList = before ++ (marked ++ after)
  start_eq : d.span.start = (ofChars before).length
  stop_eq : d.span.stop = (ofChars (before ++ marked)).length
  /-- The carets begin below the first of the characters. -/
  isPrefix : lastLine before <+: SourceMap.shownLine before (marked ++ after)
  render?_eq : d.render? (.ofText source) =
    some (SourceMap.picture ("warning[" ++ d.code.name ++ "]" ++ ": " ++ d.message)
      (before.count '\n' + 1) ((lastLine before).length + 1)
      (SourceMap.shownLine before (marked ++ after)) (SourceMap.carets before marked after))

theorem Apart.exists_pointsAt {source : String} {stream : Stream} {problems : List Diagnostic}
    (h : Apart source stream problems) (hsize : source.utf8ByteSize + 1 < UInt32.size) :
    ∀ d ∈ problems, ∃ before marked after, d.PointsAt source before marked after := by
  intro d hd
  obtain ⟨mark, hmark, hat⟩ := h.exists_mark d hd
  have hascii : mark.val.toNat ≤ 0x7f ∧ mark ≠ '\n' ∧ mark ≠ '\r' := by
    rcases hmark with rfl | rfl <;> decide
  obtain ⟨hd', hfeed, hreturn⟩ := hascii
  obtain ⟨before, cs, after, hsource, hstart, hstop⟩ := (h.within d hd).exists_cut hd' hat
  exact ⟨before, mark :: cs, after, hsource, hstart, hstop,
    SourceMap.lastLine_isPrefix hfeed hreturn _ _,
    SourceMap.diagnostic?_of_cut hsource hstart hstop hfeed hreturn hsize _ _⟩

end Diagnostic

/-- All problems of a source of fewer than `2 ^ 32 - 1` bytes are shown where they are, and none is
lost because it could not be underlined. -/
theorem Lexer.tokenize_points_at (elapsed : Nat) (source : String)
    (hsize : source.utf8ByteSize + 1 < UInt32.size) (l : Lexer) :
    ∀ d ∈ (l.tokenize elapsed source).2.1.diagnostics,
      ∃ before marked after, d.PointsAt source before marked after := by
  by_cases hne : source = ""
  · subst hne
    rw [(l.tokenize_empty elapsed).2]
    simp
  · obtain ⟨stream, -, hapart⟩ := l.exists_apart elapsed hne
    exact hapart.exists_pointsAt hsize

/-- A comment after a literal with a line feed in it, up to the end of the source. The carets go up
to the end of the line that is shown, without the carriage return of the line break. -/
theorem Lexer.tokenize_points_at_comment :
    let source := "é \"\\\n\"\r\n\té/*é\r\n*"
    let l : Lexer := .ofKeywords ⟨Keyword.standard, some .empty⟩ ⟨false, false⟩
    let problems := (l.tokenize 0 source).2.1.diagnostics
    problems.map (fun d => (d.span, d.render? (.ofText source))) =
      [(⟨12, 19⟩, some ("warning[E021]: Block comment is not closed\n  --> 3:3\n     |\n" ++
        "3 | \té/*é\n     |   ^^^\n"))] ∧
      ∀ d ∈ problems, ∃ before marked after, d.PointsAt source before marked after := by
  intro source l problems
  constructor
  · decide +kernel
  · exact Lexer.tokenize_points_at 0 source (by decide) l

/-! ## A column that does not fit -/

/-- A comment that is not closed, from the start of a source on. -/
theorem Lexer.openComment_mem (elapsed : Nat) {source : String} (l : Lexer)
    (hmark : Gap.blockStart <+: Bytes.ofText source)
    (hopen : ¬Gap.blockEnd <:+: Bytes.ofText source) :
    Diagnostic.openComment ⟨0, source.utf8ByteSize⟩ ∈
      (l.tokenize elapsed source).2.1.diagnostics := by
  have hne : source ≠ "" := by
    rintro rfl
    exact absurd hmark (by decide)
  have hstands : Gap.Stands (.block (Bytes.ofText source) false) [] := .opened hmark hopen
  have hscan : Gap.scan (Bytes.ofText source) = ([.block (Bytes.ofText source) false], []) := by
    have hnext := Gap.next?_of_stands hstands rfl
    rw [GapItem.bytes, List.append_nil] at hnext
    rw [Gap.scan_of_next?_eq_some hnext, Gap.scan_of_next?_eq_none rfl]
  rcases hkeywords : keywordsFor source l.keywords with ⟨entries, keywords, effects⟩
  have hcut : Cut (Vocabulary.knows ⟨entries, l.constants⟩) source
      [.block (Bytes.ofText source) false] [] := ⟨hscan, .nil⟩
  have hstart : ((Scanner.ofText source).after
      [⟨[], [.block (Bytes.ofText source) false]⟩]).openComment = some 0 := by
    rw [hcut.openComment_after, ← Text.length_ofText, ← Nat.sub_self (Bytes.ofText source).length]
    rfl
  simp only [Lexer.tokenize, hkeywords, hcut.scan?_eq hne]
  rw [Diagnostic.ofStream, List.mem_mergeSort, hstart, hcut.offset_after]
  exact List.mem_append_right _ (List.mem_singleton_self _)

/-- A line of ASCII characters is not underlined up to its end if the column of the end wraps around
to 0. -/
theorem SourceMap.diagnostic?_eq_none_of_wraps {source : String}
    (hascii : ∀ c ∈ source.toList, c.val.toNat ≤ 0x7f) (hline : '\n' ∉ source.toList)
    (hzero : UInt32.ofNat (source.utf8ByteSize + 1) = 0) (label message : String) :
    (ofText source).diagnostic? ⟨0, source.utf8ByteSize⟩ label message = none := by
  have hlength := Text.length_ofChars_of_ascii hascii
  rw [Text.length_ofChars_toList] at hlength
  have hstart : (ofText source).positionAt 0 = ⟨0, 1, 1⟩ :=
    positionAt_of_ascii (List.nil_append _).symm (by simp) (by simp)
  have hstop : (ofText source).positionAt source.utf8ByteSize = ⟨source.utf8ByteSize, 1, 0⟩ := by
    have hend := positionAt_of_ascii (List.append_nil _).symm hascii hline
    rwa [← hlength, hzero] at hend
  obtain ⟨line, hshown⟩ : ∃ line, (ofText source).line? 1 = some line :=
    ⟨_, line?_of_append (List.nil_append _).symm rfl⟩
  simp only [diagnostic?, hstart, hstop, hshown, Option.map_eq_none_iff]
  rfl

/-- A comment of letters without an end, whose last column wraps around to 0. -/
theorem Lexer.openComment_not_shown (elapsed : Nat) (l : Lexer) {n : Nat}
    (hzero : UInt32.ofNat (n + 2 + 1) = 0) :
    let source := "/*" ++ SourceMap.repeated n 'a'
    source.utf8ByteSize = n + 2 ∧ ∃ d ∈ (l.tokenize elapsed source).2.1.diagnostics,
      d.span = ⟨0, n + 2⟩ ∧ d.render? (.ofText source) = none := by
  intro source
  have hlist : source.toList = '/' :: '*' :: List.replicate n 'a' := by
    rw [String.toList_append, SourceMap.repeated]
    exact congrArg (_ ++ ·) String.toList_ofList
  have hletters : ∀ c ∈ List.replicate n 'a', c = 'a' := fun c hc => List.eq_of_mem_replicate hc
  have hascii : ∀ c ∈ source.toList, c.val.toNat ≤ 0x7f := by
    rw [hlist]
    simp only [List.forall_mem_cons]
    refine ⟨by decide, by decide, fun c hc => ?_⟩
    rw [hletters c hc]
    decide
  have hline : '\n' ∉ source.toList := by
    simp [hlist]
  have hlength : source.utf8ByteSize = n + 2 := by
    rw [← Text.length_ofChars_toList, Text.length_ofChars_of_ascii hascii, hlist]
    simp
  have hbytes : Bytes.ofText source = Gap.slash :: Gap.star :: ofChars (List.replicate n 'a') := by
    rw [Bytes.ofText_eq_ofChars, hlist]
    rfl
  have hslash : Gap.slash ∉ ofChars (List.replicate n 'a') := by
    intro hmem
    obtain ⟨c, hc, hb⟩ := List.mem_flatMap.1 hmem
    obtain rfl := hletters c hc
    exact absurd hb (by decide)
  have hopen : ¬Gap.blockEnd <:+: Bytes.ofText source := by
    rw [hbytes, List.infix_cons_iff, Gap.blockEnd, Gap.pair_isPrefix_iff, List.infix_cons_iff,
      Gap.pair_isPrefix_iff]
    rintro (⟨h, -⟩ | ⟨-, h⟩ | h)
    · exact absurd h (by decide)
    · exact hslash (List.mem_of_head? h)
    · exact hslash (h.subset (by simp))
  have hmem := l.openComment_mem elapsed (hbytes ▸ ⟨_, rfl⟩) hopen
  have hshown := SourceMap.diagnostic?_eq_none_of_wraps hascii hline (hlength ▸ hzero)
  refine ⟨hlength, _, hmem, by rw [hlength]; rfl, hshown _ _⟩

/-- A comment that is not closed, in the first line with a column that does not fit in 32 bits. Its
problem is found, and is not shown: the column of its end is 0, before that of its start. -/
theorem Lexer.tokenize_points_nowhere :
    let source := "/*" ++ SourceMap.repeated (UInt32.size - 3) 'a'
    let l : Lexer := .ofKeywords ⟨Keyword.standard, some .empty⟩ ⟨false, false⟩
    source.utf8ByteSize = UInt32.size - 1 ∧ ∃ d ∈ (l.tokenize 0 source).2.1.diagnostics,
      d.span = ⟨0, UInt32.size - 1⟩ ∧ d.render? (.ofText source) = none ∧
      ∀ before marked after, ¬d.PointsAt source before marked after := by
  obtain ⟨n, hn⟩ : ∃ n, n = UInt32.size - 3 := ⟨_, rfl⟩
  have htotal : UInt32.size - 1 = n + 2 := by
    subst hn
    rfl
  have hzero : UInt32.ofNat (n + 2 + 1) = 0 := by
    rw [hn]
    rfl
  rw [← hn, htotal]
  intro source l
  obtain ⟨hsize, d, hd, hspan, hnone⟩ := l.openComment_not_shown 0 hzero
  refine ⟨hsize, d, hd, hspan, hnone, fun before marked after hpoints => ?_⟩
  rw [hpoints.render?_eq] at hnone
  cases hnone

end RobotScript
