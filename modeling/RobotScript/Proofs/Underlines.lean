import RobotScript.Proofs.ListEnds
import RobotScript.Proofs.Positions

/-!
# Ranges that are underlined

A range of a text is shown as the line it starts in, with carets from its first column to its last,
or to the end of the line if it goes on. Both numbers of columns are counted in characters, without
the carriage returns at the end of the line, unless an offset is inside a character. So a forward
range has no carets if it starts between the carriage returns of a line break, or inside a character
after so many bytes that the columns of its end come before.

Results:

* `Text.Place.exists_append`: how the cuts of two offsets in order are related.
* `SourceMap.diagnostic?_eq`: how a range of a text is shown whose columns fit in 32 bits.
* `SourceMap.diagnostic?_eq_none_iff`: the forward ranges of such a text that are not underlined.
-/

namespace RobotScript

open Bytes (ofChars)

/-! ## Lines of characters -/

namespace Text

variable {source : String} {offset offset' k k' : Nat} {before before' after after' : List Char}

theorem lastLine_append {cs : List Char} (h : '\n' ∉ cs) (before : List Char) :
    lastLine (before ++ cs) = lastLine before ++ cs := by
  induction cs using List.reverseRecOn with
  | nil => simp
  | append_singleton cs c ih =>
    rw [List.mem_append, List.mem_singleton, not_or] at h
    obtain ⟨hcs, hc⟩ := h
    have hline := ih hcs
    rw [lastLine] at hline ⊢
    rw [← List.append_assoc, List.rtakeWhile_concat_pos _ _ _ (by simpa using Ne.symm hc), hline,
      List.append_assoc]

theorem firstLine_append {cs : List Char} (h : '\n' ∉ cs) (after : List Char) :
    firstLine (cs ++ after) = cs ++ firstLine after := by
  apply List.takeWhile_append_of_pos
  intro c hc
  rw [bne_iff_ne]
  rintro rfl
  exact h hc

theorem firstLine_append_cons {cs : List Char} (h : '\n' ∉ cs) (after : List Char) :
    firstLine (cs ++ '\n' :: after) = cs := by
  rw [firstLine_append h, firstLine, List.takeWhile_cons_of_neg (by simp), List.append_nil]

/-- Characters with a line feed are a line, a line feed and other characters. -/
theorem exists_firstLine {cs : List Char} (h : '\n' ∈ cs) :
    ∃ rest, cs = firstLine cs ++ '\n' :: rest ∧ '\n' ∉ firstLine cs := by
  have hdrop : cs.dropWhile (· != '\n') ≠ [] := by
    intro hnil
    have := List.dropWhile_eq_nil_iff.1 hnil '\n' h
    simp at this
  obtain ⟨c, rest, hcons⟩ := List.exists_cons_of_ne_nil hdrop
  have hc := List.head_dropWhile_not (· != '\n') (l := cs) hdrop
  simp only [hcons, List.head_cons, bne_eq_false_iff_eq] at hc
  refine ⟨rest, ?_, fun hmem => ?_⟩
  · rw [← hc, ← hcons, firstLine, List.takeWhile_append_dropWhile]
  · simpa using List.all_eq_true.1 (List.all_takeWhile (p := (· != '\n'))) '\n' hmem

/-- What is left of characters without the carriage returns at their end is shorter than some at
their front just if these end in a carriage return and nothing else follows them. -/
theorem exists_of_length_rdropWhile_lt {front back : List Char}
    (h : ((front ++ back).rdropWhile (· == '\r')).length < front.length) :
    (∃ cs, front = cs ++ ['\r']) ∧ ∀ c ∈ back, c = '\r' := by
  have hreturns : ∀ c ∈ (front ++ back).rtakeWhile (· == '\r'), c = '\r' :=
    fun c hc => by simpa using List.mem_rtakeWhile_imp hc
  have hparts := List.rdropWhile_append_rtakeWhile (p := (· == '\r')) (l := front ++ back)
  generalize (front ++ back).rdropWhile (· == '\r') = left at h hparts
  generalize (front ++ back).rtakeWhile (· == '\r') = returns at hreturns hparts
  rcases List.append_eq_append_iff.1 hparts with ⟨cs, rfl, rfl⟩ | ⟨cs, rfl, -⟩
  · rw [List.forall_mem_append] at hreturns
    refine ⟨?_, hreturns.2⟩
    rcases List.eq_nil_or_concat cs with rfl | ⟨cs, c, rfl⟩
    · simp at h
    · rw [List.concat_eq_append] at hreturns ⊢
      obtain rfl := hreturns.1 c (by simp)
      exact ⟨left ++ cs, (List.append_assoc _ _ _).symm⟩
  · rw [List.length_append] at h
    omega

/-- Just a character of several bytes has an inside. -/
theorem ne_newline_of_lt {c : Char} (hk : k ≠ 0) (hlt : k < (String.utf8EncodeChar c).length) :
    c ≠ '\n' := by
  rintro rfl
  have : (String.utf8EncodeChar '\n').length = 1 := rfl
  omega

/-! ## Cuts in order -/

/-- An offset inside a character. -/
theorem Place.of_inside {c : Char} {cs : List Char} (h : source.toList = before ++ c :: cs)
    (hk : k < (String.utf8EncodeChar c).length) :
    Place source ((ofChars before).length + k) before k (c :: cs) := by
  refine ⟨h, Nat.min_eq_left ?_, Or.inr ⟨c, rfl, hk⟩⟩
  rw [← length_ofChars_toList, h, length_ofChars_append, length_ofChars_cons]
  omega

/-- Characters at the front of a text that end at an offset or before it are before the cut. -/
theorem Place.isPrefix (h : Place source offset before k after) {front back : List Char}
    (hsource : source.toList = front ++ back)
    (hle : (ofChars front).length ≤ (ofChars before).length + k) : front <+: before := by
  have hfront : front <+: source.toList := ⟨back, hsource.symm⟩
  have hbefore : before <+: source.toList := ⟨after, h.toList_eq.symm⟩
  rcases List.prefix_or_prefix_of_prefix hfront hbefore with hp | ⟨cs, rfl⟩
  · exact hp
  cases cs with
  | nil => simp
  | cons c cs =>
    have hafter : after = (c :: cs) ++ back := by
      have heq := h.toList_eq
      rw [hsource, List.append_assoc] at heq
      exact (List.append_cancel_left heq).symm
    have hpos := List.length_pos_iff.2 (String.utf8EncodeChar_ne_nil (c := c))
    rw [length_ofChars_append, length_ofChars_cons] at hle
    rcases h.inside with rfl | ⟨c', hc', hlt⟩
    · omega
    · rw [hafter, List.cons_append, List.head?_cons, Option.mem_some_iff] at hc'
      subst hc'
      omega

/-- Two boundaries in order, and the characters between them. -/
theorem exists_append_of_isBoundary_of_le (h : isBoundary source offset = true)
    (h' : isBoundary source offset' = true) (hle : offset ≤ offset') :
    ∃ before mid after, source.toList = before ++ (mid ++ after) ∧
      offset = (ofChars before).length ∧ offset' = (ofChars (before ++ mid)).length := by
  obtain ⟨before, after, hcut, rfl⟩ := exists_append_of_isBoundary h
  obtain ⟨before', after', hcut', rfl⟩ := exists_append_of_isBoundary h'
  obtain ⟨mid, rfl⟩ := (Place.of_append hcut').isPrefix hcut hle
  exact ⟨before, mid, after', by rw [hcut', List.append_assoc], rfl, rfl⟩

/-- The cut of an offset after a line feed is after that line feed. -/
theorem Place.exists_after_newline (h : Place source offset before k after)
    {front rest : List Char} (hsource : source.toList = front ++ '\n' :: rest)
    (hlt : (ofChars front).length < offset) : ∃ mid, before = front ++ '\n' :: mid := by
  have hlength : (ofChars (front ++ ['\n'])).length = (ofChars front).length + 1 :=
    length_ofChars_append _ _
  have hsize := congrArg (fun cs => (ofChars cs).length) hsource
  simp only [length_ofChars_toList, length_ofChars_append, length_ofChars_cons] at hsize
  have hfeed : (String.utf8EncodeChar '\n').length = 1 := rfl
  have hcut : source.toList = (front ++ ['\n']) ++ rest := by simp [hsource]
  obtain ⟨mid, rfl⟩ := h.isPrefix hcut (by rw [hlength, ← h.min_eq]; omega)
  exact ⟨mid, by simp⟩

/-- Of two offsets in order, the cut of the second is some characters after that of the first. If
there are none, both are in the same character; and the first of them is the one that the first
offset is in. -/
theorem Place.exists_append (h : Place source offset before k after)
    (h' : Place source offset' before' k' after') (hle : offset ≤ offset') :
    ∃ mid, before' = before ++ mid ∧ after = mid ++ after' ∧ (mid = [] → k ≤ k') ∧
      (k ≠ 0 → ∀ c ∈ mid.head?, k < (String.utf8EncodeChar c).length) := by
  have hmin : min offset source.utf8ByteSize ≤ min offset' source.utf8ByteSize := by omega
  rw [h.min_eq, h'.min_eq] at hmin
  obtain ⟨mid, rfl⟩ := h'.isPrefix h.toList_eq (by omega)
  have hafter : after = mid ++ after' := by
    have heq := h.toList_eq
    rw [h'.toList_eq, List.append_assoc] at heq
    exact (List.append_cancel_left heq).symm
  refine ⟨mid, rfl, hafter, ?_, fun hk c hc => ?_⟩
  · rintro rfl
    simpa using hmin
  · rcases h.inside with hzero | ⟨c', hc', hlt⟩
    · exact absurd hzero hk
    · obtain ⟨cs, rfl⟩ := List.head?_eq_some_iff.1 hc
      rw [hafter, List.cons_append, List.head?_cons, Option.mem_some_iff] at hc'
      rwa [hc']

end Text

/-! ## Ranges without carets -/

/-- A range that starts at a column after that of its end. -/
inductive Span.Inverted (source : String) (s : Span) : Prop
  /-- It starts after a carriage return, with nothing but carriage returns up to the line feed, and
  goes over the line feed. The line is shown without all of these. -/
  | inBreak {before returns after : List Char} :
      source.toList = before ++ '\r' :: (returns ++ '\n' :: after) → (∀ c ∈ returns, c = '\r') →
      s.start = (ofChars (before ++ ['\r'])).length →
      (ofChars (before ++ '\r' :: returns)).length < s.stop → Inverted source s
  /-- It starts inside the character `c` and goes over a line feed, and there are more bytes before
  it in its line than characters in the whole line as it is shown. -/
  | overLines {before after rest : List Char} {c : Char} {k : Nat} :
      source.toList = before ++ c :: (after ++ '\n' :: rest) → '\n' ∉ after →
      0 < k → k < (String.utf8EncodeChar c).length → s.start = (ofChars before).length + k →
      (ofChars (before ++ c :: after)).length < s.stop →
      ((Text.lastLine before ++ c :: after).rdropWhile (· == '\r')).length <
        (ofChars (Text.lastLine before)).length + k → Inverted source s
  /-- It starts inside the character `c` and ends between characters of the same line, and there are
  more bytes before its start than characters before its end. -/
  | inLine {before mid after : List Char} {c : Char} {k : Nat} :
      source.toList = before ++ c :: (mid ++ after) → '\n' ∉ mid →
      0 < k → k < (String.utf8EncodeChar c).length → s.start = (ofChars before).length + k →
      min s.stop source.utf8ByteSize = (ofChars (before ++ c :: mid)).length →
      (Text.lastLine before ++ c :: mid).length < (ofChars (Text.lastLine before)).length + k →
      Inverted source s

/-! ## Columns of a range -/

theorem Position.render_eq (p : Position) :
    p.render = toString p.line.toNat ++ ":" ++ toString p.column.toNat := rfl

namespace SourceMap

open Text (firstLine lastLine columnOf Place)

variable {source : String} {span : Span} {k k' : Nat} {before mid after after' : List Char}

/-- The line around a cut as it is shown, without the carriage returns at its end. -/
def shownLine (before after : List Char) : List Char :=
  (lastLine before ++ firstLine after).rdropWhile (· == '\r')

/-- The column after a range that starts at a cut and goes over the characters `mid`, and over `k'`
bytes more, counted from 0. -/
def columnAfter (before mid after : List Char) (k' : Nat) : Nat :=
  if '\n' ∈ mid then (shownLine before after).length else columnOf (before ++ mid) k'

/-- Two offsets are in the same line if there is no line feed between them. -/
theorem line_positionAt_eq_iff (h : Place source span.start before k after)
    (h' : Place source span.stop (before ++ mid) k' after')
    (hsize : source.utf8ByteSize + 1 < UInt32.size) :
    ((ofText source).positionAt span.start).line = ((ofText source).positionAt span.stop).line ↔
      '\n' ∉ mid := by
  rw [← UInt32.toNat_inj, toNat_line_positionAt h hsize, toNat_line_positionAt h' hsize,
    List.count_append, ← List.count_eq_zero]
  omega

/-- The columns of the two ends of a range. -/
theorem columnPast_eq (h : Place source span.start before k after)
    (h' : Place source span.stop (before ++ mid) k' after')
    (hsize : source.utf8ByteSize + 1 < UInt32.size) :
    columnPast ((ofText source).positionAt span.start) ((ofText source).positionAt span.stop)
      (String.ofList (shownLine before after)) = columnAfter before mid after k' + 1 := by
  rw [columnPast, columnAfter, toNat_column_positionAt h' hsize]
  by_cases hfeed : '\n' ∈ mid
  · rw [if_neg (mt (line_positionAt_eq_iff h h' hsize).1 (not_not.2 hfeed)), if_pos hfeed]
    exact congrArg (· + 1) String.length_ofList
  · rw [if_pos ((line_positionAt_eq_iff h h' hsize).2 hfeed), if_neg hfeed]

/-- The picture of a range: a title, the place of its first character, the text of its line, and
carets from that character on. -/
def picture (title : String) (line column : Nat) (text : List Char) (carets : Nat) : String :=
  let margin := repeated (toString line).length ' '
  title ++ "\n  --> " ++ toString line ++ ":" ++ toString column ++ "\n" ++
    "   " ++ margin ++ " |\n" ++
    toString line ++ " | " ++ String.ofList text ++ "\n" ++
    "   " ++ margin ++ " | " ++ repeated (column - 1) ' ' ++ repeated carets '^' ++ "\n"

/-- The picture of a range, in terms of the cuts of its ends. -/
theorem diagnostic?_eq (h : Place source span.start before k after)
    (h' : Place source span.stop (before ++ mid) k' after')
    (hsize : source.utf8ByteSize + 1 < UInt32.size) (label message : String) :
    (ofText source).diagnostic? span label message =
      if columnAfter before mid after k' < columnOf before k then none
      else some (picture (label ++ ": " ++ message) (before.count '\n' + 1) (columnOf before k + 1)
        (shownLine before after)
        (max 1 (columnAfter before mid after k' - columnOf before k))) := by
  have hnumber := toNat_line_positionAt h hsize
  have hcolumn := toNat_column_positionAt h hsize
  have hline : (ofText source).line? ((ofText source).positionAt span.start).line =
      some (String.ofList (shownLine before after)) := line?_of_append h.toList_eq hnumber
  have htext : toString ((ofText source).positionAt span.start).line =
      toString (before.count '\n' + 1) := congrArg toString hnumber
  simp only [diagnostic?, hline, caretCount?, columnPast_eq h h' hsize, Position.render_eq, htext,
    hnumber, hcolumn, Nat.add_lt_add_iff_right, Nat.add_sub_add_right]
  by_cases hlt : columnAfter before mid after k' < columnOf before k
  · simp only [hlt, if_true, Option.map_none]
  · simp only [hlt, if_false, Option.map_some, Option.some.injEq]
    dsimp only [picture]
    simp only [String.append_assoc]

/-- A range is not underlined if it ends at a column before that of its start. -/
theorem diagnostic?_eq_none_iff_lt (h : Place source span.start before k after)
    (h' : Place source span.stop (before ++ mid) k' after')
    (hsize : source.utf8ByteSize + 1 < UInt32.size) (label message : String) :
    (ofText source).diagnostic? span label message = none ↔
      columnAfter before mid after k' < columnOf before k := by
  rw [diagnostic?_eq h h' hsize]
  split
  · rename_i hlt
    exact iff_of_true rfl hlt
  · rename_i hlt
    exact iff_of_false (by simp) hlt

/-! ## Which ranges are not underlined -/

theorem columnOf_zero (before : List Char) : columnOf before 0 = (lastLine before).length :=
  if_pos rfl

theorem columnOf_of_ne_zero (hk : k ≠ 0) (before : List Char) :
    columnOf before k = (ofChars (lastLine before)).length + k := if_neg hk

/-- A range that ends in the line where it starts has columns in order, unless it starts inside a
character and ends between two. -/
theorem columnOf_le (hfeed : '\n' ∉ mid) (hzero : k ≠ 0 → k' ≠ 0) (hnil : mid = [] → k ≤ k')
    (hhead : k ≠ 0 → ∀ c ∈ mid.head?, k < (String.utf8EncodeChar c).length) :
    columnOf before k ≤ columnOf (before ++ mid) k' := by
  have hline := Text.lastLine_append hfeed before
  by_cases hk : k = 0
  · subst hk
    have hchars := Text.length_le_length_ofChars (lastLine before ++ mid)
    rw [List.length_append] at hchars
    rw [columnOf_zero, columnOf, hline]
    split
    · rw [List.length_append]
      omega
    · omega
  · rw [columnOf_of_ne_zero hk, columnOf_of_ne_zero (hzero hk), hline, Text.length_ofChars_append]
    cases mid with
    | nil =>
      have := hnil rfl
      simp only [Bytes.ofChars_nil, List.length_nil]
      omega
    | cons c cs =>
      have := hhead hk c rfl
      rw [Text.length_ofChars_cons]
      omega

/-- The line that is shown of a range that goes over a line feed. -/
theorem shownLine_append_cons {cs : List Char} (h : '\n' ∉ cs) (before rest : List Char) :
    shownLine before (cs ++ '\n' :: rest) = (lastLine before ++ cs).rdropWhile (· == '\r') := by
  rw [shownLine, Text.firstLine_append_cons h]

theorem columnAfter_of_mem (h : '\n' ∈ mid) (before after : List Char) (k' : Nat) :
    columnAfter before mid after k' = (shownLine before after).length := if_pos h

theorem columnAfter_of_notMem (h : '\n' ∉ mid) (before after : List Char) (k' : Nat) :
    columnAfter before mid after k' = columnOf (before ++ mid) k' := if_neg h

/-- The offset of a cut before the end of the text. -/
theorem start_eq_of_ne_nil (h : Place source span.start before k after) (hne : after ≠ []) :
    span.start = (ofChars before).length + k := by
  obtain ⟨c, cs, rfl⟩ := List.exists_cons_of_ne_nil hne
  have hpos := List.length_pos_iff.2 (String.utf8EncodeChar_ne_nil (c := c))
  have hmin := h.min_eq
  have hsize := congrArg (fun cs => (ofChars cs).length) h.toList_eq
  simp only [Text.length_ofChars_toList, Text.length_ofChars_append,
    Text.length_ofChars_cons] at hsize
  rcases h.inside with rfl | ⟨c', hc', hlt⟩
  · omega
  · obtain rfl := Option.some.inj hc'
    omega

/-- A range that goes over a line feed is of one of these kinds if it has no carets. -/
theorem inverted_over_newline {cs rest : List Char} (hline : '\n' ∉ cs)
    (h : Place source span.start before k (cs ++ '\n' :: rest))
    (hstop : (ofChars (before ++ cs)).length < span.stop)
    (hlt : ((lastLine before ++ cs).rdropWhile (· == '\r')).length < columnOf before k) :
    span.Inverted source := by
  have hsource := h.toList_eq
  have hstart := start_eq_of_ne_nil h (by simp)
  by_cases hk : k = 0
  · subst hk
    rw [columnOf_zero] at hlt
    obtain ⟨⟨line, hreturn⟩, hreturns⟩ := Text.exists_of_length_rdropWhile_lt hlt
    obtain ⟨front, rfl⟩ : ∃ front, before = front ++ ['\r'] := by
      refine ⟨before.rdropWhile (· != '\n') ++ line, ?_⟩
      rw [List.append_assoc, ← hreturn, Text.rdropWhile_append_lastLine]
    rw [List.append_assoc, List.singleton_append] at hsource hstop
    exact .inBreak hsource hreturns hstart hstop
  · rw [columnOf_of_ne_zero hk] at hlt
    obtain ⟨c, hc, hlen⟩ := h.inside.resolve_left hk
    cases cs with
    | nil =>
      obtain rfl : c = '\n' := (Option.some.inj hc).symm
      exact absurd rfl (Text.ne_newline_of_lt hk hlen)
    | cons c' cs =>
      obtain rfl : c' = c := Option.some.inj hc
      rw [List.mem_cons, not_or] at hline
      exact .overLines hsource hline.2 (Nat.pos_of_ne_zero hk) hlen hstart hstop hlt

/-- A range is of one of these kinds if it has no carets. -/
theorem inverted_of_lt (h : Place source span.start before k (mid ++ after'))
    (h' : Place source span.stop (before ++ mid) k' after') (hnil : mid = [] → k ≤ k')
    (hhead : k ≠ 0 → ∀ c ∈ mid.head?, k < (String.utf8EncodeChar c).length)
    (hlt : columnAfter before mid (mid ++ after') k' < columnOf before k) :
    span.Inverted source := by
  by_cases hfeed : '\n' ∈ mid
  · obtain ⟨rest, hmid, hline⟩ := Text.exists_firstLine hfeed
    rw [columnAfter_of_mem hfeed] at hlt
    generalize firstLine mid = cs at hmid hline
    subst hmid
    rw [List.append_assoc, List.cons_append] at h hlt
    rw [shownLine_append_cons hline] at hlt
    refine inverted_over_newline hline h ?_ hlt
    have hmin := h'.min_eq
    rw [← List.append_assoc, Text.length_ofChars_append, Text.length_ofChars_cons] at hmin
    have hpos : (String.utf8EncodeChar '\n').length = 1 := rfl
    omega
  · rw [columnAfter_of_notMem hfeed] at hlt
    obtain ⟨hk, rfl⟩ : k ≠ 0 ∧ k' = 0 := by
      by_contra hends
      have hle : columnOf before k ≤ columnOf (before ++ mid) k' :=
        columnOf_le hfeed (by tauto) hnil hhead
      omega
    have hsource := h.toList_eq
    cases mid with
    | nil => exact absurd (Nat.le_zero.1 (hnil rfl)) hk
    | cons c cs =>
      have hstart := start_eq_of_ne_nil h (by simp)
      rw [columnOf_of_ne_zero hk, columnOf_zero, Text.lastLine_append hfeed] at hlt
      rw [List.mem_cons, not_or] at hfeed
      exact .inLine hsource hfeed.2 (Nat.pos_of_ne_zero hk) (hhead hk c rfl) hstart h'.min_eq hlt

/-- A range that starts in a line break and goes over it is not underlined: the line that is shown
ends before the carriage return that the range starts after. -/
theorem diagnostic?_eq_none_of_inBreak {returns : List Char}
    (hsource : source.toList = before ++ '\r' :: (returns ++ '\n' :: after))
    (hreturns : ∀ c ∈ returns, c = '\r') (hstart : span.start = (ofChars (before ++ ['\r'])).length)
    (hlt : (ofChars (before ++ '\r' :: returns)).length < span.stop)
    (hsize : source.utf8ByteSize + 1 < UInt32.size) (label message : String) :
    (ofText source).diagnostic? span label message = none := by
  obtain ⟨stop, k', after', hstop⟩ := Text.exists_place source span.stop
  have hcut : source.toList = (before ++ ['\r']) ++ (returns ++ '\n' :: after) := by simp [hsource]
  have hplace : Place source span.start (before ++ ['\r']) 0 (returns ++ '\n' :: after) := by
    rw [hstart]
    exact .of_append hcut
  have hfeed : source.toList = (before ++ '\r' :: returns) ++ '\n' :: after := by simp [hsource]
  obtain ⟨mid, rfl⟩ := hstop.exists_after_newline hfeed hlt
  have hmid : before ++ '\r' :: returns ++ '\n' :: mid =
      (before ++ ['\r']) ++ (returns ++ '\n' :: mid) := by simp
  have hline : '\n' ∉ returns := fun hmem => absurd (hreturns _ hmem) (by decide)
  have hshown : (lastLine before ++ ['\r'] ++ returns).rdropWhile (· == '\r') =
      (lastLine before).rdropWhile (· == '\r') := by
    rw [List.append_assoc]
    apply Text.rdropWhile_append
    simpa using hreturns
  have hle := (List.rdropWhile_prefix (p := (· == '\r')) (l := lastLine before)).length_le
  rw [hmid] at hstop
  rw [diagnostic?_eq_none_iff_lt hplace hstop hsize, columnAfter_of_mem (by simp),
    shownLine_append_cons hline, Text.lastLine_append (by decide), hshown, columnOf_zero,
    Text.lastLine_append (by decide), List.length_append, List.length_singleton]
  omega

/-- A range that starts inside a character and goes over a line feed is not underlined if the line
that is shown has fewer characters than the bytes before the start. -/
theorem diagnostic?_eq_none_of_overLines {rest : List Char} {c : Char}
    (hsource : source.toList = before ++ c :: (after ++ '\n' :: rest)) (hafter : '\n' ∉ after)
    (hpos : 0 < k) (hk : k < (String.utf8EncodeChar c).length)
    (hstart : span.start = (ofChars before).length + k)
    (hlt : (ofChars (before ++ c :: after)).length < span.stop)
    (hcolumns : ((lastLine before ++ c :: after).rdropWhile (· == '\r')).length <
      (ofChars (lastLine before)).length + k)
    (hsize : source.utf8ByteSize + 1 < UInt32.size) (label message : String) :
    (ofText source).diagnostic? span label message = none := by
  obtain ⟨stop, k', after', hstop⟩ := Text.exists_place source span.stop
  have hplace : Place source span.start before k (c :: (after ++ '\n' :: rest)) := by
    rw [hstart]
    exact .of_inside hsource hk
  have hfeed : source.toList = (before ++ c :: after) ++ '\n' :: rest := by simp [hsource]
  obtain ⟨mid, rfl⟩ := hstop.exists_after_newline hfeed hlt
  have hmid : before ++ c :: after ++ '\n' :: mid = before ++ (c :: after ++ '\n' :: mid) := by simp
  have hline : '\n' ∉ c :: after := by
    simpa [hafter] using Ne.symm (Text.ne_newline_of_lt (Nat.pos_iff_ne_zero.1 hpos) hk)
  rw [hmid] at hstop
  rw [diagnostic?_eq_none_iff_lt hplace hstop hsize, columnAfter_of_mem (by simp), ← List.cons_append,
    shownLine_append_cons hline, columnOf_of_ne_zero (Nat.pos_iff_ne_zero.1 hpos)]
  exact hcolumns

/-- A range that starts inside a character and ends between characters of the same line is not
underlined if there are fewer characters before its end than bytes before its start. -/
theorem diagnostic?_eq_none_of_inLine {c : Char}
    (hsource : source.toList = before ++ c :: (mid ++ after)) (hmid : '\n' ∉ mid)
    (hpos : 0 < k) (hk : k < (String.utf8EncodeChar c).length)
    (hstart : span.start = (ofChars before).length + k)
    (hstop : min span.stop source.utf8ByteSize = (ofChars (before ++ c :: mid)).length)
    (hcolumns : (lastLine before ++ c :: mid).length < (ofChars (lastLine before)).length + k)
    (hsize : source.utf8ByteSize + 1 < UInt32.size) (label message : String) :
    (ofText source).diagnostic? span label message = none := by
  have hplace : Place source span.start before k (c :: (mid ++ after)) := by
    rw [hstart]
    exact .of_inside hsource hk
  have hend : Place source span.stop (before ++ c :: mid) 0 after :=
    ⟨by simp [hsource], hstop, Or.inl rfl⟩
  have hline : '\n' ∉ c :: mid := by
    simpa [hmid] using Ne.symm (Text.ne_newline_of_lt (Nat.pos_iff_ne_zero.1 hpos) hk)
  rw [diagnostic?_eq_none_iff_lt hplace hend hsize, columnAfter_of_notMem hline, columnOf_zero,
    Text.lastLine_append hline, columnOf_of_ne_zero (Nat.pos_iff_ne_zero.1 hpos)]
  exact hcolumns

/-- Ranges of these kinds have no carets. -/
theorem diagnostic?_eq_none_of_inverted (h : span.Inverted source)
    (hsize : source.utf8ByteSize + 1 < UInt32.size) (label message : String) :
    (ofText source).diagnostic? span label message = none := by
  cases h with
  | inBreak hsource hreturns hstart hlt =>
    exact diagnostic?_eq_none_of_inBreak hsource hreturns hstart hlt hsize label message
  | overLines hsource hafter hpos hk hstart hlt hcolumns =>
    exact diagnostic?_eq_none_of_overLines hsource hafter hpos hk hstart hlt hcolumns hsize label
      message
  | inLine hsource hmid hpos hk hstart hmin hcolumns =>
    exact diagnostic?_eq_none_of_inLine hsource hmid hpos hk hstart hmin hcolumns hsize label
      message

/-- Which ranges are underlined, of a text whose columns fit in 32 bits: all forward ones but those
that start after a carriage return in a line break that they go over, and those that start inside a
character and end, with the columns of the text, before the bytes of their start. -/
theorem diagnostic?_eq_none_iff {source : String} (hsize : source.utf8ByteSize + 1 < UInt32.size)
    {span : Span} (h : span.start ≤ span.stop) (label message : String) :
    (ofText source).diagnostic? span label message = none ↔ span.Inverted source := by
  refine ⟨fun hnone => ?_, fun hinverted => diagnostic?_eq_none_of_inverted hinverted hsize _ _⟩
  obtain ⟨before, k, after, hstart⟩ := Text.exists_place source span.start
  obtain ⟨before', k', after', hstop⟩ := Text.exists_place source span.stop
  obtain ⟨mid, rfl, rfl, hnil, hhead⟩ := hstart.exists_append hstop h
  rw [diagnostic?_eq_none_iff_lt hstart hstop hsize] at hnone
  exact inverted_of_lt hstart hstop hnil hhead hnone

/-- A line break of two carriage returns and a line feed. A range over it from its start on is
underlined, and so is one from inside the character before it on; one from the second carriage
return on is not. -/
theorem diagnostic?_over_line_break :
    let source := "aé\r\r\nb"
    ¬(⟨3, 6⟩ : Span).Inverted source ∧ ¬(⟨2, 6⟩ : Span).Inverted source ∧
      (⟨4, 6⟩ : Span).Inverted source := by
  intro source
  have hsize : source.utf8ByteSize + 1 < UInt32.size := by decide
  have hiff := fun start (h : start ≤ 6) =>
    @diagnostic?_eq_none_iff source hsize ⟨start, 6⟩ h "" ""
  refine ⟨mt (hiff 3 (by decide)).2 ?_, mt (hiff 2 (by decide)).2 ?_, (hiff 4 (by decide)).1 ?_⟩
  all_goals decide +kernel

/-- Forward ranges that are not underlined. From the line feed after a carriage return on, the start
has the second column of a line that is shown without characters. From the last byte of a character
on, the start has the column of its bytes, and the end an earlier one, of its characters. -/
theorem diagnostic?_eq_none_of_forward :
    ((ofText "\r\n").positionAt 1).render = "1:2" ∧ ((ofText "\r\n").positionAt 2).render = "2:1" ∧
      (ofText "\r\n").line? 1 = some "" ∧ (ofText "\r\n").diagnostic? ⟨1, 2⟩ "" "" = none ∧
    ((ofText "éé").positionAt 3).render = "1:4" ∧ ((ofText "éé").positionAt 4).render = "1:3" ∧
      (ofText "éé").diagnostic? ⟨3, 4⟩ "" "" = none := by
  decide +kernel

end SourceMap

end RobotScript
