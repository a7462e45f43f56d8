import RobotScript.Proofs.PositionOrder

/-!
# Lines of a text

The lines of a text are the parts between its line feeds. The source map finds them by the offsets
at which they start: for each number from 1 up to that of the last line there is a line. A cut of
the text is in the line whose index is the number of line feeds before it, so the lines that a text
is cut into by its line feeds and those that offsets are in are the same.

Results:

* `Text.getElem?_splitOn_append`: the line around a cut is one of the parts between line feeds.
* `Text.exists_append_of_count`: there is a cut in each line.
* `Text.mem_lineStarts_iff`, `Text.pairwise_lineStarts`: where lines start.
* `SourceMap.between?_of_append`: what stands from the start of a line to that of the next one.
* `SourceMap.hasLines_lines`: the lines of a text, their numbers and the places in them.
-/

namespace RobotScript

open Bytes (ofChars)

/-! ## Parts between line feeds -/

namespace Text

/-- The lines of a text: the parts between its line feeds. -/
def lines (source : String) : List String := (source.toList.splitOn '\n').map String.ofList

theorem length_splitOn (cs : List Char) : (cs.splitOn '\n').length = cs.count '\n' + 1 := by
  induction cs with
  | nil => rfl
  | cons c cs ih =>
    rw [List.splitOn_cons_eq_if_modifyHead, List.count_cons]
    split
    · rw [List.length_cons, ih]
    · rw [List.length_modifyHead, ih, Nat.add_zero]

theorem getElem?_splitOn_zero (cs : List Char) : (cs.splitOn '\n')[0]? = some (firstLine cs) := by
  by_cases hfeed : '\n' ∈ cs
  · obtain ⟨rest, hcs, hline⟩ := exists_firstLine hfeed
    conv => lhs; rw [hcs, List.splitOn_append_cons_self_of_not_mem hline]
    rfl
  · rw [List.splitOn_eq_singleton hfeed, firstLine_eq_self hfeed]
    rfl

/-- The part with the index of the line feeds before a cut is the line around the cut. -/
theorem getElem?_splitOn_append (before after : List Char) :
    ((before ++ after).splitOn '\n')[before.count '\n']? =
      some (lastLine before ++ firstLine after) := by
  induction before using List.reverseRecOn generalizing after with
  | nil => exact getElem?_splitOn_zero after
  | append_singleton before c ih =>
    rw [List.append_assoc, List.singleton_append, List.count_append]
    by_cases hc : c = '\n'
    · subst hc
      have hindex : before.count '\n' + ['\n'].count '\n' = (before.splitOn '\n').length :=
        (length_splitOn before).symm
      have hlast : lastLine (before ++ ['\n']) = [] := List.rtakeWhile_concat_neg _ _ _ (by simp)
      rw [List.splitOn_append_cons_self, hindex, List.getElem?_append_right (Nat.le_refl _),
        Nat.sub_self, getElem?_splitOn_zero, hlast, List.nil_append]
    · have hfeed : '\n' ∉ [c] := by simpa using Ne.symm hc
      rw [List.count_eq_zero.2 hfeed, Nat.add_zero, ih, lastLine_append hfeed,
        ← List.singleton_append (l := after), firstLine_append hfeed, List.append_assoc]

/-- There is a cut after any number of line feeds that the characters have. -/
theorem exists_append_of_count {cs : List Char} {n : Nat} (h : n ≤ cs.count '\n') :
    ∃ before after, cs = before ++ after ∧ before.count '\n' = n := by
  induction cs generalizing n with
  | nil => exact ⟨[], [], rfl, (Nat.le_zero.1 h).symm⟩
  | cons c cs ih =>
    rw [List.count_cons] at h
    cases n with
    | zero => exact ⟨[], c :: cs, rfl, rfl⟩
    | succ n =>
      by_cases hc : (c == '\n') = true
      · rw [if_pos hc] at h
        obtain ⟨before, after, rfl, hcount⟩ := ih (Nat.le_of_succ_le_succ h)
        exact ⟨c :: before, after, rfl, by rw [List.count_cons, if_pos hc, hcount]⟩
      · rw [if_neg hc, Nat.add_zero] at h
        obtain ⟨before, after, rfl, hcount⟩ := ih h
        exact ⟨c :: before, after, rfl, by rw [List.count_cons, if_neg hc, hcount]⟩

/-! ## Starts of lines -/

theorem mem_startsAfter_iff {offset start : Nat} {cs : List Char} :
    start ∈ startsAfter offset cs ↔ ∃ before after, cs = before ++ '\n' :: after ∧
      start = offset + (ofChars (before ++ ['\n'])).length := by
  constructor
  · intro h
    induction cs generalizing offset with
    | nil => cases h
    | cons c cs ih =>
      rw [startsAfter] at h
      split at h
      · rename_i hc
        subst hc
        rcases List.mem_cons.1 h with rfl | h
        · exact ⟨[], cs, rfl, rfl⟩
        · obtain ⟨before, after, rfl, rfl⟩ := ih h
          refine ⟨'\n' :: before, after, rfl, ?_⟩
          rw [List.cons_append, length_ofChars_cons, ← Nat.add_assoc]
          rfl
      · obtain ⟨before, after, rfl, rfl⟩ := ih h
        refine ⟨c :: before, after, rfl, ?_⟩
        rw [List.cons_append, length_ofChars_cons, ← Nat.add_assoc]
  · rintro ⟨before, after, rfl, rfl⟩
    rw [startsAfter_append, startsAfter, if_pos rfl, length_ofChars_append, ← Nat.add_assoc]
    exact List.mem_append_right _ List.mem_cons_self

theorem pairwise_startsAfter (offset : Nat) (cs : List Char) :
    (startsAfter offset cs).Pairwise (· < ·) := by
  induction cs generalizing offset with
  | nil => exact .nil
  | cons c cs ih =>
    rw [startsAfter]
    split
    · exact .cons (fun start h => (mem_startsAfter h).1) (ih _)
    · exact ih _

/-- Lines start at the start of a text and after its line feeds. -/
theorem mem_lineStarts_iff {source : String} {start : Nat} :
    start ∈ lineStarts source ↔ start = 0 ∨ ∃ before after,
      source.toList = before ++ '\n' :: after ∧ start = (ofChars (before ++ ['\n'])).length := by
  rw [← Array.mem_toList_iff, toList_lineStarts, List.mem_cons, mem_startsAfter_iff]
  simp only [Nat.zero_add]

theorem pairwise_lineStarts (source : String) : (lineStarts source).toList.Pairwise (· < ·) := by
  rw [toList_lineStarts]
  exact .cons (fun start h => (mem_startsAfter h).1) (pairwise_startsAfter _ _)

end Text

/-! ## Lines of a source map -/

namespace SourceMap

open Text (firstLine lastLine Place)

/-- What stands from the start of the line with an index to the start of the next line, or to the
end of the text. -/
def between? (m : SourceMap) (i : Nat) : Option String :=
  m.lineStarts[i]?.bind fun start =>
    Text.slice? m.source start (m.lineStarts[i + 1]?.getD m.source.utf8ByteSize)

/-- An offset stands in its line after as many characters as its column says. -/
def StandsInLine (m : SourceMap) (lines : List String) (offset : Nat) : Prop :=
  ∃ start line, m.lineStarts[(m.positionAt offset).line.toNat - 1]? = some start ∧
    lines[(m.positionAt offset).line.toNat - 1]? = some line ∧
    (m.positionAt offset).column.toNat - 1 ≤ line.length ∧
    Text.slice? m.source start offset =
      some (String.ofList (line.toList.take ((m.positionAt offset).column.toNat - 1)))

/-- A source map has these lines. -/
structure HasLines (source : String) (m : SourceMap) (lines : List String) : Prop where
  mem_starts : ∀ start, start ∈ m.lineStarts ↔ start = 0 ∨ ∃ before after,
    source.toList = before ++ '\n' :: after ∧ start = (ofChars (before ++ ['\n'])).length
  increasing : m.lineStarts.toList.Pairwise (· < ·)
  lineCount_eq : m.lineCount = 1 + source.toList.count '\n'
  length_eq : lines.length = m.lineCount
  /-- All lines but the last one are ended by a line feed. -/
  between : ∀ i line, lines[i]? = some line →
    m.between? i = some (if i + 1 < lines.length then line ++ "\n" else line)
  newline_notMem : ∀ line ∈ lines, '\n' ∉ line.toList
  intercalate_eq : "\n".intercalate lines = source
  /-- A line is shown without the carriage returns at its end. -/
  line?_eq : ∀ number, m.line? number = if number = 0 then none
    else lines[number.toNat - 1]?.map fun line =>
      String.ofList (line.toList.rdropWhile (· == '\r'))
  isSome_iff : ∀ number, (m.line? number).isSome = true ↔
    1 ≤ number.toNat ∧ number.toNat ≤ m.lineCount
  /-- Lines and columns fit in 32 bits if the text has fewer than `2 ^ 32 - 1` bytes. -/
  places : source.utf8ByteSize + 1 < UInt32.size →
    ∀ offset, Text.isBoundary source offset = true → m.StandsInLine lines offset

variable {source : String} {before after : List Char}

theorem lineCount_ofText (source : String) :
    (ofText source).lineCount = 1 + source.toList.count '\n' := by
  rw [lineCount, ofText, ← Array.length_toList, toList_lineStarts, List.length_cons,
    Text.length_startsAfter, Nat.add_comm]

theorem length_lines (source : String) :
    (Text.lines source).length = (ofText source).lineCount := by
  rw [lineCount_ofText, Text.lines, List.length_map, Text.length_splitOn, Nat.add_comm]

theorem getElem?_lines (h : source.toList = before ++ after) :
    (Text.lines source)[before.count '\n']? =
      some (String.ofList (lastLine before ++ firstLine after)) := by
  rw [Text.lines, List.getElem?_map, h, Text.getElem?_splitOn_append, Option.map_some]

/-- There is a cut in each line. -/
theorem exists_append_of_lt {i : Nat} (h : i < (ofText source).lineCount) :
    ∃ before after, source.toList = before ++ after ∧ before.count '\n' = i := by
  rw [lineCount_ofText] at h
  exact Text.exists_append_of_count (by omega)

/-- What stands from the start of the line around a cut on. -/
theorem between?_of_append (h : source.toList = before ++ after) :
    (ofText source).between? (before.count '\n') =
      some (String.ofList (lastLine before ++ firstLine after ++
        if '\n' ∈ after then ['\n'] else [])) := by
  have hfront := Text.rdropWhile_append_lastLine before
  have hlines := congrArg (fun cs => (ofChars cs).length) hfront
  simp only [Text.length_ofChars_append] at hlines
  simp only [between?, ofText, Text.getElem?_lineStarts h, Text.getElem?_lineStarts_succ h,
    Option.bind_some]
  by_cases hfeed : '\n' ∈ after
  · obtain ⟨rest, hafter, -⟩ := Text.exists_firstLine hfeed
    have hcut : source.toList = before.rdropWhile (· != '\n') ++
        (lastLine before ++ firstLine after ++ ['\n']) ++ rest := by
      simp only [List.append_assoc, List.singleton_append, ← hafter]
      rw [← List.append_assoc, hfront, h]
    have hslice := Text.slice?_of_toList hcut
    simp only [Text.length_ofChars_append, ← Nat.add_assoc, hlines] at hslice
    simp only [hfeed, if_true, Option.getD_some]
    exact hslice
  · have hcut : source.toList =
        before.rdropWhile (· != '\n') ++ (lastLine before ++ after) ++ [] := by
      rw [List.append_nil, ← List.append_assoc, hfront, h]
    have hslice := Text.slice?_of_toList hcut
    rw [Text.length_ofChars_append, ← Nat.add_assoc, hlines, ← Text.length_ofChars_append, ← h,
      Text.length_ofChars_toList] at hslice
    simp only [hfeed, if_false, Option.getD_none, Text.firstLine_eq_self hfeed, List.append_nil]
    exact hslice

/-- The line with the next index after that of a cut, if the characters after it have a line
feed. -/
theorem succ_lt_length_lines_iff (h : source.toList = before ++ after) :
    before.count '\n' + 1 < (Text.lines source).length ↔ '\n' ∈ after := by
  rw [length_lines, lineCount_ofText, h, List.count_append, ← List.count_pos_iff]
  omega

/-- What stands in a text from the start of a line on is that line, with its line feed if it has
one. -/
theorem between?_of_getElem? {i : Nat} {line : String} (h : (Text.lines source)[i]? = some line) :
    (ofText source).between? i =
      some (if i + 1 < (Text.lines source).length then line ++ "\n" else line) := by
  obtain ⟨hi, -⟩ := List.getElem?_eq_some_iff.1 h
  rw [length_lines] at hi
  obtain ⟨before, after, hcut, rfl⟩ := exists_append_of_lt hi
  rw [getElem?_lines hcut] at h
  obtain rfl := Option.some.inj h
  rw [between?_of_append hcut]
  by_cases hfeed : '\n' ∈ after
  · rw [if_pos hfeed, if_pos ((succ_lt_length_lines_iff hcut).2 hfeed)]
    exact congrArg some String.ofList_append
  · rw [if_neg hfeed, if_neg (mt (succ_lt_length_lines_iff hcut).1 hfeed), List.append_nil]

/-- There is no line feed in a line. -/
theorem newline_notMem_of_mem_lines {line : String} (h : line ∈ Text.lines source) :
    '\n' ∉ line.toList := by
  obtain ⟨i, hi, rfl⟩ := List.getElem_of_mem h
  obtain ⟨before, after, hcut, rfl⟩ := exists_append_of_lt (length_lines source ▸ hi)
  have hline := getElem?_lines hcut
  rw [List.getElem?_eq_getElem hi, Option.some.injEq] at hline
  rw [hline, String.toList_ofList, List.mem_append, not_or]
  constructor
  · intro hmem
    simpa using List.mem_rtakeWhile_imp hmem
  · intro hmem
    simpa using List.mem_takeWhile_imp hmem

/-- The lines with the line feeds between them are the text. -/
theorem intercalate_lines (source : String) : "\n".intercalate (Text.lines source) = source := by
  apply String.toList_inj.1
  have hmap : (Text.lines source).map String.toList = source.toList.splitOn '\n' := by
    rw [Text.lines, List.map_map]
    exact List.map_id'' (fun cs => String.toList_ofList) _
  rw [String.toList_intercalate, hmap]
  exact List.intercalate_splitOn '\n'

theorem toNat_ne_zero {number : UInt32} (h : number ≠ 0) : number.toNat ≠ 0 :=
  fun hzero => h (UInt32.toNat_inj.1 hzero)

theorem line?_eq_getElem? (source : String) (number : UInt32) :
    (ofText source).line? number = if number = 0 then none
      else (Text.lines source)[number.toNat - 1]?.map fun line =>
        String.ofList (line.toList.rdropWhile (· == '\r')) := by
  by_cases hzero : number = 0
  · rw [if_pos hzero, line?, if_pos hzero]
  · have hnumber : number.toNat = number.toNat - 1 + 1 := by
      have hne := toNat_ne_zero hzero
      omega
    have hindex := toNat_sub_one hnumber
    rw [if_neg hzero]
    generalize number.toNat - 1 = i at hnumber hindex
    by_cases hi : i < (ofText source).lineCount
    · obtain ⟨before, after, hcut, rfl⟩ := exists_append_of_lt hi
      rw [line?_of_append hcut hnumber, getElem?_lines hcut, Option.map_some, String.toList_ofList]
    · have hstart : (ofText source).lineStarts[i]? = none :=
        Array.getElem?_eq_none (Nat.le_of_not_lt hi)
      rw [List.getElem?_eq_none (by rw [length_lines]; omega), Option.map_none]
      simp only [line?, hzero, if_false, hindex, hstart]

theorem isSome_line?_iff (source : String) (number : UInt32) :
    ((ofText source).line? number).isSome = true ↔
      1 ≤ number.toNat ∧ number.toNat ≤ (ofText source).lineCount := by
  rw [line?_eq_getElem?, ← length_lines]
  by_cases hzero : number = 0
  · subst hzero
    simp
  · have hne := toNat_ne_zero hzero
    rw [if_neg hzero, Option.isSome_map, Option.isSome_iff_ne_none, Ne,
      List.getElem?_eq_none_iff]
    omega

/-- The place of a cut in its line. -/
theorem place_of_append (h : source.toList = before ++ after) :
    (ofText source).lineStarts[before.count '\n']? =
        some (ofChars (before.rdropWhile (· != '\n'))).length ∧
      Text.slice? source (ofChars (before.rdropWhile (· != '\n'))).length (ofChars before).length =
        some (String.ofList (lastLine before)) := by
  have hfront := Text.rdropWhile_append_lastLine before
  have hcut : source.toList = before.rdropWhile (· != '\n') ++ lastLine before ++ after := by
    rw [hfront, h]
  have hslice := Text.slice?_of_toList hcut
  rw [← Text.length_ofChars_append, hfront] at hslice
  exact ⟨Text.getElem?_lineStarts h, hslice⟩

theorem standsInLine (hsize : source.utf8ByteSize + 1 < UInt32.size) {offset : Nat}
    (h : Text.isBoundary source offset = true) :
    (ofText source).StandsInLine (Text.lines source) offset := by
  obtain ⟨before, after, hcut, rfl⟩ := Text.exists_append_of_isBoundary h
  obtain ⟨hstart, hslice⟩ := place_of_append hcut
  rw [StandsInLine, toNat_line_positionAt (.of_append hcut) hsize,
    toNat_column_positionAt (.of_append hcut) hsize, columnOf_zero, Nat.add_sub_cancel,
    Nat.add_sub_cancel]
  refine ⟨_, _, hstart, getElem?_lines hcut, ?_, ?_⟩
  · rw [String.length_ofList, List.length_append]
    exact Nat.le_add_right _ _
  · rw [String.toList_ofList, List.take_left]
    exact hslice

/-- The lines of a text. There is one more than there are line feeds, each has a number from 1 on
and is shown without the carriage returns at its end, and with line feeds between them they are the
text. Each stands where its start and that of the next line say, and an offset where a character
begins stands in its line after as many characters as its column says, as long as that fits in 32
bits. -/
theorem hasLines_lines (source : String) :
    HasLines source (ofText source) (Text.lines source) where
  mem_starts := fun _ => Text.mem_lineStarts_iff
  increasing := Text.pairwise_lineStarts source
  lineCount_eq := lineCount_ofText source
  length_eq := length_lines source
  between := fun _ _ => between?_of_getElem?
  newline_notMem := fun _ => newline_notMem_of_mem_lines
  intercalate_eq := intercalate_lines source
  line?_eq := line?_eq_getElem? source
  isSome_iff := isSome_line?_iff source
  places := fun hsize _ => standsInLine hsize

/-- A line of letters does not stand before its end as the column of the end says if that column
is 0. -/
theorem not_standsInLine_repeated {n : Nat} (hne : n ≠ 0)
    (hend : (ofText (repeated n 'a')).positionAt n = ⟨n, 1, 0⟩) :
    ¬(ofText (repeated n 'a')).StandsInLine (Text.lines (repeated n 'a')) n := by
  -- the characters of the line that the column counts are none, those before its end are all
  rintro ⟨start, line, hstart, -, -, hslice⟩
  have hfirst : (ofText (repeated n 'a')).lineStarts[0]? = some 0 :=
    (place_of_append (List.nil_append _).symm).1
  have hwhole : Text.slice? (repeated n 'a') 0 (repeated n 'a').utf8ByteSize =
      some (repeated n 'a') := by
    have hall := Text.slice?_of_append (List.nil_append (Bytes.ofText (repeated n 'a'))).symm
      (Bytes.isText_ofText _)
    rwa [Text.toText_ofText] at hall
  have hsize := utf8ByteSize_repeated n
  rw [hend] at hstart hslice
  obtain rfl : 0 = start := Option.some.inj (hfirst.symm.trans hstart)
  rw [hsize] at hwhole
  have hempty : repeated n 'a' = "" := Option.some.inj (hwhole.symm.trans hslice)
  rw [hempty] at hsize
  exact hne hsize.symm

/-- The end of the first line of letters with a column that does not fit in 32 bits. Its column is
0, and not one more than the number of letters. -/
theorem not_standsInLine :
    let source := repeated (UInt32.size - 1) 'a'
    source.utf8ByteSize = UInt32.size - 1 ∧ Text.isBoundary source (UInt32.size - 1) = true ∧
      (ofText source).positionAt (UInt32.size - 1) = ⟨UInt32.size - 1, 1, 0⟩ ∧
      ¬(ofText source).StandsInLine (Text.lines source) (UInt32.size - 1) := by
  generalize hn : UInt32.size - 1 = n
  have hzero : UInt32.ofNat (n + 1) = 0 := by
    subst hn
    rfl
  have hne : n ≠ 0 := by
    rw [← hn]
    decide
  have hend := positionAt_repeated (Nat.le_refl n)
  rw [hzero] at hend
  exact ⟨utf8ByteSize_repeated n, isBoundary_repeated n, hend, not_standsInLine_repeated hne hend⟩

end SourceMap

end RobotScript
