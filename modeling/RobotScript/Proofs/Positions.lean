import Mathlib.Data.List.DropRight
import RobotScript.Proofs.Encoding
import RobotScript.SourceMap

/-!
# Lines and columns of a text

A source map is made of bytes and offsets. Here it is read as characters: an offset is a cut of the
text into the characters before it and those after it, perhaps with some bytes of the first
character after the cut. The line of the offset is then told by the line feeds before the cut, and
its column by what stands between the last of them and the cut.

Results:

* `toList_lineStarts`: the starts of lines are the offsets after line feeds.
* `lastAtMost_eq`: what the search among them finds.
* `Text.exists_place`: every offset is a cut of the text.
* `SourceMap.positionAt_of_place`: line and column of an offset, in 32 bits.
* `SourceMap.toNat_line_positionAt`, `SourceMap.toNat_column_positionAt`: where these bits suffice.
* `SourceMap.line?_of_append`: the line around a cut.
-/

namespace RobotScript

open Bytes (ofChars)

/-! ## Starts of lines -/

namespace Text

/-- The offsets after the line feeds among characters that begin at an offset. -/
def startsAfter (offset : Nat) : List Char → List Nat
  | [] => []
  | c :: cs =>
    if c = '\n' then (offset + 1) :: startsAfter (offset + 1) cs
    else startsAfter (offset + (String.utf8EncodeChar c).length) cs

/-- The characters after the last line feed. -/
def lastLine (cs : List Char) : List Char := cs.rtakeWhile (· != '\n')

/-- The characters before the first line feed. -/
def firstLine (cs : List Char) : List Char := cs.takeWhile (· != '\n')

theorem firstLine_eq_self {cs : List Char} (h : '\n' ∉ cs) : firstLine cs = cs := by
  rw [firstLine, List.takeWhile_eq_self_iff]
  intro c hc
  rw [bne_iff_ne]
  rintro rfl
  exact h hc

theorem length_ofChars_cons (c : Char) (cs : List Char) :
    (ofChars (c :: cs)).length = (String.utf8EncodeChar c).length + (ofChars cs).length :=
  List.length_append

theorem length_ofChars_append (cs ds : List Char) :
    (ofChars (cs ++ ds)).length = (ofChars cs).length + (ofChars ds).length := by
  rw [Bytes.ofChars_append, List.length_append]

theorem length_le_length_ofChars (cs : List Char) : cs.length ≤ (ofChars cs).length := by
  induction cs with
  | nil => exact Nat.le_refl 0
  | cons c cs ih =>
    have hpos := List.length_pos_iff.2 (String.utf8EncodeChar_ne_nil (c := c))
    rw [length_ofChars_cons, List.length_cons]
    omega

/-- ASCII characters have a byte each. -/
theorem length_ofChars_of_ascii {cs : List Char} (h : ∀ c ∈ cs, c.val.toNat ≤ 0x7f) :
    (ofChars cs).length = cs.length := by
  induction cs with
  | nil => rfl
  | cons c cs ih =>
    obtain ⟨hc, hcs⟩ := List.forall_mem_cons.1 h
    rw [length_ofChars_cons, Bytes.utf8EncodeChar_of_le hc, ih hcs, Nat.add_comm]
    rfl

theorem startsAfter_append (offset : Nat) (cs ds : List Char) :
    startsAfter offset (cs ++ ds) =
      startsAfter offset cs ++ startsAfter (offset + (ofChars cs).length) ds := by
  induction cs generalizing offset with
  | nil => rfl
  | cons c cs ih =>
    rw [List.cons_append, startsAfter, startsAfter, ih, ih, length_ofChars_cons, ← Nat.add_assoc]
    split
    · rename_i hc
      subst hc
      rfl
    · rfl

theorem length_startsAfter (offset : Nat) (cs : List Char) :
    (startsAfter offset cs).length = cs.count '\n' := by
  induction cs generalizing offset with
  | nil => rfl
  | cons c cs ih =>
    rw [startsAfter, List.count_cons]
    by_cases hc : c = '\n'
    · simp [hc, ih]
    · simp [hc, ih]

/-- Lines start after the offset of the characters, and not after their end. -/
theorem mem_startsAfter {offset start : Nat} {cs : List Char} (h : start ∈ startsAfter offset cs) :
    offset < start ∧ start ≤ offset + (ofChars cs).length := by
  induction cs generalizing offset with
  | nil => cases h
  | cons c cs ih =>
    have hpos := List.length_pos_iff.2 (String.utf8EncodeChar_ne_nil (c := c))
    rw [startsAfter] at h
    rw [length_ofChars_cons]
    split at h
    · rcases List.mem_cons.1 h with rfl | h
      · omega
      · have := ih h
        omega
    · have := ih h
      omega

/-- No line starts before the end of the first character. -/
theorem le_of_mem_startsAfter_cons {offset start : Nat} {c : Char} {cs : List Char}
    (h : start ∈ startsAfter offset (c :: cs)) :
    offset + (String.utf8EncodeChar c).length ≤ start := by
  rw [startsAfter] at h
  split at h
  · rename_i hc
    subst hc
    rcases List.mem_cons.1 h with rfl | h
    · exact Nat.le_refl _
    · exact Nat.le_of_lt (mem_startsAfter h).1
  · exact Nat.le_of_lt (mem_startsAfter h).1

/-- Where the next line starts. -/
theorem head?_startsAfter (offset : Nat) (cs : List Char) :
    (startsAfter offset cs).head? =
      if '\n' ∈ cs then some (offset + (ofChars (firstLine cs)).length + 1) else none := by
  induction cs generalizing offset with
  | nil => rfl
  | cons c cs ih =>
    rw [startsAfter, firstLine, List.takeWhile_cons]
    by_cases hc : c = '\n'
    · subst hc
      simp
    · have hne : (c != '\n') = true := by simpa using hc
      simp only [List.mem_cons, hc, Ne.symm hc, hne, if_true, if_false, false_or, ih,
        length_ofChars_cons, firstLine, Nat.add_assoc]

/-- Where the line that characters end in starts. -/
theorem getElem?_startsAfter (cs : List Char) :
    (0 :: startsAfter 0 cs)[cs.count '\n']? =
      some (ofChars (cs.rdropWhile (· != '\n'))).length := by
  induction cs using List.reverseRecOn with
  | nil => rfl
  | append_singleton cs c ih =>
    rw [startsAfter_append, List.count_append]
    by_cases hc : c = '\n'
    · subst hc
      have hindex : cs.count '\n' + ['\n'].count '\n' =
          (0 :: startsAfter 0 cs).length := by
        rw [List.length_cons, length_startsAfter]
        rfl
      rw [List.rdropWhile_concat_neg _ _ _ (by simp), hindex, ← List.cons_append,
        List.getElem?_append_right (Nat.le_refl _), Nat.sub_self, length_ofChars_append,
        Nat.zero_add]
      rfl
    · have hcount : [c].count '\n' = 0 := List.count_eq_zero.2 (by simpa using Ne.symm hc)
      rw [List.rdropWhile_concat_pos _ _ _ (by simpa using hc), hcount, Nat.add_zero, ← ih,
        startsAfter, if_neg hc, startsAfter, List.append_nil]

theorem rdropWhile_append_lastLine (cs : List Char) :
    cs.rdropWhile (· != '\n') ++ lastLine cs = cs :=
  List.rdropWhile_append_rtakeWhile

end Text

theorem foldl_noteLine_of_forall_ne (s : Bytes) (h : ∀ b ∈ s, b ≠ Bytes.ascii '\n') (offset : Nat)
    (found : Array Nat) : s.foldl noteLine (offset, found) = (offset + s.length, found) := by
  induction s generalizing offset with
  | nil => rfl
  | cons b s ih =>
    obtain ⟨hb, hs⟩ := List.forall_mem_cons.1 h
    have hfeed : (b == 0x0A) = false := beq_eq_false_iff_ne.2 hb
    rw [List.foldl_cons, noteLine, hfeed, if_neg Bool.false_ne_true, ih hs, List.length_cons]
    simp only [Prod.mk.injEq, and_true]
    omega

theorem foldl_noteLine (cs : List Char) (offset : Nat) (found : Array Nat) :
    (ofChars cs).foldl noteLine (offset, found) =
      (offset + (ofChars cs).length, found ++ (Text.startsAfter offset cs).toArray) := by
  induction cs generalizing offset found with
  | nil => simp [Text.startsAfter]
  | cons c cs ih =>
    rw [Bytes.ofChars_cons, List.foldl_append, List.length_append, Text.startsAfter]
    by_cases hc : c = '\n'
    · subst hc
      have hfeed : (String.utf8EncodeChar '\n').foldl noteLine (offset, found) =
          (offset + 1, found.push (offset + 1)) := rfl
      rw [hfeed, ih, if_pos rfl]
      simp only [Prod.mk.injEq]
      refine ⟨Nat.add_assoc _ _ _, ?_⟩
      simp
    · have hne := Bytes.ne_ascii_of_mem (d := '\n') (by decide) hc
      rw [foldl_noteLine_of_forall_ne _ hne, ih, if_neg hc]
      simp only [Nat.add_assoc]

/-- The starts of lines are the start of the text and the offsets after its line feeds. -/
theorem toList_lineStarts (source : String) :
    (lineStarts source).toList = 0 :: Text.startsAfter 0 source.toList := by
  have hfold := foldl_noteLine source.toList 0 #[0]
  rw [← Bytes.ofText_eq_ofChars, Bytes.ofText, Array.foldl_toList] at hfold
  rw [lineStarts, hfold]
  simp

/-! ## The search for a line -/

/-- The search ends at the one index that parts the starts up to the offset from those after it. -/
theorem lastAtMost_eq {starts : Array Nat} {offset line : Nat}
    (h : ∀ j start, starts[j]? = some start → (start ≤ offset ↔ j ≤ line)) {low high : Nat}
    (hlow : low ≤ line) (hhigh : line < high) (hsize : high ≤ starts.size) :
    lastAtMost starts offset low high = line := by
  fun_induction lastAtMost starts offset low high with
  | case1 low high hle => omega
  | case2 low high hgap middle hle ih =>
    have hget : starts[middle]? = some starts[middle] := Array.getElem?_eq_getElem (by omega)
    rw [hget, Option.getD_some, h middle _ hget] at hle
    exact ih hle hhigh hsize
  | case3 low high hgap middle hle ih =>
    have hget : starts[middle]? = some starts[middle] := Array.getElem?_eq_getElem (by omega)
    rw [hget, Option.getD_some, h middle _ hget] at hle
    exact ih hlow (by omega) (by omega)

/-! ## Offsets as cuts -/

/-- An offset, or the end of the text for one past it, stands `k` bytes after the characters
`before`. It is between characters if `k` is 0, and inside the first one of `after` else. -/
structure Text.Place (source : String) (offset : Nat) (before : List Char) (k : Nat)
    (after : List Char) : Prop where
  toList_eq : source.toList = before ++ after
  min_eq : min offset source.utf8ByteSize = (ofChars before).length + k
  inside : k = 0 ∨ ∃ c ∈ after.head?, k < (String.utf8EncodeChar c).length

namespace Text

theorem length_ofChars_toList (source : String) :
    (ofChars source.toList).length = source.utf8ByteSize := by
  rw [← Bytes.ofText_eq_ofChars, length_ofText]

theorem exists_cut_of_le {cs : List Char} {n : Nat} (h : n ≤ (ofChars cs).length) :
    ∃ before k after, cs = before ++ after ∧ n = (ofChars before).length + k ∧
      (k = 0 ∨ ∃ c ∈ after.head?, k < (String.utf8EncodeChar c).length) := by
  induction cs generalizing n with
  | nil => exact ⟨[], 0, [], rfl, Nat.le_zero.1 h, Or.inl rfl⟩
  | cons c cs ih =>
    rw [length_ofChars_cons] at h
    by_cases hn : n < (String.utf8EncodeChar c).length
    · exact ⟨[], n, c :: cs, rfl, (Nat.zero_add n).symm, Or.inr ⟨c, rfl, hn⟩⟩
    · obtain ⟨before, k, after, rfl, hk, hinside⟩ :=
        ih (n := n - (String.utf8EncodeChar c).length) (by omega)
      refine ⟨c :: before, k, after, rfl, ?_, hinside⟩
      clear hinside
      rw [length_ofChars_cons]
      omega

/-- Every offset is a cut. -/
theorem exists_place (source : String) (offset : Nat) :
    ∃ before k after, Place source offset before k after := by
  have hle : min offset source.utf8ByteSize ≤ (ofChars source.toList).length := by
    rw [length_ofChars_toList]
    exact Nat.min_le_right _ _
  obtain ⟨before, k, after, hlist, hmin, hinside⟩ := exists_cut_of_le hle
  exact ⟨before, k, after, hlist, hmin, hinside⟩

/-- The offset of a cut between characters. -/
theorem Place.of_append {source : String} {before after : List Char}
    (h : source.toList = before ++ after) :
    Place source (ofChars before).length before 0 after := by
  refine ⟨h, Nat.min_eq_left ?_, Or.inl rfl⟩
  rw [← length_ofChars_toList, h, length_ofChars_append]
  omega

variable {source : String} {offset k : Nat} {before after : List Char}

/-- Lines that start at an offset or before it are those that line feeds before it end. -/
theorem Place.getElem?_le_iff (h : Place source offset before k after) :
    ∀ j start, (lineStarts source)[j]? = some start →
      (start ≤ min offset source.utf8ByteSize ↔ j ≤ before.count '\n') := by
  intro j start hj
  rw [← Array.getElem?_toList, toList_lineStarts, h.toList_eq, startsAfter_append,
    Nat.zero_add] at hj
  rw [h.min_eq]
  have hlength : (0 :: startsAfter 0 before).length = before.count '\n' + 1 := by
    rw [List.length_cons, length_startsAfter]
  by_cases hle : j ≤ before.count '\n'
  · refine iff_of_true ?_ hle
    rw [← List.cons_append, List.getElem?_append_left (by omega)] at hj
    rcases List.mem_cons.1 (List.mem_of_getElem? hj) with rfl | hmem
    · exact Nat.zero_le _
    · have := (mem_startsAfter hmem).2
      omega
  · refine iff_of_false ?_ hle
    rw [← List.cons_append, List.getElem?_append_right (by omega)] at hj
    have hmem := List.mem_of_getElem? hj
    rcases h.inside with rfl | ⟨c, hc, hk⟩
    · have := (mem_startsAfter hmem).1
      omega
    · obtain ⟨cs, rfl⟩ := List.head?_eq_some_iff.1 hc
      have := le_of_mem_startsAfter_cons hmem
      omega

/-- The search finds the line of an offset. -/
theorem Place.lastAtMost_eq (h : Place source offset before k after) :
    lastAtMost (lineStarts source) (min offset source.utf8ByteSize) 0 (lineStarts source).size =
      before.count '\n' := by
  refine RobotScript.lastAtMost_eq h.getElem?_le_iff (Nat.zero_le _) ?_ (Nat.le_refl _)
  rw [← Array.length_toList, toList_lineStarts, List.length_cons, length_startsAfter, h.toList_eq,
    List.count_append]
  omega

/-- Where the line of a cut starts. -/
theorem getElem?_lineStarts (h : source.toList = before ++ after) :
    (lineStarts source)[before.count '\n']? =
      some (ofChars (before.rdropWhile (· != '\n'))).length := by
  have hlength : (0 :: startsAfter 0 before).length = before.count '\n' + 1 := by
    rw [List.length_cons, length_startsAfter]
  rw [← Array.getElem?_toList, toList_lineStarts, h, startsAfter_append, ← List.cons_append,
    List.getElem?_append_left (by omega), getElem?_startsAfter]

/-- Where the line after that of a cut starts. -/
theorem getElem?_lineStarts_succ (h : source.toList = before ++ after) :
    (lineStarts source)[before.count '\n' + 1]? =
      if '\n' ∈ after then
        some ((ofChars before).length + (ofChars (firstLine after)).length + 1)
      else none := by
  have hlength : (0 :: startsAfter 0 before).length = before.count '\n' + 1 := by
    rw [List.length_cons, length_startsAfter]
  rw [← Array.getElem?_toList, toList_lineStarts, h, startsAfter_append, ← List.cons_append,
    List.getElem?_append_right (by omega), hlength, Nat.sub_self, ← List.head?_eq_getElem?,
    Nat.zero_add, head?_startsAfter]

/-- The part of a text between two cuts. -/
theorem slice?_of_toList {front mid back : List Char} (h : source.toList = front ++ mid ++ back) :
    slice? source (ofChars front).length ((ofChars front).length + (ofChars mid).length) =
      some (String.ofList mid) := by
  have hbytes : Bytes.ofText source = ofChars front ++ ofChars mid ++ ofChars back := by
    rw [Bytes.ofText_eq_ofChars, h, Bytes.ofChars_append, Bytes.ofChars_append]
  rw [← Bytes.toText_ofChars mid]
  refine slice?_eq_some hbytes ?_ (Bytes.startsCharacter_ofChars back)
  rw [← Bytes.ofChars_append]
  exact Bytes.startsCharacter_ofChars _

/-- An offset inside a character is no boundary. -/
theorem Place.isBoundary_eq_false (h : Place source offset before k after) (hk : k ≠ 0) :
    isBoundary source (min offset source.utf8ByteSize) = false := by
  rcases h.inside with hzero | ⟨c, hc, hlt⟩
  · exact absurd hzero hk
  obtain ⟨cs, rfl⟩ := List.head?_eq_some_iff.1 hc
  obtain ⟨b, tail, he, -, htail, -⟩ := Bytes.utf8EncodeChar_shape c
  obtain ⟨i, rfl⟩ := Nat.exists_eq_succ_of_ne_zero hk
  have hdrop : (Bytes.ofText source).drop ((ofChars before).length + (i + 1)) =
      tail.drop i ++ ofChars cs := by
    rw [he, List.length_cons] at hlt
    rw [Bytes.ofText_eq_ofChars, h.toList_eq, Bytes.ofChars_append, List.drop_length_add_append,
      Bytes.ofChars_cons, he, List.cons_append, List.drop_succ_cons,
      List.drop_append_of_le_length (by omega)]
  have hi : i < tail.length := by
    rw [he, List.length_cons] at hlt
    omega
  rw [h.min_eq, Bool.eq_false_iff, Ne, isBoundary_iff, hdrop, List.drop_eq_getElem_cons hi,
    List.cons_append, Bytes.startsCharacter_cons_iff, htail _ (List.getElem_mem hi)]
  simp

/-- An offset is a boundary just if it is between characters. -/
theorem Place.isBoundary_iff (h : Place source offset before k after) :
    isBoundary source (min offset source.utf8ByteSize) = true ↔ k = 0 := by
  constructor
  · intro hboundary
    by_contra hk
    rw [h.isBoundary_eq_false hk] at hboundary
    cases hboundary
  · rintro rfl
    rw [h.min_eq, Nat.add_zero]
    refine isBoundary_of_append ?_ (Bytes.isText_ofChars after)
    rw [Bytes.ofText_eq_ofChars, h.toList_eq, Bytes.ofChars_append]

/-- A boundary is a cut of the text between characters. -/
theorem exists_append_of_isBoundary (h : isBoundary source offset = true) :
    ∃ before after, source.toList = before ++ after ∧ offset = (ofChars before).length := by
  have hle := Nat.min_eq_left ((isBoundary_iff source offset).1 h).1
  obtain ⟨before, k, after, hplace⟩ := exists_place source offset
  obtain rfl := hplace.isBoundary_iff.1 (by rwa [hle])
  refine ⟨before, after, hplace.toList_eq, ?_⟩
  rw [← hle, hplace.min_eq, Nat.add_zero]

/-- The column of a cut, counted from 0: the characters since the last line feed, or the bytes since
then for an offset inside a character. -/
def columnOf (before : List Char) (k : Nat) : Nat :=
  if k = 0 then (lastLine before).length else (ofChars (lastLine before)).length + k

end Text

namespace SourceMap

open Text (firstLine lastLine columnOf Place)

variable {source : String} {offset k : Nat} {before after : List Char}

/-- The place of an offset, clamped to the end of the text. -/
theorem positionAt_of_place (h : Place source offset before k after) :
    (ofText source).positionAt offset =
      ⟨(ofChars before).length + k, UInt32.ofNat (before.count '\n' + 1),
        UInt32.ofNat (columnOf before k + 1)⟩ := by
  have hlines := congrArg (fun cs => (ofChars cs).length) (Text.rdropWhile_append_lastLine before)
  simp only [Text.length_ofChars_append] at hlines
  simp only [positionAt, ofText, h.lastAtMost_eq, Text.getElem?_lineStarts h.toList_eq,
    Option.getD_some]
  congr 3
  · exact h.min_eq
  · by_cases hk : k = 0
    · subst hk
      have hcut : source.toList = before.rdropWhile (· != '\n') ++ lastLine before ++ after := by
        rw [Text.rdropWhile_append_lastLine, h.toList_eq]
      have hslice := Text.slice?_of_toList hcut
      rw [h.min_eq, Nat.add_zero, ← hlines, hslice, columnOf, if_pos rfl]
      exact String.length_ofList
    · have hslice : Text.slice? source (ofChars (before.rdropWhile (· != '\n'))).length
          (min offset source.utf8ByteSize) = none := by
        simp [Text.slice?, h.isBoundary_eq_false hk]
      rw [hslice, h.min_eq, columnOf, if_neg hk]
      simp only
      omega

/-- Lines and columns, counted from 0, are at most the number of bytes. -/
theorem count_le_and_columnOf_le (h : Place source offset before k after) :
    before.count '\n' ≤ source.utf8ByteSize ∧ columnOf before k ≤ source.utf8ByteSize := by
  have hmin := h.min_eq
  have hlines := congrArg (fun cs => (ofChars cs).length) (Text.rdropWhile_append_lastLine before)
  have hline := Text.length_le_length_ofChars before
  have hcolumn := Text.length_le_length_ofChars (lastLine before)
  have hcount := List.count_le_length (a := '\n') (l := before)
  simp only [Text.length_ofChars_append] at hlines
  refine ⟨by omega, ?_⟩
  rw [columnOf]
  split
  · omega
  · omega

/-- So they fit in 32 bits for all texts of fewer than `2 ^ 32 - 1` bytes. -/
theorem toNat_line_positionAt (h : Place source offset before k after)
    (hsize : source.utf8ByteSize + 1 < UInt32.size) :
    ((ofText source).positionAt offset).line.toNat = before.count '\n' + 1 := by
  have hcount := (count_le_and_columnOf_le h).1
  rw [positionAt_of_place h]
  exact UInt32.toNat_ofNat_of_lt' (Nat.lt_of_le_of_lt (Nat.succ_le_succ hcount) hsize)

theorem toNat_column_positionAt (h : Place source offset before k after)
    (hsize : source.utf8ByteSize + 1 < UInt32.size) :
    ((ofText source).positionAt offset).column.toNat = columnOf before k + 1 := by
  have hcolumn := (count_le_and_columnOf_le h).2
  rw [positionAt_of_place h]
  exact UInt32.toNat_ofNat_of_lt' (Nat.lt_of_le_of_lt (Nat.succ_le_succ hcolumn) hsize)

/-- The place after ASCII characters in the first line of a text. -/
theorem positionAt_of_ascii (h : source.toList = before ++ after)
    (hascii : ∀ c ∈ before, c.val.toNat ≤ 0x7f) (hline : '\n' ∉ before) :
    (ofText source).positionAt before.length =
      ⟨before.length, 1, UInt32.ofNat (before.length + 1)⟩ := by
  have hcolumn : columnOf before 0 = before.length := by
    rw [columnOf, if_pos rfl, lastLine, List.rtakeWhile_eq_self_iff.2]
    intro c hc
    rw [bne_iff_ne]
    rintro rfl
    exact hline hc
  have hplace := positionAt_of_place (.of_append h)
  rwa [Text.length_ofChars_of_ascii hascii, List.count_eq_zero.2 hline, hcolumn] at hplace

/-- The index of the line with a number. -/
theorem toNat_sub_one {number : UInt32} {i : Nat} (h : number.toNat = i + 1) :
    (number - 1).toNat = i := by
  have hle : (1 : UInt32) ≤ number := UInt32.le_iff_toNat_le.2 (by rw [h]; exact Nat.le_add_left 1 i)
  rw [UInt32.toNat_sub_of_le _ _ hle, h]
  rfl

/-- The line around a cut. -/
theorem line?_of_append {number : UInt32} (h : source.toList = before ++ after)
    (hnumber : number.toNat = before.count '\n' + 1) :
    (ofText source).line? number =
      some (String.ofList ((lastLine before ++ firstLine after).rdropWhile (· == '\r'))) := by
  have hlines := congrArg (fun cs => (ofChars cs).length) (Text.rdropWhile_append_lastLine before)
  simp only [Text.length_ofChars_append] at hlines
  have hcut : source.toList = before.rdropWhile (· != '\n') ++
      (lastLine before ++ firstLine after) ++ after.dropWhile (· != '\n') := by
    rw [← List.append_assoc, Text.rdropWhile_append_lastLine, List.append_assoc, firstLine,
      List.takeWhile_append_dropWhile, h]
  have hslice := Text.slice?_of_toList hcut
  rw [Text.length_ofChars_append, ← Nat.add_assoc, hlines] at hslice
  have htrim : trimReturns (String.ofList (lastLine before ++ firstLine after)) =
      String.ofList ((lastLine before ++ firstLine after).rdropWhile (· == '\r')) := by
    rw [trimReturns, String.toList_ofList]
    rfl
  have hindex := toNat_sub_one hnumber
  have hne : number ≠ 0 := by
    rintro rfl
    exact absurd hnumber.symm (Nat.succ_ne_zero _)
  rw [← htrim]
  simp only [line?, ofText, hne, if_false, hindex, Text.getElem?_lineStarts h,
    Text.getElem?_lineStarts_succ h]
  by_cases hfeed : '\n' ∈ after
  · simp only [hfeed, if_true, Nat.add_sub_cancel, hslice, Option.map_some]
  · have hfirst := Text.firstLine_eq_self hfeed
    rw [hfirst, ← Text.length_ofChars_append, ← h, Text.length_ofChars_toList] at hslice
    simp only [hfeed, if_false, hfirst, hslice, Option.map_some]

end SourceMap

end RobotScript
