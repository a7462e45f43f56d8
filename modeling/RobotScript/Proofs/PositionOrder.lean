import Mathlib.Data.Prod.Lex
import RobotScript.Proofs.Underlines

/-!
# Positions in order

The line and column of an offset follow from the bytes before it: the line feeds among them are
counted, and the characters after the last of these. A line feed is a byte of no other character, so
bytes and characters agree on both. Of two offsets where characters begin, the first one is in an
earlier line, or in the same line at an earlier column.

Results:

* `Bytes.count_ofChars`, `Bytes.rdropWhile_ofChars`: line feeds among the bytes of characters.
* `Text.Place.take_eq`: the bytes before an offset.
* `SourceMap.locates_positionAt`: line and column of an offset, in terms of the bytes before it.
* `SourceMap.key_lt_of_lt`: positions are in the order of their offsets.
* `SourceMap.positionAt_in_order`: both for all offsets, as long as lines and columns fit in 32
  bits.
* `SourceMap.positionAt_wraps`: the first text for which they do not.
-/

namespace RobotScript

/-! ## Line feeds among bytes -/

namespace Bytes

/-- The offset after the last line feed among bytes, or their start if there is none. -/
def afterLastFeed (s : Bytes) : Nat := (s.rdropWhile (· != ascii '\n')).length

theorem ne_feed_of_mem {c : Char} (hc : c ≠ '\n') :
    ∀ b ∈ String.utf8EncodeChar c, (b != ascii '\n') = true := by
  intro b hb
  rw [bne_iff_ne]
  exact ne_ascii_of_mem (d := '\n') (by decide) hc b hb

theorem count_ofChars (cs : List Char) : (ofChars cs).count (ascii '\n') = cs.count '\n' := by
  induction cs with
  | nil => rfl
  | cons c cs ih =>
    rw [ofChars_cons, List.count_append, ih, List.count_cons, Nat.add_comm]
    by_cases hc : c = '\n'
    · subst hc
      rfl
    · have hzero : (String.utf8EncodeChar c).count (ascii '\n') = 0 := by
        rw [List.count_eq_zero]
        intro hmem
        simpa using ne_feed_of_mem hc _ hmem
      rw [hzero, if_neg (by simpa using hc)]

theorem rdropWhile_ofChars (cs : List Char) :
    (ofChars cs).rdropWhile (· != ascii '\n') = ofChars (cs.rdropWhile (· != '\n')) := by
  induction cs using List.reverseRecOn with
  | nil => rfl
  | append_singleton cs c ih =>
    rw [ofChars_append]
    by_cases hc : c = '\n'
    · subst hc
      have hfeed : ofChars ['\n'] = [ascii '\n'] := rfl
      rw [hfeed, List.rdropWhile_concat_neg _ _ _ (by simp),
        List.rdropWhile_concat_neg _ _ _ (by simp), ofChars_append, hfeed]
    · have hbytes : ∀ b ∈ ofChars [c], (b != ascii '\n') = true := by
        simpa [ofChars_cons] using ne_feed_of_mem hc
      rw [Text.rdropWhile_append hbytes, ih, List.rdropWhile_concat_pos _ _ _ (by simpa using hc)]

end Bytes

/-! ## The bytes before an offset -/

open Bytes (ofChars ascii afterLastFeed)

namespace Text

variable {source : String} {offset k : Nat} {before after : List Char}

/-- The bytes before an offset are those of the characters before it, and some of the character that
it is in. -/
theorem Place.take_eq (h : Place source offset before k after) :
    (Bytes.ofText source).take (min offset source.utf8ByteSize) =
      ofChars before ++ (ofChars after).take k := by
  rw [h.min_eq, Bytes.ofText_eq_ofChars, h.toList_eq, Bytes.ofChars_append,
    List.take_length_add_append]

/-- None of the latter is a line feed. -/
theorem Place.ne_feed (h : Place source offset before k after) :
    ∀ b ∈ (ofChars after).take k, (b != ascii '\n') = true := by
  by_cases hk : k = 0
  · subst hk
    simp
  · obtain ⟨c, hc, hlt⟩ := h.inside.resolve_left hk
    obtain ⟨cs, rfl⟩ := List.head?_eq_some_iff.1 hc
    rw [Bytes.ofChars_cons, List.take_append_of_le_length (Nat.le_of_lt hlt)]
    intro b hb
    exact Bytes.ne_feed_of_mem (ne_newline_of_lt hk hlt) b (List.mem_of_mem_take hb)

theorem Place.count_take (h : Place source offset before k after) :
    ((Bytes.ofText source).take (min offset source.utf8ByteSize)).count (ascii '\n') =
      before.count '\n' := by
  have hzero : ((ofChars after).take k).count (ascii '\n') = 0 := by
    rw [List.count_eq_zero]
    intro hmem
    simpa using h.ne_feed _ hmem
  rw [h.take_eq, List.count_append, Bytes.count_ofChars, hzero, Nat.add_zero]

theorem Place.afterLastFeed_take (h : Place source offset before k after) :
    afterLastFeed ((Bytes.ofText source).take (min offset source.utf8ByteSize)) =
      (ofChars (before.rdropWhile (· != '\n'))).length := by
  rw [h.take_eq, afterLastFeed, rdropWhile_append h.ne_feed, Bytes.rdropWhile_ofChars]

end Text

/-! ## Positions -/

/-- A position is that of an offset, or of the end of the text for one past it: the line is told by
the line feeds before it, and the column by the characters since the last of them, or by the bytes
since then for an offset inside a character. -/
structure Position.Locates (source : String) (offset : Nat) (p : Position) : Prop where
  offset_eq : p.offset = min offset source.utf8ByteSize
  line_eq : p.line.toNat = 1 + ((Bytes.ofText source).take p.offset).count (ascii '\n')
  column_eq : Text.isBoundary source p.offset = true →
    ∃ text, Text.slice? source (afterLastFeed ((Bytes.ofText source).take p.offset)) p.offset =
      some text ∧ p.column.toNat = 1 + text.length
  column_eq_of_inside : Text.isBoundary source p.offset = false →
    p.column.toNat = 1 + (p.offset - afterLastFeed ((Bytes.ofText source).take p.offset))

/-- Line and column, to be compared in this order. -/
def Position.key (p : Position) : ℕ ×ₗ ℕ := toLex (p.line.toNat, p.column.toNat)

namespace SourceMap

open Text (lastLine columnOf Place)

variable {source : String} {before mid after : List Char}

/-- The position of any offset, in a text whose lines and columns fit in 32 bits. -/
theorem locates_positionAt (hsize : source.utf8ByteSize + 1 < UInt32.size) (offset : Nat) :
    ((ofText source).positionAt offset).Locates source offset := by
  obtain ⟨before, k, after, h⟩ := Text.exists_place source offset
  have hlines := congrArg (fun cs => (ofChars cs).length) (Text.rdropWhile_append_lastLine before)
  simp only [Text.length_ofChars_append] at hlines
  have hoffset : ((ofText source).positionAt offset).offset = (ofChars before).length + k := by
    rw [positionAt_of_place h]
  have hline := toNat_line_positionAt h hsize
  have hcolumn := toNat_column_positionAt h hsize
  have hcount := h.count_take
  have hstart := h.afterLastFeed_take
  have hboundary := h.isBoundary_iff
  rw [h.min_eq, ← hoffset] at hcount hstart hboundary
  refine ⟨hoffset.trans h.min_eq.symm, ?_, fun hb => ?_, fun hb => ?_⟩
  · rw [hcount, hline, Nat.add_comm]
  · obtain rfl := hboundary.1 hb
    have hcut : source.toList = before.rdropWhile (· != '\n') ++ lastLine before ++ after := by
      rw [Text.rdropWhile_append_lastLine, h.toList_eq]
    have hslice := Text.slice?_of_toList hcut
    rw [hlines] at hslice
    refine ⟨String.ofList (lastLine before), ?_, ?_⟩
    · rw [hstart, hoffset]
      exact hslice
    · rw [hcolumn, String.length_ofList, columnOf_zero, Nat.add_comm]
  · have hk : k ≠ 0 := by
      intro hk
      rw [hboundary.2 hk] at hb
      cases hb
    rw [hstart, hcolumn, hoffset, columnOf_of_ne_zero hk]
    omega

/-- The position of a cut between characters comes before that of a later one. -/
theorem key_lt_of_append (hsize : source.utf8ByteSize + 1 < UInt32.size)
    (h : source.toList = before ++ (mid ++ after)) (hne : mid ≠ []) :
    ((ofText source).positionAt (ofChars before).length).key <
      ((ofText source).positionAt (ofChars (before ++ mid)).length).key := by
  have hfirst : Place source (ofChars before).length before 0 (mid ++ after) := .of_append h
  have hlater : Place source (ofChars (before ++ mid)).length (before ++ mid) 0 after :=
    .of_append (by rw [h, List.append_assoc])
  rw [Position.key, Position.key, Prod.Lex.toLex_lt_toLex]
  dsimp only
  rw [toNat_line_positionAt hfirst hsize, toNat_line_positionAt hlater hsize,
    toNat_column_positionAt hfirst hsize, toNat_column_positionAt hlater hsize, columnOf_zero,
    columnOf_zero, List.count_append]
  by_cases hfeed : '\n' ∈ mid
  · -- the later one is in a later line
    have hpos := List.count_pos_iff.2 hfeed
    exact Or.inl (by omega)
  · have hpos := List.length_pos_iff.2 hne
    rw [List.count_eq_zero.2 hfeed, Text.lastLine_append hfeed, List.length_append]
    exact Or.inr ⟨rfl, by omega⟩

/-- Positions of offsets where characters begin are in the order of the offsets. -/
theorem key_lt_of_lt (hsize : source.utf8ByteSize + 1 < UInt32.size) {offset offset' : Nat}
    (h : Text.isBoundary source offset = true) (h' : Text.isBoundary source offset' = true)
    (hlt : offset < offset') :
    ((ofText source).positionAt offset).key < ((ofText source).positionAt offset').key := by
  obtain ⟨before, mid, after, hcut, rfl, rfl⟩ :=
    Text.exists_append_of_isBoundary_of_le h h' (Nat.le_of_lt hlt)
  refine key_lt_of_append hsize hcut ?_
  rintro rfl
  simp at hlt

/-- In a text of fewer than `2 ^ 32 - 1` bytes every offset has the position that the bytes before
it tell. Positions of offsets where characters begin are in the order of the offsets, line before
column, so such an offset is known by its position. -/
theorem positionAt_in_order (source : String) (hsize : source.utf8ByteSize + 1 < UInt32.size) :
    (∀ offset, ((ofText source).positionAt offset).Locates source offset) ∧
      StrictMonoOn (fun offset => ((ofText source).positionAt offset).key)
        {offset | Text.isBoundary source offset = true} ∧
      Set.InjOn (fun offset => ((ofText source).positionAt offset).key)
        {offset | Text.isBoundary source offset = true} := by
  have hmono : StrictMonoOn (fun offset => ((ofText source).positionAt offset).key)
      {offset | Text.isBoundary source offset = true} :=
    fun _ h _ h' hlt => key_lt_of_lt hsize h h' hlt
  exact ⟨locates_positionAt hsize, hmono, hmono.injOn⟩

/-- A character of two bytes before a line feed. The offset inside it has a later column than the
one after it, and the offset past the end has the position of the end. -/
theorem positionAt_in_order_inside :
    let position := (ofText "é\nb").positionAt
    [0, 1, 2, 3, 4, 9].map (fun offset => (position offset).render) =
      ["1:1", "1:2", "1:2", "2:1", "2:2", "2:2"] ∧
    (position 1).Locates "é\nb" 1 ∧ (position 9).Locates "é\nb" 9 ∧
      (position 2).key < (position 3).key := by
  intro position
  have hsize : "é\nb".utf8ByteSize + 1 < UInt32.size := by decide
  obtain ⟨hlocates, hmono, -⟩ := positionAt_in_order "é\nb" hsize
  refine ⟨by decide +kernel, hlocates 1, hlocates 9, hmono ?_ ?_ (by decide)⟩
  · exact (by decide +kernel : Text.isBoundary "é\nb" 2 = true)
  · exact (by decide +kernel : Text.isBoundary "é\nb" 3 = true)

/-- The places in a line of letters. -/
theorem positionAt_repeated {n k : Nat} (h : k ≤ n) :
    (ofText (repeated n 'a')).positionAt k = ⟨k, 1, UInt32.ofNat (k + 1)⟩ := by
  have hcut : (repeated n 'a').toList = List.replicate k 'a' ++ List.replicate (n - k) 'a' := by
    rw [repeated, String.toList_ofList, List.replicate_append_replicate, Nat.add_sub_cancel' h]
  have hletter : ∀ c ∈ List.replicate k 'a', c = 'a' := fun c hc => List.eq_of_mem_replicate hc
  have hplace := positionAt_of_ascii hcut (fun c hc => by rw [hletter c hc]; decide)
    (fun hmem => absurd (hletter _ hmem) (by decide))
  rwa [List.length_replicate] at hplace

theorem utf8ByteSize_repeated (n : Nat) : (repeated n 'a').utf8ByteSize = n := by
  rw [← Text.length_ofChars_toList, repeated, String.toList_ofList, Text.length_ofChars_of_ascii,
    List.length_replicate]
  intro c hc
  rw [List.eq_of_mem_replicate hc]
  decide

theorem isBoundary_repeated (n : Nat) : Text.isBoundary (repeated n 'a') n = true := by
  have hlength := Text.length_ofText (repeated n 'a')
  rw [utf8ByteSize_repeated] at hlength
  have hboundary := Text.isBoundary_of_append (List.append_nil (Bytes.ofText (repeated n 'a'))).symm
    .nil
  rwa [hlength] at hboundary

/-- The first line of letters with a column that does not fit in 32 bits. The end of the text has
column 0, which is not that of the letters before it, and its position comes before that of the
start. -/
theorem positionAt_wraps :
    let source := repeated (UInt32.size - 1) 'a'
    source.utf8ByteSize = UInt32.size - 1 ∧ Text.isBoundary source (UInt32.size - 1) = true ∧
      (ofText source).positionAt (UInt32.size - 1) = ⟨UInt32.size - 1, 1, 0⟩ ∧
      ¬((ofText source).positionAt (UInt32.size - 1)).Locates source (UInt32.size - 1) ∧
      ((ofText source).positionAt (UInt32.size - 1)).key < ((ofText source).positionAt 0).key := by
  generalize hn : UInt32.size - 1 = n
  have hzero : UInt32.ofNat (n + 1) = 0 := by
    subst hn
    rfl
  intro source
  have hboundary : Text.isBoundary source n = true := isBoundary_repeated n
  have hend : (ofText source).positionAt n = ⟨n, 1, 0⟩ := by
    rw [positionAt_repeated (Nat.le_refl n), hzero]
  have hstart : (ofText source).positionAt 0 = ⟨0, 1, 1⟩ := positionAt_repeated (Nat.zero_le n)
  refine ⟨utf8ByteSize_repeated n, hboundary, hend, fun hlocates => ?_, ?_⟩
  · rw [hend] at hlocates
    obtain ⟨text, -, hcolumn⟩ := hlocates.column_eq hboundary
    rw [Nat.add_comm] at hcolumn
    exact absurd hcolumn.symm (Nat.succ_ne_zero _)
  · rw [hend, hstart, Position.key, Position.key, Prod.Lex.toLex_lt_toLex]
    exact Or.inr ⟨rfl, Nat.one_pos⟩

end SourceMap

end RobotScript
