import Mathlib.Data.List.Infix
import RobotScript.Proofs.Gaps

/-!
# Items of gaps

A gap is a sequence of items: bytes of white space, line comments and block comments. Which bytes
are an item is said here without the scanner, by where the marks of comments stand in them. The
items at a place are then determined, so there is a longest sequence of them, and this is the gap.

Results:

* `Gap.next?_of_stands`, `Gap.items_of_next?`: comments and runs of white space are what the scanner
  takes as items.
* `Gap.Items.isPrefix`: items up to a place where none begins are the longest sequence.
* `Gap.maximal_scan`: the items of a gap.
* `Gap.openComment?_scan`: a comment without its end is the last item.
-/

namespace RobotScript

namespace Gap

/-! ## The end of a block comment -/

/-- The mark at the end of a block comment. -/
def blockEnd : Bytes := [star, slash]

variable {s pre rest : Bytes}

/-- Whether two given bytes are at the front. -/
theorem pair_isPrefix_iff {a b c : UInt8} :
    [b, c] <+: a :: s ↔ a = b ∧ s.head? = some c := by
  cases s with
  | nil => simp
  | cons d s =>
    rw [List.cons_prefix_cons, List.cons_prefix_cons, List.head?_cons, Option.some.injEq,
      eq_comm (a := b), eq_comm (a := c)]
    simp only [List.nil_prefix, and_true]

/-- A byte where the mark does not stand is taken. -/
theorem blockLength_cons {a : UInt8} (h : ¬blockEnd <+: a :: s) (taken : Nat) :
    blockLength taken (a :: s) = blockLength (taken + 1) s := by
  cases s with
  | nil => rfl
  | cons b s =>
    rw [blockLength, if_neg]
    intro hmark
    simp only [Bool.and_eq_true, beq_iff_eq] at hmark
    exact h (pair_isPrefix_iff.2 ⟨hmark.1, congrArg some hmark.2⟩)

/-- A block comment goes up to the first mark. -/
theorem blockLength_of_first (h : ¬blockEnd <:+: pre ++ [star]) (rest : Bytes) (taken : Nat) :
    blockLength taken (pre ++ blockEnd ++ rest) = (taken + (pre ++ blockEnd).length, true) := by
  induction pre generalizing taken with
  | nil => rfl
  | cons a pre ih =>
    rw [List.cons_append, List.infix_cons_iff, not_or] at h
    have hmark : ¬blockEnd <+: a :: (pre ++ blockEnd ++ rest) := by
      intro hp
      -- the two bytes of the mark would be among those up to the star
      apply h.1
      have hfront : a :: (pre ++ [star]) <+: a :: (pre ++ blockEnd ++ rest) :=
        ⟨slash :: rest, by simp [blockEnd]⟩
      exact List.prefix_of_prefix_length_le hp hfront (by simp [blockEnd])
    rw [List.cons_append, List.cons_append, blockLength_cons hmark, ih h.2, List.length_cons]
    congr 1
    omega

/-- A block comment without a mark goes up to the end. -/
theorem blockLength_of_not_isInfix (h : ¬blockEnd <:+: s) (taken : Nat) :
    blockLength taken s = (taken + s.length, false) := by
  induction s generalizing taken with
  | nil => rfl
  | cons a s ih =>
    rw [List.infix_cons_iff, not_or] at h
    rw [blockLength_cons h.1, ih h.2, List.length_cons]
    congr 1
    omega

/-- Bytes with a mark have a first one. -/
theorem exists_first (s : Bytes) :
    ¬blockEnd <:+: s ∨ ∃ pre rest, s = pre ++ blockEnd ++ rest ∧ ¬blockEnd <:+: pre ++ [star] := by
  induction s with
  | nil => exact Or.inl (by simp [blockEnd])
  | cons a s ih =>
    by_cases hmark : blockEnd <+: a :: s
    · obtain ⟨rest, hrest⟩ := hmark
      exact Or.inr ⟨[], rest, hrest.symm, fun h => absurd h.length_le (by decide)⟩
    · rcases ih with hnone | ⟨pre, rest, rfl, hfirst⟩
      · exact Or.inl fun h => (List.infix_cons_iff.1 h).elim hmark hnone
      · refine Or.inr ⟨a :: pre, rest, rfl, fun h => ?_⟩
        rcases List.infix_cons_iff.1 h with hp | hi
        · apply hmark
          refine hp.trans ⟨slash :: rest, ?_⟩
          simp [blockEnd]
        · exact hfirst hi

/-! ## Items -/

/-- The bytes of an item stand before `rest`: a byte of white space, a comment from two slashes up
to the end of the line, a comment from a slash and a star up to the first star and slash, or one
without these, up to the end of the source. The star of the opening may be that of the end. -/
inductive Stands : GapItem → Bytes → Prop
  | blank {b : UInt8} {rest : Bytes} : Word.isBlank b = true → Stands (.blank [b]) rest
  | line {text rest : Bytes} : [slash, slash] <+: text → Bytes.ascii '\n' ∉ text →
      (∀ b ∈ rest.head?, b = Bytes.ascii '\n') → Stands (.line text) rest
  | closed {pre rest : Bytes} : [slash, star] <+: pre ++ blockEnd →
      ¬blockEnd <:+: pre ++ [star] → Stands (.block (pre ++ blockEnd) true) rest
  | opened {text : Bytes} : [slash, star] <+: text → ¬blockEnd <:+: text →
      Stands (.block text false) []

/-- The bytes `s` begin with items, and `rest` follows them. -/
inductive Items : Bytes → List GapItem → Bytes → Prop
  | nil {s : Bytes} : Items s [] s
  | cons {s rest stop : Bytes} {item : GapItem} {items : List GapItem} : item.bytes ++ rest = s →
      Stands item rest → Items rest items stop → Items s (item :: items) stop

/-- The items at the front of the bytes `s` are the longest sequence of items there, and no item
begins with the bytes that follow them. -/
structure Maximal (s : Bytes) (items : List GapItem) (rest : Bytes) : Prop where
  stand : Items s items rest
  longest : ∀ items' rest', Items s items' rest' → items' <+: items
  noBlank : ∀ b ∈ rest.head?, Word.isBlank b = false
  noLine : ¬[slash, slash] <+: rest
  noBlock : ¬[slash, star] <+: rest

variable {item : GapItem} {items : List GapItem}

theorem inLine_iff {b : UInt8} : inLine b = true ↔ b ≠ Bytes.ascii '\n' := by
  simp [inLine]

/-- Where an item stands, an item begins. -/
theorem begins_of_stands (h : Stands item rest) : begins (item.bytes ++ rest) = true := by
  have hopen : ∀ {text : Bytes} {b : UInt8}, b = slash ∨ b = star → [slash, b] <+: text →
      begins (text ++ rest) = true := by
    rintro text b hb ⟨tail, rfl⟩
    rcases hb with rfl | rfl <;> simp [begins]
  cases h with
  | blank hb => simp [GapItem.bytes, begins, hb]
  | line htext => exact hopen (Or.inl rfl) htext
  | closed htext => exact hopen (Or.inr rfl) htext
  | opened htext => exact hopen (Or.inr rfl) htext

/-- The scanner takes a comment where it stands. -/
theorem next?_of_stands (h : Stands item rest) (hc : item.isComment = true) :
    next? (item.bytes ++ rest) = some (item, rest) := by
  cases h with
  | blank => cases hc
  | @line text rest htext hline hrest =>
    have hrun : ∀ b ∈ text, inLine b = true := by
      intro b hb
      rw [inLine_iff]
      rintro rfl
      exact hline hb
    have hstop : rest.takeWhile inLine = [] ∧ rest.dropWhile inLine = rest := by
      cases rest with
      | nil => exact ⟨rfl, rfl⟩
      | cons b rest =>
        rw [hrest b rfl]
        exact ⟨rfl, rfl⟩
    obtain ⟨tail, rfl⟩ := htext
    show next? (slash :: slash :: (tail ++ rest)) = _
    rw [next?_line]
    show some (GapItem.line (([slash, slash] ++ tail ++ rest).takeWhile inLine),
      ([slash, slash] ++ tail ++ rest).dropWhile inLine) = _
    rw [List.takeWhile_append_of_pos hrun, List.dropWhile_append_of_pos hrun, hstop.1, hstop.2,
      List.append_nil]
  | @closed pre rest htext hfirst =>
    have hlen := blockLength_of_first hfirst rest 0
    obtain ⟨tail, htail⟩ := htext
    rw [← htail, Nat.zero_add] at hlen
    rw [GapItem.bytes, ← htail]
    show next? (slash :: star :: (tail ++ rest)) = _
    refine (next?_block hlen).trans ?_
    show some (GapItem.block (([slash, star] ++ tail ++ rest).take _) true,
      ([slash, star] ++ tail ++ rest).drop _) = _
    rw [List.take_left, List.drop_left]
  | opened htext hnone =>
    have hlen := blockLength_of_not_isInfix hnone 0
    obtain ⟨tail, rfl⟩ := htext
    rw [Nat.zero_add] at hlen
    rw [GapItem.bytes, List.append_nil]
    refine (next?_block hlen).trans ?_
    show some (GapItem.block (([slash, star] ++ tail).take _) false,
      ([slash, star] ++ tail).drop _) = _
    rw [List.take_length, List.drop_length]

/-- A slash, a star and a slash are a whole comment. -/
example : next? (Bytes.ofText "/*/ */") =
    some (.block (Bytes.ofText "/*/") true, Bytes.ofText " */") := by decide +kernel

theorem Stands.exists_blank (h : Stands item rest) (hc : item.isComment = false) :
    ∃ b, Word.isBlank b = true ∧ item = .blank [b] := by
  cases h with
  | blank hb => exact ⟨_, hb, rfl⟩
  | _ => cases hc

/-- No comment begins with white space. -/
theorem Stands.ne_blank (h : Stands item rest) (hc : item.isComment = true) {b : UInt8}
    (hb : Word.isBlank b = true) (s : Bytes) : item.bytes ++ rest ≠ b :: s := by
  intro he
  have hnext := next?_of_stands h hc
  rw [he, next?_blank hb] at hnext
  obtain ⟨rfl, -⟩ := Prod.mk.inj (Option.some.inj hnext)
  cases hc

/-- What stands at the front of bytes is determined by them. -/
theorem Stands.unique {item' : GapItem} {rest' : Bytes} (h : Stands item rest)
    (h' : Stands item' rest') (he : item.bytes ++ rest = item'.bytes ++ rest') :
    item = item' ∧ rest = rest' := by
  cases hc : item.isComment with
  | true =>
    cases hc' : item'.isComment with
    | true =>
      have hnext := next?_of_stands h hc
      rw [he, next?_of_stands h' hc'] at hnext
      obtain ⟨rfl, rfl⟩ := Prod.mk.inj (Option.some.inj hnext)
      exact ⟨rfl, rfl⟩
    | false =>
      obtain ⟨b, hb, rfl⟩ := h'.exists_blank hc'
      exact absurd he (h.ne_blank hc hb rest')
  | false =>
    obtain ⟨b, hb, rfl⟩ := h.exists_blank hc
    cases hc' : item'.isComment with
    | true => exact absurd he.symm (h'.ne_blank hc' hb rest)
    | false =>
      obtain ⟨b', -, rfl⟩ := h'.exists_blank hc'
      obtain ⟨rfl, rfl⟩ := List.cons.inj he
      exact ⟨rfl, rfl⟩

/-! ## The parts of an item -/

/-- The items that an item of the scanner stands for: a run of white space is one byte after the
other. -/
def parts : GapItem → List GapItem
  | .blank run => run.map fun b => .blank [b]
  | .line text => [.line text]
  | .block text closed => [.block text closed]

namespace Items

variable {stop : Bytes} {items' : List GapItem}

theorem append (h : Items s items rest) (h' : Items rest items' stop) :
    Items s (items ++ items') stop := by
  induction h with
  | nil => exact h'
  | cons happ hstands _ ih => exact .cons happ hstands (ih h')

theorem singleton (h : Stands item rest) : Items (item.bytes ++ rest) [item] rest :=
  .cons rfl h .nil

/-- Nothing stands at the end. -/
theorem eq_nil (h : Items [] items stop) : items = [] := by
  cases h with
  | nil => rfl
  | cons happ hstands _ =>
    have hbegins := begins_of_stands hstands
    rw [happ] at hbegins
    cases hbegins

/-- Items up to a place where none begins are the longest sequence. -/
theorem isPrefix (h : Items s items stop) (hstop : begins stop = false) {stop' : Bytes}
    (h' : Items s items' stop') : items' <+: items := by
  induction h generalizing items' with
  | nil =>
    cases h' with
    | nil => exact List.nil_prefix
    | cons happ hstands _ =>
      have hbegins := begins_of_stands hstands
      rw [happ, hstop] at hbegins
      cases hbegins
  | cons happ hstands _ ih =>
    cases h' with
    | nil => exact List.nil_prefix
    | cons happ' hstands' hrest =>
      obtain ⟨rfl, rfl⟩ := hstands.unique hstands' (happ.trans happ'.symm)
      exact List.cons_prefix_cons.2 ⟨rfl, ih hstop hrest⟩

end Items

theorem items_blanks {run : Bytes} (h : ∀ b ∈ run, Word.isBlank b = true) (rest : Bytes) :
    Items (run ++ rest) (parts (.blank run)) rest := by
  induction run with
  | nil => exact .nil
  | cons b run ih =>
    obtain ⟨hb, hrun⟩ := List.forall_mem_cons.1 h
    exact .cons rfl (.blank hb) (ih hrun)

theorem stands_line {s : Bytes} (h : [slash, slash] <+: s) :
    Stands (.line (s.takeWhile inLine)) (s.dropWhile inLine) := by
  obtain ⟨s', rfl⟩ := h
  refine .line ⟨s'.takeWhile inLine, rfl⟩ ?_ ?_
  · intro hmem
    exact inLine_iff.1 (List.all_eq_true.1 List.all_takeWhile _ hmem) rfl
  · intro b hb
    have hstop := List.head?_dropWhile_not inLine ([slash, slash] ++ s')
    rw [Option.mem_def.1 hb] at hstop
    simpa [inLine] using hstop

theorem stands_block {s : Bytes} (h : [slash, star] <+: s) :
    Stands (.block (s.take (blockLength 0 s).1) (blockLength 0 s).2)
      (s.drop (blockLength 0 s).1) := by
  rcases exists_first s with hnone | ⟨pre, rest, rfl, hfirst⟩
  · rw [blockLength_of_not_isInfix hnone, Nat.zero_add, List.take_length, List.drop_length]
    exact .opened h hnone
  · rw [blockLength_of_first hfirst, Nat.zero_add, List.take_left, List.drop_left]
    refine .closed ?_ hfirst
    exact List.prefix_of_prefix_length_le h (List.prefix_append _ rest) (by simp [blockEnd])

/-- What the scanner takes as an item are items that stand there. -/
theorem items_of_next? (h : next? s = some (item, rest)) : Items s (parts item) rest := by
  rw [← next?_append h]
  rcases next?_cases h with ⟨a, s, rfl, ha, rfl, rfl⟩ | ⟨s', rfl, rfl, rfl⟩ |
    ⟨s', n, closed, rfl, hn, rfl, rfl⟩
  · refine items_blanks (List.forall_mem_cons.2 ⟨ha, ?_⟩) _
    exact List.all_eq_true.1 List.all_takeWhile
  · exact .singleton (stands_line ⟨s', rfl⟩)
  · have hblock := stands_block (s := slash :: star :: s') ⟨s', rfl⟩
    rw [hn] at hblock
    exact .singleton hblock

/-- What holds where no item begins, and of bytes that begin with an item if it holds of those after
it, holds of all bytes. -/
theorem next?_induction {P : Bytes → Prop} (stop : ∀ s, next? s = none → P s)
    (step : ∀ s item rest, next? s = some (item, rest) → P rest → P s) (s : Bytes) : P s := by
  induction hn : s.length using Nat.strongRecOn generalizing s with
  | ind n ih =>
    rcases h : next? s with _ | ⟨item, rest⟩
    · exact stop s h
    · have hlt := length_lt_of_next? h
      exact step s item rest h (ih rest.length (hn ▸ hlt) rest rfl)

/-- The items of a gap stand at its place, one after the other. -/
theorem items_scan (s : Bytes) : Items s ((scan s).1.flatMap parts) (scan s).2 := by
  induction s using next?_induction with
  | stop s h =>
    rw [scan_of_next?_eq_none h]
    exact .nil
  | step s item rest h ih =>
    rw [scan_of_next?_eq_some h]
    exact (items_of_next? h).append ih

theorem begins_eq_false_iff : begins s = false ↔
    (∀ b ∈ s.head?, Word.isBlank b = false) ∧ ¬[slash, slash] <+: s ∧ ¬[slash, star] <+: s := by
  cases s with
  | nil => simp [begins]
  | cons a s =>
    rw [pair_isPrefix_iff, pair_isPrefix_iff]
    simp [begins, imp_and]

/-- A gap is the longest sequence of items at its place. -/
theorem maximal_scan (s : Bytes) : Maximal s ((scan s).1.flatMap parts) (scan s).2 := by
  have hitems := items_scan s
  have hstop := next?_eq_none_iff.1 (next?_scan s)
  obtain ⟨hblank, hline, hblock⟩ := begins_eq_false_iff.1 hstop
  exact ⟨hitems, fun _ _ h => hitems.isPrefix hstop h, hblank, hline, hblock⟩

/-! ## Parts of several items -/

theorem bytes_cons (item : GapItem) (items : List GapItem) :
    bytes (item :: items) = item.bytes ++ bytes items := List.flatMap_cons

theorem bytes_append (items items' : List GapItem) :
    bytes (items ++ items') = bytes items ++ bytes items' := List.flatMap_append

theorem comments_append (items items' : List GapItem) :
    comments (items ++ items') = comments items + comments items' := List.countP_append

theorem bytes_parts (item : GapItem) : bytes (parts item) = item.bytes := by
  cases item with
  | blank run =>
    induction run with
    | nil => rfl
    | cons b run ih => exact congrArg (b :: ·) ih
  | _ => exact List.append_nil _

theorem bytes_flatMap_parts (gap : List GapItem) : bytes (gap.flatMap parts) = bytes gap := by
  induction gap with
  | nil => rfl
  | cons item gap ih => rw [List.flatMap_cons, bytes_append, bytes_parts, ih, bytes_cons]

theorem comments_parts (item : GapItem) : comments (parts item) = comments [item] := by
  cases item with
  | blank run =>
    apply List.countP_eq_zero.2
    intro item hitem
    obtain ⟨b, -, rfl⟩ := List.mem_map.1 hitem
    exact Bool.false_ne_true
  | _ => rfl

theorem comments_flatMap_parts (gap : List GapItem) :
    comments (gap.flatMap parts) = comments gap := by
  induction gap with
  | nil => rfl
  | cons item gap ih =>
    rw [List.flatMap_cons, comments_append, comments_parts, ih, ← comments_append]
    rfl

/-! ## A comment without its end -/

/-- The last item, if it is a block comment without its end. -/
def openLast? (items : List GapItem) : Option GapItem := items.getLast?.filter GapItem.isOpen

theorem openLast?_eq_none (h : ∀ item ∈ items, item.isOpen = false) : openLast? items = none := by
  rw [openLast?, Option.filter_eq_none_iff]
  intro item hitem
  rw [h item (List.mem_of_getLast? hitem)]
  exact Bool.false_ne_true

theorem openLast?_append {items' : List GapItem} (h : openLast? items = none) :
    openLast? (items ++ items') = openLast? items' := by
  unfold openLast? at h ⊢
  rw [List.getLast?_append]
  cases items'.getLast? with
  | none => exact h
  | some item => rfl

/-- The bytes of the last item are at the end. -/
theorem isSuffix_of_openLast? (h : openLast? items = some item) : item.bytes <:+ bytes items := by
  obtain ⟨hlast, -⟩ := Option.filter_eq_some_iff.1 h
  obtain ⟨front, rfl⟩ := List.getLast?_eq_some_iff.1 hlast
  rw [bytes_append, bytes_cons]
  exact ⟨bytes front, by rw [show bytes [] = [] from rfl, List.append_nil]⟩

/-- Nothing follows a comment without its end. -/
theorem Items.eq_nil_of_openLast? (h : Items s items rest) (ho : openLast? items = some item) :
    rest = [] := by
  induction h with
  | nil => cases ho
  | @cons s rest stop first items happ hstands htail ih =>
    cases hfirst : openLast? [first] with
    | none =>
      rw [← List.singleton_append, openLast?_append hfirst] at ho
      exact ih ho
    | some =>
      cases hstands with
      | opened =>
        obtain rfl := htail.eq_nil
        cases htail
        rfl
      | _ => cases hfirst

theorem parts_of_isOpen (h : item.isOpen = true) : parts item = [item] := by
  cases item with
  | blank => cases h
  | _ => rfl

theorem openLast?_parts (h : item.isOpen = false) : openLast? (parts item) = none := by
  apply openLast?_eq_none
  intro part hpart
  cases item with
  | blank run =>
    obtain ⟨b, -, rfl⟩ := List.mem_map.1 hpart
    rfl
  | _ =>
    obtain rfl := List.mem_singleton.1 hpart
    exact h

theorem openComment?_cons (item : GapItem) (gap : List GapItem) :
    openComment? (item :: gap) =
      if item.isOpen then some 0 else (openComment? gap).map (item.bytes.length + ·) := by
  unfold openComment?
  rw [List.findIdx?_cons]
  cases item.isOpen with
  | true => rfl
  | false =>
    cases gap.findIdx? GapItem.isOpen with
    | none => rfl
    | some i => simp [bytes_cons]

/-- The place that the scanner remembers is that of the last item. -/
theorem openComment?_scan (s : Bytes) :
    openComment? (scan s).1 = (openLast? ((scan s).1.flatMap parts)).map fun item =>
      (bytes (scan s).1).length - item.bytes.length := by
  induction s using next?_induction with
  | stop s h =>
    rw [scan_of_next?_eq_none h]
    rfl
  | step s item rest h ih =>
    rw [scan_of_next?_eq_some h, openComment?_cons, List.flatMap_cons, bytes_cons]
    cases ho : item.isOpen with
    | true =>
      have hitems := items_of_next? h
      have hlast : openLast? (parts item) = some item := by
        rw [parts_of_isOpen ho]
        exact Option.filter_eq_some_iff.2 ⟨rfl, ho⟩
      obtain rfl := hitems.eq_nil_of_openLast? hlast
      rw [scan_of_next?_eq_none rfl, List.flatMap_nil, List.append_nil, hlast]
      simp [bytes]
    | false =>
      rw [openLast?_append (openLast?_parts ho), ih, if_neg Bool.false_ne_true, Option.map_map]
      refine Option.map_congr fun last hlast => ?_
      have hle := (isSuffix_of_openLast? hlast).length_le
      rw [bytes_flatMap_parts] at hle
      rw [Function.comp_apply, List.length_append]
      omega

end Gap

end RobotScript
