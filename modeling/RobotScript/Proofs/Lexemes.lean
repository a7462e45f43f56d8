import RobotScript.Proofs.Escapes
import RobotScript.Proofs.Gaps
import RobotScript.Stream

/-!
# A source as a list of lexemes

A source is the gap at its head and then words, each with the gap after it. This module has that
list apart from kinds, ids and offsets, and says what stream comes of it. A law about two runs is
proved on the lists of the two sources.

Results:

* `Cut.exists_cut`: every source is cut in one way or another.
* `Cut.scan?_eq`: the stream of a source that is cut in a given way. So there is just one way.
* `Stream.exists_cut`, `Vocabulary.get?_stream_cases`: a stream is that of a cut, and its tokens are
  the head, those of lexemes, and the terminator.
* `Lexed.isText`: words and gaps of a text are texts.
* `Cut.exists_takenFrom`: where the words of a stream are taken from its source.
-/

namespace RobotScript

open Bytes (IsText)

/-! ## Lexemes from the start of a word on -/

namespace Lexeme

/-- The bytes of a word and the gap after it. -/
def bytes (l : Lexeme) : Bytes := l.word ++ l.separator

@[simp]
theorem length_bytes (l : Lexeme) : l.bytes.length = l.length := List.length_append

@[simp]
theorem drop_bytes (l : Lexeme) (rest : Bytes) : (l.bytes ++ rest).drop l.length = rest := by
  rw [← length_bytes, List.drop_left]

/-- A word, unless it is that of the head, is as long as words are there. -/
theorem length_of_take {known : Bytes → Bool} {s rest : Bytes} {l : Lexeme}
    (h : take known false s = (l, rest)) : Word.length known s = l.word.length := by
  cases h
  simp only [Bool.false_eq_true, if_false]
  rw [List.length_take, Nat.min_eq_left (Word.length_le known s)]

/-- The gap after a word is all of the gap there. -/
theorem scan_of_take {known : Bytes → Bool} {first : Bool} {s rest : Bytes} {l : Lexeme}
    (h : take known first s = (l, rest)) : Gap.scan (l.separator ++ rest) = (l.gap, rest) := by
  cases h
  exact congrArg Gap.scan (Gap.scan_append _)

/-- No gap begins after a word and its gap. -/
theorem begins_of_take {known : Bytes → Bool} {first : Bool} {s rest : Bytes} {l : Lexeme}
    (h : take known first s = (l, rest)) : Gap.begins rest = false := by
  cases h
  exact Gap.next?_eq_none_iff.1 (Gap.next?_scan _)

theorem bytes_append_of_take {known : Bytes → Bool} {first : Bool} {s rest : Bytes} {l : Lexeme}
    (h : take known first s = (l, rest)) : l.bytes ++ rest = s := by
  have := take_append known first s
  rwa [h] at this

/-- A word and its gap that are taken from a text are texts, and so is what follows them. -/
theorem isText_of_take {known : Bytes → Bool} {first : Bool} {s rest : Bytes} {l : Lexeme}
    (hs : IsText s) (h : take known first s = (l, rest)) :
    IsText l.word ∧ IsText l.separator ∧ IsText rest := by
  have hall := bytes_append_of_take h
  rw [bytes, List.append_assoc] at hall
  rw [← hall] at hs
  have hsep : IsText (l.separator ++ rest) := by
    cases first with
    | false =>
      exact Word.isText_of_length_append hs (by rw [hall, length_of_take h])
    | true =>
      have hnil : l.word = [] := by cases h; rfl
      rwa [hnil] at hs
  have hgap := Gap.isText_scan_fst hsep
  have hrest := Gap.isText_scan_snd hsep
  rw [scan_of_take h] at hgap hrest
  exact ⟨(hs.of_append hsep.startsCharacter).1, hgap, hrest⟩

/-- When the scanner takes a given word with a given gap. -/
theorem take_false_eq {known : Bytes → Bool} {rest : Bytes} {l : Lexeme}
    (hlen : Word.length known (l.bytes ++ rest) = l.word.length)
    (hgap : Gap.scan (l.separator ++ rest) = (l.gap, rest)) :
    take known false (l.bytes ++ rest) = (l, rest) := by
  simp only [take, Bool.false_eq_true, if_false, hlen]
  rw [bytes, List.append_assoc, List.drop_left, List.take_left, hgap]

/-- The bytes of the text of a word. -/
theorem ofText_text {l : Lexeme} (h : IsText l.word) : Bytes.ofText l.text = Word.decode l.word :=
  (Word.isText_decode h).ofText_toText

/-- Just the empty word stands for no text. -/
theorem text_eq_empty_iff {l : Lexeme} (h : IsText l.word) : l.text = "" ↔ l.word = [] := by
  constructor
  · intro htext
    have hhead := Word.head?_decode l.word
    rw [← ofText_text h, htext] at hhead
    exact List.head?_eq_none_iff.1 hhead.symm
  · intro hword
    rw [Lexeme.text, hword]
    rfl

theorem isText_flatMap_bytes {ls : List Lexeme}
    (h : ∀ l ∈ ls, IsText l.word ∧ IsText l.separator) : IsText (ls.flatMap bytes) := by
  induction ls with
  | nil => exact IsText.nil
  | cons l ls ih =>
    obtain ⟨⟨hword, hsep⟩, hls⟩ := List.forall_mem_cons.1 h
    exact (hword.append hsep).append (ih hls)

end Lexeme

/-- The bytes are those of words, each with the gap after it, as the scanner takes them. -/
inductive Lexed (known : Bytes → Bool) : Bytes → List Lexeme → Prop
  | nil : Lexed known [] []
  | cons {s rest : Bytes} {l : Lexeme} {ls : List Lexeme} : Gap.begins s = false →
      l.word ≠ [] → Lexeme.take known false s = (l, rest) → Lexed known rest ls →
      Lexed known s (l :: ls)

namespace Lexed

variable {known : Bytes → Bool} {s : Bytes} {ls : List Lexeme}

/-- From the start of a word on, there are lexemes up to the end. -/
theorem exists_lexed (known : Bytes → Bool) (s : Bytes) (hs : Gap.begins s = false) :
    ∃ ls, Lexed known s ls := by
  induction hn : s.length using Nat.strongRecOn generalizing s with
  | ind n ih =>
    cases s with
    | nil => exact ⟨[], .nil⟩
    | cons b r =>
      rcases ht : Lexeme.take known false (b :: r) with ⟨l, rest⟩
      have hlt := Lexeme.take_length_lt known (List.cons_ne_nil b r)
      rw [ht, hn] at hlt
      obtain ⟨ls, hls⟩ := ih rest.length hlt rest (Lexeme.begins_of_take ht) rfl
      have hpos := Word.length_pos known b r (Gap.isBlank_eq_false_of_begins hs)
      rw [Lexeme.length_of_take ht] at hpos
      exact ⟨l :: ls, .cons hs (List.ne_nil_of_length_pos hpos) ht hls⟩

theorem bytes_eq (h : Lexed known s ls) : ls.flatMap Lexeme.bytes = s := by
  induction h with
  | nil => rfl
  | cons _ _ ht _ ih => rw [List.flatMap_cons, ih, Lexeme.bytes_append_of_take ht]

theorem begins_eq_false (h : Lexed known s ls) : Gap.begins s = false := by
  cases h with
  | nil => rfl
  | cons hs _ _ _ => exact hs

theorem ne_nil {l : Lexeme} (h : Lexed known s (l :: ls)) : s ≠ [] := by
  cases h with
  | cons _ hne htake _ =>
    rintro rfl
    have hlen := Lexeme.length_of_take htake
    exact hne (List.length_eq_zero_iff.1 hlen.symm)

/-- From the start of any of the words on, the lexemes are those that are left. -/
theorem of_append {ls₁ ls₂ : List Lexeme} (h : Lexed known s (ls₁ ++ ls₂)) :
    Lexed known (ls₂.flatMap Lexeme.bytes) ls₂ := by
  induction ls₁ generalizing s with
  | nil => rwa [List.nil_append, ← h.bytes_eq] at h
  | cons l ls₁ ih =>
    cases h with
    | cons _ _ _ hrest => exact ih hrest

/-- The words and gaps of a text are texts. -/
theorem isText (h : Lexed known s ls) (hs : IsText s) :
    ∀ l ∈ ls, IsText l.word ∧ IsText l.separator := by
  induction h with
  | nil => simp
  | cons _ _ ht _ ih =>
    obtain ⟨hword, hsep, hrest⟩ := Lexeme.isText_of_take hs ht
    intro x hx
    rcases List.mem_cons.1 hx with rfl | hx
    · exact ⟨hword, hsep⟩
    · exact ih hrest x hx

/-- Each lexeme has a word, and is what the scanner takes somewhere. -/
theorem exists_take (h : Lexed known s ls) :
    ∀ l ∈ ls, l.word ≠ [] ∧ ∃ front rest, Lexeme.take known false front = (l, rest) := by
  induction h with
  | nil => simp
  | @cons front rest l ls _ hw ht _ ih =>
    intro x hx
    rcases List.mem_cons.1 hx with rfl | hx
    · exact ⟨hw, front, rest, ht⟩
    · exact ih x hx

end Lexed

/-! ## Tokens of lexemes -/

/-- The tokens of lexemes from an offset on. -/
def Vocabulary.tokens (v : Vocabulary) (offset : Nat) : List Lexeme → List Token
  | [] => []
  | l :: ls => v.token false offset l :: v.tokens (offset + l.length) ls

theorem Vocabulary.length_tokens (v : Vocabulary) (offset : Nat) (ls : List Lexeme) :
    (v.tokens offset ls).length = ls.length := by
  induction ls generalizing offset with
  | nil => rfl
  | cons l ls ih => rw [Vocabulary.tokens, List.length_cons, ih, List.length_cons]

theorem Vocabulary.tokens_append (v : Vocabulary) (offset : Nat) (ls₁ ls₂ : List Lexeme) :
    v.tokens offset (ls₁ ++ ls₂) =
      v.tokens offset ls₁ ++ v.tokens (offset + (ls₁.flatMap Lexeme.bytes).length) ls₂ := by
  induction ls₁ generalizing offset with
  | nil => rfl
  | cons l ls₁ ih =>
    rw [List.cons_append, Vocabulary.tokens, ih, Vocabulary.tokens, List.flatMap_cons,
      List.length_append, Lexeme.length_bytes, List.cons_append, Nat.add_assoc]

/-- The token of a lexeme stands where the lexemes before it end. -/
theorem Vocabulary.getElem?_tokens (v : Vocabulary) (offset : Nat) (ls : List Lexeme) (i : Nat) :
    (v.tokens offset ls)[i]? =
      ls[i]?.map (v.token false (offset + ((ls.take i).flatMap Lexeme.bytes).length)) := by
  induction ls generalizing offset i with
  | nil => rfl
  | cons l ls ih =>
    cases i with
    | zero => rfl
    | succ i =>
      rw [Vocabulary.tokens, List.getElem?_cons_succ, ih, List.getElem?_cons_succ,
        List.take_succ_cons, List.flatMap_cons, List.length_append, Lexeme.length_bytes,
        Nat.add_assoc]

/-- The bytes of a token in the source are those of its word. -/
theorem Vocabulary.slice?_token {v : Vocabulary} {first : Bool} {source : String} {l : Lexeme}
    {pre post : Bytes} (h : Bytes.ofText source = pre ++ l.bytes ++ post) (hword : IsText l.word)
    (hsep : IsText l.separator) (hpost : IsText post) :
    (v.token first pre.length l).span.slice? source = some (Bytes.toText l.word) := by
  rw [Lexeme.bytes, ← List.append_assoc, List.append_assoc] at h
  have hafter := hsep.append hpost
  exact Text.slice?_eq_some h (hword.append hafter).startsCharacter hafter.startsCharacter

theorem Token.slice?_terminator (source : String) :
    (Token.terminator source.utf8ByteSize).span.slice? source = some "" :=
  Text.slice?_end source

/-- What is found for each token of a source, if what is found for a token follows from its
lexeme. -/
theorem Vocabulary.mapM_tokens {α : Type} {v : Vocabulary} {source : String}
    {f : Token → Option α} {g : Lexeme → α}
    (hf : ∀ l pre post, Bytes.ofText source = pre ++ l.bytes ++ post → IsText l.word →
      IsText l.separator → IsText post → f (v.token false pre.length l) = some (g l))
    {ls : List Lexeme} (hls : ∀ l ∈ ls, IsText l.word ∧ IsText l.separator) {pre : Bytes}
    (h : Bytes.ofText source = pre ++ ls.flatMap Lexeme.bytes) :
    (v.tokens pre.length ls).mapM f = some (ls.map g) := by
  induction ls generalizing pre with
  | nil => rfl
  | cons l ls ih =>
    obtain ⟨⟨hword, hsep⟩, hls⟩ := List.forall_mem_cons.1 hls
    rw [List.flatMap_cons, ← List.append_assoc] at h
    have hfirst := hf l pre _ h hword hsep (Lexeme.isText_flatMap_bytes hls)
    have hrest := ih hls h
    rw [List.length_append, Lexeme.length_bytes] at hrest
    rw [Vocabulary.tokens, List.mapM_cons, hfirst, hrest]
    rfl

/-- Each token comes from a lexeme, and has the bytes of its word in the source. -/
theorem Vocabulary.exists_of_mem_tokens {v : Vocabulary} {source : String} {ls : List Lexeme}
    (hls : ∀ l ∈ ls, IsText l.word ∧ IsText l.separator) {pre : Bytes}
    (h : Bytes.ofText source = pre ++ ls.flatMap Lexeme.bytes) :
    ∀ t ∈ v.tokens pre.length ls, ∃ l ∈ ls, ∃ offset, t = v.token false offset l ∧
      t.span.slice? source = some (Bytes.toText l.word) := by
  induction ls generalizing pre with
  | nil => simp [Vocabulary.tokens]
  | cons l ls ih =>
    obtain ⟨⟨hword, hsep⟩, hls⟩ := List.forall_mem_cons.1 hls
    rw [List.flatMap_cons, ← List.append_assoc] at h
    have hfirst : (v.token false pre.length l).span.slice? source = some (Bytes.toText l.word) :=
      slice?_token h hword hsep (Lexeme.isText_flatMap_bytes hls)
    have hrest := ih hls h
    rw [List.length_append, Lexeme.length_bytes] at hrest
    intro t ht
    rcases List.mem_cons.1 ht with rfl | ht
    · exact ⟨l, List.mem_cons_self, pre.length, rfl, hfirst⟩
    · obtain ⟨l', hl', offset, heq⟩ := hrest t ht
      exact ⟨l', List.mem_cons_of_mem l hl', offset, heq⟩

/-- Tokens stand in the bytes of their lexemes. -/
theorem Vocabulary.span_of_mem_tokens {v : Vocabulary} {ls : List Lexeme} {offset : Nat} :
    ∀ t ∈ v.tokens offset ls, offset ≤ t.span.start ∧ t.span.start ≤ t.span.stop ∧
      t.span.stop ≤ offset + (ls.flatMap Lexeme.bytes).length := by
  induction ls generalizing offset with
  | nil => simp [Vocabulary.tokens]
  | cons l ls ih =>
    intro t ht
    rw [List.flatMap_cons, List.length_append, Lexeme.length_bytes, ← Nat.add_assoc]
    rcases List.mem_cons.1 ht with rfl | ht
    · simp only [Vocabulary.token, Lexeme.length]
      omega
    · obtain ⟨hstart, hforward, hstop⟩ := ih t ht
      exact ⟨by omega, hforward, hstop⟩

/-- Tokens stand in the order of their places, and do not overlap. -/
theorem Vocabulary.pairwise_tokens (v : Vocabulary) (ls : List Lexeme) (offset : Nat) :
    (v.tokens offset ls).Pairwise fun a b =>
      a.span.start ≤ a.span.stop ∧ a.span.stop ≤ b.span.start := by
  induction ls generalizing offset with
  | nil => exact .nil
  | cons l ls ih =>
    refine .cons (fun t ht => ?_) (ih (offset + l.length))
    have hstart := (span_of_mem_tokens t ht).1
    simp only [Vocabulary.token, Lexeme.length] at hstart ⊢
    omega

/-- The scanner after lexemes. -/
def Scanner.after (s : Scanner) (ls : List Lexeme) : Scanner :=
  ls.foldl (fun s l => s.advance l (s.rest.drop l.length)) s

@[simp]
theorem Scanner.after_nil (s : Scanner) : s.after [] = s := rfl

theorem Scanner.after_cons (s : Scanner) (l : Lexeme) (ls : List Lexeme) :
    s.after (l :: ls) = (s.advance l (s.rest.drop l.length)).after ls := rfl

theorem Scanner.next?_eq_some {v : Vocabulary} {first : Bool} {s : Scanner} {l : Lexeme}
    {rest : Bytes} (hs : s.rest ≠ []) (ht : Lexeme.take v.knows first s.rest = (l, rest)) :
    s.next? v first = some (v.token first s.offset l, s.advance l rest) := by
  have hend : s.isAtEnd = false := by simpa [Scanner.isAtEnd] using hs
  rw [Scanner.next?, hend, ht]
  rfl

/-- All tokens are those of the lexemes that are left. -/
theorem Scanner.drain_eq {v : Vocabulary} {s : Scanner} {ls : List Lexeme}
    (h : Lexed v.knows s.rest ls) (found : Array Token) :
    s.drain v found = (found ++ (v.tokens s.offset ls).toArray, s.after ls) := by
  generalize hr : s.rest = r at h
  induction h generalizing s found with
  | nil =>
    have hnext : s.next? v false = none := by simp [Scanner.next?, Scanner.isAtEnd, hr]
    rw [Scanner.drain]
    split
    · simp [Vocabulary.tokens]
    · simp_all
  | @cons r rest l ls _ hw ht _ ih =>
    have hall := Lexeme.bytes_append_of_take ht
    have hne : s.rest ≠ [] := by
      rw [hr, ← hall, Lexeme.bytes]
      simp [hw]
    have hnext : s.next? v false = some (v.token false s.offset l, s.advance l rest) :=
      next?_eq_some hne (by rw [hr, ht])
    have hih := @ih (s.advance l rest) (found.push (v.token false s.offset l)) rfl
    rw [Scanner.drain]
    split
    · simp_all
    · rename_i t s' h'
      rw [hnext] at h'
      cases h'
      rw [hih, Scanner.after_cons, hr, ← hall, Lexeme.drop_bytes]
      simp [Vocabulary.tokens, Scanner.advance]

theorem Scanner.offset_after (s : Scanner) (ls : List Lexeme) :
    (s.after ls).offset = s.offset + (ls.flatMap Lexeme.bytes).length := by
  induction ls generalizing s with
  | nil => simp
  | cons l ls ih =>
    rw [Scanner.after_cons, ih, List.flatMap_cons, List.length_append, Lexeme.length_bytes]
    simp only [Scanner.advance]
    omega

/-! ## Whole sources -/

/-- A source is cut into the gap at its head and lexemes. -/
structure Cut (known : Bytes → Bool) (source : String) (gap : List GapItem) (ls : List Lexeme) :
    Prop where
  scan : Gap.scan (Bytes.ofText source) = (gap, ls.flatMap Lexeme.bytes)
  lexed : Lexed known (ls.flatMap Lexeme.bytes) ls

/-- The stream of a source of a number of bytes that is cut into a gap and lexemes. -/
def Vocabulary.stream (v : Vocabulary) (gap : List GapItem) (ls : List Lexeme) (size : Nat) :
    Stream :=
  .ofTokens (v.token true 0 ⟨[], gap⟩) (v.tokens (Gap.bytes gap).length ls).toArray size

theorem Vocabulary.toList_stream (v : Vocabulary) (gap : List GapItem) (ls : List Lexeme)
    (size : Nat) : (v.stream gap ls size).tokens.toList =
      v.token true 0 ⟨[], gap⟩ :: (v.tokens (Gap.bytes gap).length ls ++ [.terminator size]) := by
  simp [Vocabulary.stream, Stream.ofTokens]

/-- A token of a stream is its head, its terminator, or the token of a lexeme. -/
theorem Vocabulary.get?_stream_cases {v : Vocabulary} {gap : List GapItem} {ls : List Lexeme}
    {size i : Nat} {t : Token} (h : (v.stream gap ls size).get? i = some t) :
    (i = 0 ∧ t = v.token true 0 ⟨[], gap⟩) ∨
    (∃ ls₁ l ls₂, ls = ls₁ ++ l :: ls₂ ∧ i = ls₁.length + 1 ∧
      t = v.token false ((Gap.bytes gap).length + (ls₁.flatMap Lexeme.bytes).length) l) ∨
    t = .terminator size := by
  rw [Stream.get?, ← Array.getElem?_toList, toList_stream] at h
  cases i with
  | zero => exact Or.inl ⟨rfl, (Option.some.inj h).symm⟩
  | succ i =>
    rw [List.getElem?_cons_succ] at h
    by_cases hi : i < ls.length
    · rw [List.getElem?_append_left (by rwa [length_tokens]), getElem?_tokens,
        List.getElem?_eq_getElem hi] at h
      refine Or.inr (Or.inl ⟨ls.take i, ls[i], ls.drop (i + 1), ?_, ?_, (Option.some.inj h).symm⟩)
      · rw [← List.drop_eq_getElem_cons hi, List.take_append_drop]
      · rw [List.length_take_of_le (Nat.le_of_lt hi)]
    · rw [List.getElem?_append_right (by rw [length_tokens]; omega)] at h
      exact Or.inr (Or.inr (List.mem_singleton.1 (List.mem_of_getElem? h)))

namespace Cut

variable {known : Bytes → Bool} {source : String} {gap : List GapItem} {ls : List Lexeme}

theorem exists_cut (known : Bytes → Bool) (source : String) :
    ∃ gap ls, Cut known source gap ls := by
  rcases h : Gap.scan (Bytes.ofText source) with ⟨gap, rest⟩
  have hend := Gap.next?_scan (Bytes.ofText source)
  rw [h, Gap.next?_eq_none_iff] at hend
  obtain ⟨ls, hls⟩ := Lexed.exists_lexed known rest hend
  exact ⟨gap, ls, by rw [h, hls.bytes_eq], by rwa [hls.bytes_eq]⟩

theorem bytes_eq (h : Cut known source gap ls) :
    Gap.bytes gap ++ ls.flatMap Lexeme.bytes = Bytes.ofText source := by
  have := Gap.scan_append (Bytes.ofText source)
  rwa [h.scan] at this

theorem utf8ByteSize_eq (h : Cut known source gap ls) :
    source.utf8ByteSize = (Gap.bytes gap).length + (ls.flatMap Lexeme.bytes).length := by
  rw [← Text.length_ofText, ← h.bytes_eq, List.length_append]

theorem isText_gap (h : Cut known source gap ls) : IsText (Gap.bytes gap) := by
  have := Gap.isText_scan_fst (Bytes.isText_ofText source)
  rwa [h.scan] at this

/-- Words and gaps of a source are texts. -/
theorem isText (h : Cut known source gap ls) : ∀ l ∈ ls, IsText l.word ∧ IsText l.separator := by
  have := Gap.isText_scan_snd (Bytes.isText_ofText source)
  rw [h.scan] at this
  exact h.lexed.isText this

/-- The scanner stops at the end of the source. -/
theorem offset_after (h : Cut known source gap ls) :
    ((Scanner.ofText source).after (⟨[], gap⟩ :: ls)).offset = source.utf8ByteSize := by
  rw [Scanner.offset_after, h.utf8ByteSize_eq, List.flatMap_cons, List.length_append]
  exact Nat.zero_add _

/-- The stream of a source, and the scanner at its end. -/
theorem scan?_eq {v : Vocabulary} (h : Cut v.knows source gap ls) (hne : source ≠ "") :
    Stream.scan? v source = some (v.stream gap ls source.utf8ByteSize,
      (Scanner.ofText source).after (⟨[], gap⟩ :: ls)) := by
  have hbytes : Bytes.ofText source ≠ [] := fun h => hne (Text.ofText_injective h)
  have htake : Lexeme.take v.knows true (Bytes.ofText source) =
      (⟨[], gap⟩, ls.flatMap Lexeme.bytes) := by
    simp [Lexeme.take, h.scan]
  have hnext : (Scanner.ofText source).next? v true = some (v.token true 0 ⟨[], gap⟩,
      (Scanner.ofText source).advance ⟨[], gap⟩ (ls.flatMap Lexeme.bytes)) :=
    Scanner.next?_eq_some hbytes htake
  have hsize := h.offset_after
  have hrest : (Bytes.ofText source).drop (Lexeme.length ⟨[], gap⟩) = ls.flatMap Lexeme.bytes := by
    rw [← h.bytes_eq]
    exact Lexeme.drop_bytes ⟨[], gap⟩ _
  rw [Scanner.after_cons, show (Scanner.ofText source).rest = Bytes.ofText source from rfl,
    hrest] at hsize ⊢
  have hdrain := Scanner.drain_eq
    (s := (Scanner.ofText source).advance ⟨[], gap⟩ (ls.flatMap Lexeme.bytes)) h.lexed #[]
  have hoffset : ((Scanner.ofText source).advance ⟨[], gap⟩ (ls.flatMap Lexeme.bytes)).offset =
      (Gap.bytes gap).length := by
    simp [Scanner.advance, Scanner.ofText, Lexeme.length, Lexeme.separator]
  rw [hoffset] at hdrain
  rw [Stream.scan?, hnext]
  simp only [hdrain, hsize]
  simp [Vocabulary.stream]

/-- The stream of a source. -/
theorem tokenize_eq {v : Vocabulary} (h : Cut v.knows source gap ls) (hne : source ≠ "") :
    Stream.tokenize v source = some (v.stream gap ls source.utf8ByteSize) := by
  rw [Stream.tokenize, h.scan?_eq hne, Option.map_some]

end Cut

/-! ## Places of lexemes -/

/-- A word with its gap is taken from a source, where it stands after the bytes `pre` and before the
bytes `post`. -/
structure Lexeme.TakenFrom (known : Bytes → Bool) (source : String) (pre : Bytes) (l : Lexeme)
    (post : Bytes) : Prop where
  bytes_eq : Bytes.ofText source = pre ++ (l.bytes ++ post)
  isText : IsText (l.bytes ++ post)
  begins_eq_false : Gap.begins (l.bytes ++ post) = false
  word_ne_nil : l.word ≠ []
  take_eq : Lexeme.take known false (l.bytes ++ post) = (l, post)

/-- Each token from the start of a word on is that of a lexeme at its place. -/
theorem Lexed.exists_takenFrom {v : Vocabulary} {source : String} {s pre : Bytes}
    {ls : List Lexeme} (h : Lexed v.knows s ls) (hs : IsText s)
    (hsource : Bytes.ofText source = pre ++ s) :
    ∀ t ∈ v.tokens pre.length ls, ∃ pre l post,
      Lexeme.TakenFrom v.knows source pre l post ∧ t = v.token false pre.length l := by
  induction h generalizing pre with
  | nil => simp [Vocabulary.tokens]
  | @cons s rest l ls hbegins hword htake _ ih =>
    have hall := Lexeme.bytes_append_of_take htake
    obtain ⟨-, -, hrest⟩ := Lexeme.isText_of_take hs htake
    have hbytes : Bytes.ofText source = pre ++ l.bytes ++ rest := by
      rw [hsource, ← hall, List.append_assoc]
    have htail := ih hrest hbytes
    rw [List.length_append, Lexeme.length_bytes] at htail
    intro t ht
    rcases List.mem_cons.1 ht with rfl | ht
    · subst hall
      exact ⟨pre, l, rest, ⟨hsource, hs, hbegins, hword, htake⟩, rfl⟩
    · exact htail t ht

/-- A token between the head of a stream and its terminator is that of a lexeme at its place. -/
theorem Cut.exists_takenFrom {v : Vocabulary} {source : String} {gap : List GapItem}
    {ls : List Lexeme} (h : Cut v.knows source gap ls) :
    ∀ t ∈ v.tokens (Gap.bytes gap).length ls, ∃ pre l post,
      Lexeme.TakenFrom v.knows source pre l post ∧ t = v.token false pre.length l := by
  have hrest := Gap.isText_scan_snd (Bytes.isText_ofText source)
  rw [h.scan] at hrest
  exact h.lexed.exists_takenFrom hrest h.bytes_eq.symm

/-- A stream is that of the lexemes that its source is cut into. -/
theorem Stream.exists_cut {v : Vocabulary} {source : String} {stream : Stream}
    (h : Stream.tokenize v source = some stream) :
    ∃ gap ls, Cut v.knows source gap ls ∧ stream = v.stream gap ls source.utf8ByteSize := by
  have hne : source ≠ "" := by
    rintro rfl
    cases h
  obtain ⟨gap, ls, hcut⟩ := Cut.exists_cut v.knows source
  rw [hcut.tokenize_eq hne] at h
  exact ⟨gap, ls, hcut, (Option.some.inj h).symm⟩

/-- The tokens of a stream, with head and terminator, stand in the order of their places. -/
theorem Vocabulary.pairwise_stream {v : Vocabulary} {source : String} {gap : List GapItem}
    {ls : List Lexeme} (h : Cut v.knows source gap ls) :
    (v.stream gap ls source.utf8ByteSize).tokens.toList.Pairwise fun a b =>
      a.span.start ≤ a.span.stop ∧ a.span.stop ≤ b.span.start := by
  rw [toList_stream, List.pairwise_cons, List.pairwise_append]
  refine ⟨fun t _ => ⟨Nat.le_refl 0, Nat.zero_le _⟩, pairwise_tokens v ls _,
    List.pairwise_singleton _ _, fun t ht t' ht' => ?_⟩
  obtain ⟨-, hforward, hstop⟩ := span_of_mem_tokens t ht
  obtain rfl := List.mem_singleton.1 ht'
  rw [← h.utf8ByteSize_eq] at hstop
  exact ⟨hforward, hstop⟩

end RobotScript
