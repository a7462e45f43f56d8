import Mathlib.Algebra.GroupWithZero.Nat
import RobotScript.Proofs.OpenStrings

/-!
# Streams put together again

The texts and separators of a stream, one after the other, are its source again but for the escapes
in quoted words: a backslash and the byte that it takes are two bytes in the source and one in the
text. All other words and all gaps are in the stream as they stand in the source, backslashes or
not.

Results:

* `Vocabulary.ofText_reconstruct_stream`: the bytes of what is put together.
* `Cut.size_reconstruct`, `Cut.reconstruct_eq_iff`: how many bytes of the source are missing there,
  and when none is.
* `Stream.tokenize_reconstructs`: when a source is put together again, and how long the text is.
-/

namespace RobotScript

open Bytes (IsText)

/-! ## Texts and separators -/

/-- The bytes of the text and the separator of a token. -/
def Token.bytes (t : Token) : Bytes := Bytes.ofText t.text ++ Bytes.ofText t.separator

/-- The bytes that a word stands for, and those of the gap after it. -/
def Lexeme.decoded (l : Lexeme) : Bytes := Word.decode l.word ++ l.separator

theorem Stream.ofText_reconstruct (s : Stream) :
    Bytes.ofText s.reconstruct = s.tokens.toList.flatMap Token.bytes := by
  have fold : ∀ (ts : List Token) (text : String),
      Bytes.ofText (ts.foldl (fun text t => text ++ t.text ++ t.separator) text) =
        Bytes.ofText text ++ ts.flatMap Token.bytes := by
    intro ts
    induction ts with
    | nil =>
      intro text
      exact (List.append_nil _).symm
    | cons t ts ih =>
      intro text
      rw [List.foldl_cons, ih, Text.ofText_append, Text.ofText_append, List.flatMap_cons,
        Token.bytes]
      simp only [List.append_assoc]
  rw [Stream.reconstruct, ← Array.foldl_toList]
  exact fold s.tokens.toList ""

namespace Vocabulary

variable {v : Vocabulary} {ls : List Lexeme}

theorem bytes_token {first : Bool} {offset : Nat} {l : Lexeme} (hword : IsText l.word)
    (hsep : IsText l.separator) : (v.token first offset l).bytes = l.decoded := by
  show Bytes.ofText l.text ++ Bytes.ofText (Bytes.toText l.separator) = _
  rw [Lexeme.ofText_text hword, hsep.ofText_toText, Lexeme.decoded]

theorem flatMap_bytes_tokens (hls : ∀ l ∈ ls, IsText l.word ∧ IsText l.separator) (offset : Nat) :
    (v.tokens offset ls).flatMap Token.bytes = ls.flatMap Lexeme.decoded := by
  induction ls generalizing offset with
  | nil => rfl
  | cons l ls ih =>
    obtain ⟨⟨hword, hsep⟩, hls⟩ := List.forall_mem_cons.1 hls
    rw [Vocabulary.tokens, List.flatMap_cons, List.flatMap_cons, bytes_token hword hsep, ih hls]

/-- What is put together are the gap at the head and the lexemes with their words decoded. -/
theorem ofText_reconstruct_stream {source : String} {gap : List GapItem}
    (h : Cut v.knows source gap ls) :
    Bytes.ofText (v.stream gap ls source.utf8ByteSize).reconstruct =
      Gap.bytes gap ++ ls.flatMap Lexeme.decoded := by
  have hhead : (v.token true 0 ⟨[], gap⟩).bytes = Gap.bytes gap :=
    bytes_token IsText.nil h.isText_gap
  have hlast : (Token.terminator source.utf8ByteSize).bytes = [] := rfl
  rw [Stream.ofText_reconstruct, toList_stream, List.flatMap_cons, List.flatMap_append,
    List.flatMap_singleton, hhead, hlast, flatMap_bytes_tokens h.isText, List.append_nil]

end Vocabulary

/-! ## Words without their escapes -/

namespace Lexeme

/-- Each escape is two bytes of a lexeme, and one of what it stands for. -/
theorem length_flatMap_decoded (ls : List Lexeme) :
    (ls.flatMap decoded).length + ((ls.map word).map Word.escapes).sum =
      (ls.flatMap bytes).length := by
  induction ls with
  | nil => rfl
  | cons l ls ih =>
    have hword := Word.length_decode_add_escapes l.word
    rw [List.flatMap_cons, List.flatMap_cons, List.map_cons, List.map_cons, List.sum_cons, decoded,
      bytes]
    simp only [List.length_append]
    omega

theorem flatMap_decoded_of_forall {ls : List Lexeme}
    (h : ∀ w ∈ ls.map word, Word.escapes w = 0) :
    ls.flatMap decoded = ls.flatMap bytes := by
  have heq : ls.map decoded = ls.map bytes := by
    apply List.map_congr_left
    intro l hl
    rw [decoded, bytes, Word.decode_eq_self_iff.2 (h l.word (List.mem_map_of_mem hl))]
  rw [List.flatMap_def, List.flatMap_def, heq]

end Lexeme

namespace Cut

variable {v : Vocabulary} {source : String} {gap : List GapItem} {ls : List Lexeme}

/-- The bytes of the tokens of a stream in its source are the words between none and none. -/
theorem mapM_word? (h : Cut v.knows source gap ls) :
    (v.stream gap ls source.utf8ByteSize).tokens.toList.mapM (Token.word? source) =
      some ([] :: (ls.map Lexeme.word ++ [[]])) := by
  have hsource : Bytes.ofText source =
      [] ++ Lexeme.bytes ⟨[], gap⟩ ++ ls.flatMap Lexeme.bytes := h.bytes_eq.symm
  have hhead : Token.word? source (v.token true 0 ⟨[], gap⟩) = some [] :=
    Vocabulary.word?_token hsource IsText.nil h.isText_gap (Lexeme.isText_flatMap_bytes h.isText)
  have hwords : (v.tokens (Gap.bytes gap).length ls).mapM (Token.word? source) =
      some (ls.map Lexeme.word) :=
    Vocabulary.mapM_tokens (fun _ _ _ => Vocabulary.word?_token) h.isText h.bytes_eq.symm
  have hlast : Token.word? source (.terminator source.utf8ByteSize) = some [] := by
    rw [Token.word?, Token.slice?_terminator]
    rfl
  rw [Vocabulary.toList_stream, List.mapM_cons, List.mapM_append, hhead, hwords, List.mapM_cons,
    hlast]
  rfl

/-- One byte is missing for each escape. -/
theorem size_reconstruct (h : Cut v.knows source gap ls) :
    (v.stream gap ls source.utf8ByteSize).reconstruct.utf8ByteSize +
      ((ls.map Lexeme.word).map Word.escapes).sum = source.utf8ByteSize := by
  have hlength := Lexeme.length_flatMap_decoded ls
  have hsize := h.utf8ByteSize_eq
  rw [← Text.length_ofText (Stream.reconstruct _), Vocabulary.ofText_reconstruct_stream h,
    List.length_append]
  omega

theorem reconstruct_eq_iff (h : Cut v.knows source gap ls) :
    (v.stream gap ls source.utf8ByteSize).reconstruct = source ↔
      ∀ word ∈ ls.map Lexeme.word, Word.escapes word = 0 := by
  constructor
  · -- the lengths show it: what escapes stand for may look like any source
    intro heq word hword
    have hsize := h.size_reconstruct
    rw [heq] at hsize
    have hsum : ((ls.map Lexeme.word).map Word.escapes).sum = 0 := by omega
    exact List.sum_eq_zero_iff_forall_eq_nat.1 hsum _ (List.mem_map_of_mem hword)
  · intro hnone
    apply Text.ofText_injective
    rw [Vocabulary.ofText_reconstruct_stream h, Lexeme.flatMap_decoded_of_forall hnone, h.bytes_eq]

end Cut

/-! ## Streams -/

/-- How a source comes of its stream again, where `words` are the bytes of the tokens in the
source. -/
structure Stream.Reconstructs (source : String) (stream : Stream) (words : List Bytes) :
    Prop where
  words_eq : stream.tokens.toList.mapM (Token.word? source) = some words
  /-- One byte is missing for each escape. -/
  size : stream.reconstruct.utf8ByteSize + (words.map Word.escapes).sum = source.utf8ByteSize
  eq_iff : stream.reconstruct = source ↔ ∀ word ∈ words, Word.escapes word = 0
  /-- Backslashes do no harm out of quoted words, and none as the last byte of one. -/
  eq_iff_notMem : stream.reconstruct = source ↔
    ∀ rest, Word.quote :: rest ∈ words → Word.backslash ∉ rest.dropLast

/-- A source that is not empty is put together again by its stream just if no quoted word has an
escape; otherwise one byte is missing for each escape. -/
theorem Stream.tokenize_reconstructs (v : Vocabulary) (source : String) :
    match Stream.tokenize v source with
    | none => source = ""
    | some stream => ∃ words, stream.Reconstructs source words := by
  by_cases hne : source = ""
  · subst hne
    rfl
  obtain ⟨gap, ls, hcut⟩ := Cut.exists_cut v.knows source
  rw [hcut.tokenize_eq hne]
  -- head and terminator have no bytes, and so no escapes
  have hsum : (([] :: (ls.map Lexeme.word ++ [[]])).map Word.escapes).sum =
      ((ls.map Lexeme.word).map Word.escapes).sum := by
    simp
  have heq : (v.stream gap ls source.utf8ByteSize).reconstruct = source ↔
      ∀ word ∈ [] :: (ls.map Lexeme.word ++ [[]]), Word.escapes word = 0 := by
    rw [hcut.reconstruct_eq_iff, List.forall_mem_cons, List.forall_mem_append,
      List.forall_mem_singleton]
    exact ⟨fun h => ⟨rfl, h, rfl⟩, fun h => h.2.1⟩
  refine ⟨_, hcut.mapM_word?, ?_, heq, heq.trans ?_⟩
  · rw [hsum]
    exact hcut.size_reconstruct
  · simp only [Word.escapes_eq_zero_iff]
    exact ⟨fun h rest hrest => h _ hrest rest rfl, fun h word hword rest he => h rest (he ▸ hword)⟩

/-- Of four backslashes, one takes a byte of a quoted word: the others are in a plain word, in a
comment, and at the end. -/
example : (Stream.tokenize ⟨.empty, .empty⟩ "a\\b /*\\n*/ \"c\\d\" \"\\").map Stream.reconstruct =
    some "a\\b /*\\n*/ \"cd\" \"\\" := by
  decide +kernel

end RobotScript
