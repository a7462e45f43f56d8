import RobotScript.Proofs.Lexemes
import RobotScript.Proofs.Tables

/-!
# The shape of a stream

A stream is its head, its words and its terminator. A word is no empty text, since no gap begins
where a word is taken, and its kind and id follow from its text alone.

Results:

* `Vocabulary.classified_classify`: kind and id of a word that is no empty text.
* `Vocabulary.words_stream`: the words of a stream are the tokens of the lexemes of the source.
* `Stream.tokenize_shaped`: streams for any spellings of keywords and any history of constants.
-/

namespace RobotScript

open Bytes (IsText)

namespace Vocabulary

/-! ## Kinds of words -/

/-- The kind and id that a text has as a word: keywords come first, then constants, and the first
byte tells the rest apart. -/
inductive Classified (v : Vocabulary) (text : String) : TokenKind → Int → Prop
  | keyword : 0 < v.keywords.lookup text → Classified v text .keyword (v.keywords.lookup text)
  | constant {value : Int} : ¬0 < v.keywords.lookup text →
      v.constants.resolve text = some value → Classified v text .constant value
  | number {b : UInt8} {rest : Bytes} : ¬0 < v.keywords.lookup text →
      v.constants.resolve text = none → Bytes.ofText text = b :: rest →
      Word.isDigit b = true → Classified v text .number (-1)
  | string {rest : Bytes} : ¬0 < v.keywords.lookup text → v.constants.resolve text = none →
      Bytes.ofText text = Word.quote :: rest → Classified v text .string (-1)
  | variable {b : UInt8} {rest : Bytes} : ¬0 < v.keywords.lookup text →
      v.constants.resolve text = none → Bytes.ofText text = b :: rest →
      Word.isDigit b = false → b ≠ Word.quote → Classified v text .variable (-1)

theorem Classified.isWord {v : Vocabulary} {t : Token} (h : v.Classified t.text t.kind t.id) :
    t.isWord = true := by
  unfold Token.isWord
  generalize t.kind = kind, t.id = id at h
  cases h <;> rfl

theorem classified_classify (v : Vocabulary) {text : String} (h : text ≠ "") :
    v.Classified text (v.classify false text).1 (v.classify false text).2 := by
  have hne : Bytes.ofText text ≠ [] := fun hnil => h (Text.ofText_injective hnil)
  obtain ⟨b, rest, hb⟩ := List.exists_cons_of_ne_nil hne
  unfold classify
  by_cases hk : 0 < v.keywords.lookup text
  · rw [if_pos hk]
    exact .keyword hk
  rw [if_neg hk]
  cases hc : v.constants.resolve text with
  | some value => exact .constant hk hc
  | none =>
    simp only [literalKind, hb]
    by_cases hd : Word.isDigit b = true
    · simp only [hd]
      exact .number hk hc hb hd
    · by_cases hq : b = Word.quote
      · subst hq
        exact .string hk hc hb
      · have hq' : (b == Word.quote) = false := beq_eq_false_iff_ne.2 hq
        simp only [hd, hq', Bool.false_eq_true, if_false]
        exact .variable hk hc hb (by simpa using hd) hq

end Vocabulary

/-! ## The tokens of a stream -/

/-- The head of a stream, if the empty text is in no table. -/
theorem Vocabulary.token_head {v : Vocabulary} (hv : v.classify true "" = (.leading, -1))
    (gap : List GapItem) : v.token true 0 ⟨[], gap⟩ =
      ⟨"", Bytes.toText (Gap.bytes gap), .leading, -1, .emptyAt 0⟩ := by
  have htext : Lexeme.text ⟨[], gap⟩ = "" := rfl
  simp only [token, htext, hv]
  rfl

namespace Cut

variable {v : Vocabulary} {source : String} {gap : List GapItem} {ls : List Lexeme}

/-- Each word of a source has a text, and the kind and id that its text has. -/
theorem classified_tokens (h : Cut v.knows source gap ls) :
    ∀ t ∈ v.tokens (Gap.bytes gap).length ls, t.text ≠ "" ∧ v.Classified t.text t.kind t.id := by
  intro t ht
  obtain ⟨l, hl, offset, rfl, -⟩ :=
    Vocabulary.exists_of_mem_tokens h.isText h.bytes_eq.symm t ht
  have htext : l.text ≠ "" :=
    mt (Lexeme.text_eq_empty_iff (h.isText l hl).1).1 (h.lexed.exists_take l hl).1
  exact ⟨htext, v.classified_classify htext⟩

/-- The words of a stream are the tokens of the lexemes, if its head is no word. -/
theorem words_stream (h : Cut v.knows source gap ls) (hv : v.classify true "" = (.leading, -1)) :
    (v.stream gap ls source.utf8ByteSize).words.toList = v.tokens (Gap.bytes gap).length ls := by
  have hhead : (v.token true 0 ⟨[], gap⟩).isWord = false := by
    rw [Vocabulary.token_head hv]
    rfl
  have hwords : (v.tokens (Gap.bytes gap).length ls).filter Token.isWord =
      v.tokens (Gap.bytes gap).length ls :=
    List.filter_eq_self.2 fun t ht => (h.classified_tokens t ht).2.isWord
  have hlast : (Token.terminator source.utf8ByteSize).isWord = false := rfl
  rw [Stream.words, Array.toList_filter, Vocabulary.toList_stream, List.filter_cons, hhead,
    List.filter_append, hwords, List.filter_cons, hlast]
  simp

end Cut

/-! ## Streams -/

/-- A stream is a head, words with the kinds and ids of their texts, and a terminator. -/
structure Stream.Shaped (v : Vocabulary) (stream : Stream) : Prop where
  /-- There is just one head and one terminator: all tokens between them are words. -/
  parts : ∃ head last, stream.tokens.toList = head :: (stream.words.toList ++ [last]) ∧
    (head.kind = .leading ∧ head.text = "" ∧ head.id = -1) ∧
    (last.kind = .terminator ∧ last.text = "" ∧ last.separator = "" ∧ last.id = -1)
  words : ∀ t ∈ stream.words.toList, t.isWord = true ∧ t.text ≠ "" ∧
    v.Classified t.text t.kind t.id

/-- A source that is not empty has a stream of this shape, whatever spellings of keywords there are
and whatever was done to the constants. -/
theorem Stream.tokenize_shaped (spellings : Keyword.Spellings) (limit : Nat)
    (commands : List Constant.Command) (source : String) :
    let v := Vocabulary.afterCommands spellings limit commands
    match Stream.tokenize v source with
    | none => source = ""
    | some stream => stream.Shaped v := by
  intro v
  by_cases hne : source = ""
  · subst hne
    rfl
  · obtain ⟨gap, ls, hcut⟩ := Cut.exists_cut v.knows source
    have hv : v.classify true "" = (.leading, -1) := Vocabulary.classify_head
    have hwords := hcut.words_stream hv
    rw [Stream.tokenize, hcut.scan?_eq hne]
    refine ⟨⟨v.token true 0 ⟨[], gap⟩, .terminator source.utf8ByteSize, ?_, ?_, ?_⟩, ?_⟩
    · rw [hwords, Vocabulary.toList_stream]
    · exact ⟨congrArg Prod.fst hv, rfl, congrArg Prod.snd hv⟩
    · exact ⟨rfl, rfl, rfl, rfl⟩
    · intro t ht
      rw [hwords] at ht
      obtain ⟨htext, hclass⟩ := hcut.classified_tokens t ht
      exact ⟨hclass.isWord, htext, hclass⟩

end RobotScript
