import RobotScript.Proofs.Lexemes
import RobotScript.Proofs.Tables

/-!
# What decides where tokens end

Keywords and constants give words their kinds and ids. Where words and gaps end, they decide in one
way only: an operator grows as long as the longer one is a keyword, and that is asked for two bytes
or more that begin with the byte of an operator. So sources are cut alike with all tables that have
the same keywords of this form.

Results:

* `Word.operatorLength_congr`, `Word.length_congr`: words end alike if the same operators are known.
* `Cut.congr`: sources are cut alike.
* `Stream.scan?_segmentation`: streams and scanners for tables with the same operators.
-/

namespace RobotScript

open Bytes (IsText startsCharacter)

/-! ## Words -/

namespace Word

variable {known known' : Bytes → Bool}

/-- The same operators of two bytes or more are known. -/
def SameOperators (known known' : Bytes → Bool) : Prop :=
  ∀ b u, isOperator b = true → u ≠ [] → IsText (b :: u) → known (b :: u) = known' (b :: u)

/-- An operator asks only for what is longer than it is and ends where a character ends. -/
theorem operatorLength_congr {taken s : Bytes}
    (h : ∀ u v, u ≠ [] → s = u ++ v → startsCharacter v = true →
      known (taken ++ u) = known' (taken ++ u)) :
    operatorLength known taken s = operatorLength known' taken s := by
  induction s generalizing taken with
  | nil => rfl
  | cons b rest ih =>
    have hrest : operatorLength known (taken ++ [b]) rest =
        operatorLength known' (taken ++ [b]) rest := by
      refine ih fun u v hu he hstart => ?_
      rw [List.append_assoc, List.singleton_append]
      exact h (b :: u) v (List.cons_ne_nil b u) (by rw [he, List.cons_append]) hstart
    rw [operatorLength, operatorLength, hrest]
    cases hstart : startsCharacter rest with
    | false => rfl
    | true => rw [h [b] rest (List.cons_ne_nil b []) rfl hstart]

/-- The words of a text end alike. -/
theorem length_congr (h : SameOperators known known') {s : Bytes} (hs : IsText s) :
    length known s = length known' s := by
  cases s with
  | nil => rfl
  | cons b rest =>
    cases hb : Kind.ofByte b with
    | operator =>
      simp only [length, hb]
      refine operatorLength_congr fun u v hu he hstart => ?_
      rw [he, ← List.cons_append] at hs
      exact h b u (isOperator_of_ofByte_eq_operator hb) hu (hs.of_append hstart).1
    | _ => simp only [length, hb]

end Word

open Word (SameOperators)

/-! ## Sources -/

section

variable {known known' : Bytes → Bool}

theorem Lexeme.take_congr (h : SameOperators known known') (first : Bool) {s : Bytes}
    (hs : IsText s) : take known first s = take known' first s := by
  rw [take, take, Word.length_congr h hs]

theorem Lexed.congr (h : SameOperators known known') {s : Bytes} {ls : List Lexeme}
    (hl : Lexed known s ls) (hs : IsText s) : Lexed known' s ls := by
  induction hl with
  | nil => exact .nil
  | cons hbegins hne htake _ ih =>
    obtain ⟨-, -, hrest⟩ := Lexeme.isText_of_take hs htake
    rw [Lexeme.take_congr h false hs] at htake
    exact .cons hbegins hne htake (ih hrest)

/-- Sources are cut alike if the same operators are known. -/
theorem Cut.congr (h : SameOperators known known') {source : String} {gap : List GapItem}
    {ls : List Lexeme} (hcut : Cut known source gap ls) : Cut known' source gap ls :=
  ⟨hcut.scan, hcut.lexed.congr h (Lexeme.isText_flatMap_bytes hcut.isText)⟩

end

/-! ## Streams -/

/-- Whether a spelling has two bytes or more and begins like an operator. -/
def Keyword.isLongOperator (spelling : String) : Bool :=
  match Bytes.ofText spelling with
  | b :: _ :: _ => Word.isOperator b
  | _ => false

/-- Tables that have the same long operators loaded know the same operators. -/
theorem Vocabulary.sameOperators {spellings spellings' : Keyword.Spellings}
    (constants constants' : Constant.Table)
    (h : ∀ word, Keyword.isLongOperator word = true →
      (word ∈ (Keyword.populate spellings).entries.ordered.map Prod.fst ↔
        word ∈ (Keyword.populate spellings').entries.ordered.map Prod.fst)) :
    SameOperators (knows ⟨(Keyword.populate spellings).entries, constants⟩)
      (knows ⟨(Keyword.populate spellings').entries, constants'⟩) := by
  intro b u hb hu htext
  obtain ⟨c, u, rfl⟩ := List.exists_cons_of_ne_nil hu
  have hlong : Keyword.isLongOperator (Bytes.toText (b :: c :: u)) = true := by
    rw [Keyword.isLongOperator, htext.ofText_toText]
    exact hb
  rw [Bool.eq_iff_iff, knows, knows, Keyword.knows_populate_iff, Keyword.knows_populate_iff]
  exact h _ hlong

/-- How a source is cut up: the text, separator and place of each token, the number of comments, and
where a block comment without its end starts. -/
structure Segmentation where
  parts : List (String × String × Span)
  comments : Nat
  openComment : Option Nat
  deriving Repr, DecidableEq

/-- How a source is cut up, from its stream and the scanner at its end. -/
def Segmentation.ofScan (scan : Stream × Scanner) : Segmentation where
  parts := scan.1.tokens.toList.map fun t => (t.text, t.separator, t.span)
  comments := scan.2.comments
  openComment := scan.2.openComment

/-- The tokens of lexemes have the same texts, separators and places whatever gives them their
kinds. -/
theorem Vocabulary.map_tokens_congr (v v' : Vocabulary) (offset : Nat) (ls : List Lexeme) :
    (v.tokens offset ls).map (fun t => (t.text, t.separator, t.span)) =
      (v'.tokens offset ls).map fun t => (t.text, t.separator, t.span) := by
  induction ls generalizing offset with
  | nil => rfl
  | cons l ls ih =>
    rw [tokens, List.map_cons, ih, tokens, List.map_cons]
    rfl

/-- Sources are cut up alike by all tables of constants, and by all tables of keywords that have the
same spellings of two bytes or more that begin like an operator. -/
theorem Stream.scan?_segmentation (spellings spellings' : Keyword.Spellings)
    (constants constants' : Constant.Table) (source : String)
    (h : ∀ word, Keyword.isLongOperator word = true →
      (word ∈ (Keyword.populate spellings).entries.ordered.map Prod.fst ↔
        word ∈ (Keyword.populate spellings').entries.ordered.map Prod.fst)) :
    (Stream.scan? ⟨(Keyword.populate spellings).entries, constants⟩ source).map
        Segmentation.ofScan =
      (Stream.scan? ⟨(Keyword.populate spellings').entries, constants'⟩ source).map
        Segmentation.ofScan := by
  have hsame := Vocabulary.sameOperators constants constants' h
  generalize (⟨(Keyword.populate spellings).entries, constants⟩ : Vocabulary) = v at hsame ⊢
  generalize (⟨(Keyword.populate spellings').entries, constants'⟩ : Vocabulary) = v' at hsame ⊢
  by_cases hne : source = ""
  · subst hne
    rfl
  · obtain ⟨gap, ls, hcut⟩ := Cut.exists_cut v.knows source
    rw [hcut.scan?_eq hne, (hcut.congr hsame).scan?_eq hne, Option.map_some, Option.map_some]
    simp only [Segmentation.ofScan, Vocabulary.toList_stream, List.map_cons, List.map_append,
      Vocabulary.map_tokens_congr v v']
    rfl

/-- Words of another language, with the standard operators of two bytes or more among the values. -/
def Keyword.translated : Spellings :=
  .ofLists fun c =>
    if c = .value then ((standardKeywords .operator).map Prod.snd).filter isLongOperator
    else ["solange"]

/-- The words of a source are the same words with the translated keywords, and have other kinds. -/
theorem Stream.scan?_segmentation_translated :
    let v : Vocabulary := ⟨(Keyword.populate Keyword.standard).entries, .empty⟩
    let v' : Vocabulary :=
      ⟨(Keyword.populate Keyword.translated).entries, .afterCommands 1 [.define "n" 7]⟩
    let source := "solange n>>=1...2 /* z"
    (∀ word, Keyword.isLongOperator word = true →
      (word ∈ (Keyword.populate Keyword.standard).entries.ordered.map Prod.fst ↔
        word ∈ (Keyword.populate Keyword.translated).entries.ordered.map Prod.fst)) ∧
    Stream.tokenize v source ≠ Stream.tokenize v' source ∧
    (Stream.scan? v source).map Segmentation.ofScan =
      (Stream.scan? v' source).map Segmentation.ofScan := by
  intro v v' source
  have hsame : ∀ word, Keyword.isLongOperator word = true →
      (word ∈ (Keyword.populate Keyword.standard).entries.ordered.map Prod.fst ↔
        word ∈ (Keyword.populate Keyword.translated).entries.ordered.map Prod.fst) := by
    have hfilter : ((Keyword.populate Keyword.standard).entries.ordered.map Prod.fst).filter
          Keyword.isLongOperator =
        ((Keyword.populate Keyword.translated).entries.ordered.map Prod.fst).filter
          Keyword.isLongOperator := by
      decide +kernel
    intro word hlong
    have hmem := congrArg (word ∈ ·) hfilter
    simpa only [List.mem_filter, hlong, and_true, eq_iff_iff] using hmem
  have hkinds : (Stream.tokenize v source).map (fun stream => (stream.get? 1).map Token.kind) ≠
      (Stream.tokenize v' source).map (fun stream => (stream.get? 1).map Token.kind) := by
    decide +kernel
  refine ⟨hsame, fun heq => hkinds (by rw [heq]), ?_⟩
  exact Stream.scan?_segmentation Keyword.standard Keyword.translated .empty
    (.afterCommands 1 [.define "n" 7]) source hsame

end RobotScript
