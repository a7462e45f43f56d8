import Mathlib.Data.List.Infix
import RobotScript.Proofs.Numbers
import RobotScript.Proofs.StreamShape

/-!
# Keywords that scan to themselves

A source that is nothing but the spelling of a keyword is not that keyword in each case. White space
and the opening of a comment are no words, a plain word ends before the first byte of an operator,
an operator is found only if each of its longer parts is known on the way, and a quoted word stands
for its text. Here is the exact condition, by the class of the word.

Results:

* `Word.exists_foldlM_quotedStep_iff`: when bytes without escapes are within one quoted word.
* `Word.takenWhole_iff`: the words that the scanner takes as a whole and that stand for themselves.
* `Stream.exists_isKeyword_iff`: when a source is one such word.
* `Stream.tokenize_keyword_iff`: which keywords scan to themselves.
* `Stream.tokenize_standard_iff`: all standard keywords do, except for the ellipsis.
-/

namespace RobotScript

open Bytes (IsText startsCharacter)

namespace Word

/-! ## Quoted words -/

/-- Bytes without escapes are within one quoted word if they hold no end of a line, and no quote
but at their end. -/
theorem exists_foldlM_quotedStep_iff {w : Bytes} (h : backslash ∉ w.dropLast) :
    (∃ state, w.foldlM quotedStep .body = some state) ↔
      (∀ b ∈ w, endsLine b = false) ∧ quote ∉ w.dropLast := by
  induction w with
  | nil => simp
  | cons b w ih =>
    rw [List.foldlM_cons, List.forall_mem_cons]
    cases w with
    | nil =>
      cases hstep : quotedStep .body b with
      | none => simp [quotedStep_body_eq_none_iff.1 hstep]
      | some next =>
        have he : endsLine b = false := by
          rw [← Bool.not_eq_true, ← quotedStep_body_eq_none_iff, hstep]
          nofun
        simp [he]
    | cons c rest =>
      rw [List.dropLast_cons_cons, List.mem_cons, not_or] at h ⊢
      have ih := ih h.2
      have hb := h.1
      by_cases hq : b = quote
      · subst hq
        refine iff_of_false ?_ fun h => h.2.1 rfl
        rintro ⟨state, hstate⟩
        cases hstate
      · cases he : endsLine b with
        | true =>
          rw [quotedStep_body_eq_none_iff.2 he]
          simp
        | false =>
          have hstep : quotedStep .body b = some .body :=
            quotedStep_eq_body_iff.2 (Or.inr ⟨rfl, hq, Ne.symm hb, he⟩)
          rw [hstep, Option.bind_eq_bind, Option.bind_some, ih]
          simp [Ne.symm hq]

/-! ## Words of all classes -/

section

variable {known : Bytes → Bool} {b : UInt8} {w : Bytes}

theorem length_eq_iff_of_quoted (hb : Kind.ofByte b = .quoted) :
    length known (b :: w) = (b :: w).length ↔ ∃ state, w.foldlM quotedStep .body = some state := by
  have h := @length_append_iff_of_quoted known b w [] hb
  rw [List.append_nil] at h
  simpa [Halts] using h

theorem length_eq_iff_of_number (hb : Kind.ofByte b = .number) :
    length known (b :: w) = (b :: w).length ↔ IsNumber (b :: w) := by
  have h := @length_append_iff_of_number known b w [] hb
  rw [List.append_nil] at h
  rw [← exists_numberRun_iff (isDigit_of_ofByte_eq_number hb)]
  simpa [Halts] using h

theorem length_eq_iff_of_operator (hb : Kind.ofByte b = .operator) :
    length known (b :: w) = (b :: w).length ↔
      ∀ u v, u ≠ [] → w = u ++ v → startsCharacter v = true ∧ known (b :: u) = true := by
  have h := @length_append_iff_of_operator known b w [] hb
  rw [operatorLength_append_iff, List.append_nil] at h
  simpa using h

theorem length_eq_iff_of_plain (hb : Kind.ofByte b = .plain) :
    length known (b :: w) = (b :: w).length ↔ ∀ c ∈ b :: w, isBoundary c = false := by
  have h := @length_append_iff_of_plain known b w [] hb
  rw [List.append_nil] at h
  simpa using h

/-- No gap begins with a byte that is neither white space nor a slash with another slash or a star
after it. -/
theorem begins_cons_eq_false_iff : Gap.begins (b :: w) = false ↔
    isBlank b = false ∧ ¬[Gap.slash, Gap.slash] <+: b :: w ∧ ¬[Gap.slash, Gap.star] <+: b :: w := by
  have hopens (c : UInt8) : [Gap.slash, c] <+: b :: w ↔ b = Gap.slash ∧ w.head? = some c := by
    cases w with
    | nil => simp
    | cons d w => simp [eq_comm]
  rw [hopens, hopens, Gap.begins]
  cases isBlank b <;> by_cases hb : b = Gap.slash <;> simp [hb]

/-- No gap begins with a byte that is neither white space nor an operator. -/
theorem begins_cons_of_isOperator_eq_false (hblank : isBlank b = false)
    (hop : isOperator b = false) : Gap.begins (b :: w) = false := by
  have hslash : b ≠ Gap.slash := by
    rintro rfl
    cases hop
  simp [Gap.begins, hblank, hslash]

end

/-- Words that are taken as a whole and stand for themselves, where `loaded` are the spellings of
keywords. -/
inductive Whole (loaded : Bytes → Prop) : Bytes → Prop
  | plain {b : UInt8} {w : Bytes} : isBlank b = false → isDigit b = false → b ≠ quote →
      isOperator b = false → (∀ c ∈ b :: w, isBoundary c = false) → Whole loaded (b :: w)
  /-- No comment opens here, and each longer part on the way to the whole operator is loaded. -/
  | operator {b : UInt8} {w : Bytes} : isOperator b = true →
      ¬[Gap.slash, Gap.slash] <+: b :: w → ¬[Gap.slash, Gap.star] <+: b :: w →
      (∀ u v, b :: w = u ++ v → v ≠ [] → 2 ≤ u.length → loaded u) → Whole loaded (b :: w)
  | number {b : UInt8} {w : Bytes} : isDigit b = true → IsNumber (b :: w) → Whole loaded (b :: w)
  /-- The rest may end in a quote, which closes the word, or in a backslash that takes nothing. -/
  | quoted {w : Bytes} : (∀ b ∈ w, endsLine b = false) → quote ∉ w.dropLast →
      backslash ∉ w.dropLast → Whole loaded (quote :: w)

/-- The scanner takes the bytes as one word without anything before it, and they stand for
themselves. -/
structure TakenWhole (known : Bytes → Bool) (w : Bytes) : Prop where
  begins_eq : Gap.begins w = false
  length_eq : length known w = w.length
  decode_eq : decode w = w

instance (known : Bytes → Bool) (w : Bytes) : Decidable (TakenWhole known w) :=
  decidable_of_iff (Gap.begins w = false ∧ length known w = w.length ∧ decode w = w)
    ⟨fun ⟨hbegins, hlength, hdecode⟩ => ⟨hbegins, hlength, hdecode⟩,
      fun ⟨hbegins, hlength, hdecode⟩ => ⟨hbegins, hlength, hdecode⟩⟩

/-- An operator that is known is found if each longer part on the way to it is known, which is a
text then. -/
theorem forall_known_iff {known : Bytes → Bool} {loaded : Bytes → Prop} {b : UInt8} {w : Bytes}
    (hknown : ∀ u, IsText u → (known u = true ↔ loaded u)) (htext : ∀ u, loaded u → IsText u)
    (hw : loaded (b :: w)) :
    (∀ u v, u ≠ [] → w = u ++ v → startsCharacter v = true ∧ known (b :: u) = true) ↔
      ∀ u v, b :: w = u ++ v → v ≠ [] → 2 ≤ u.length → loaded u := by
  have hall := htext _ hw
  constructor
  · intro h u v he _ hu
    match u, hu with
    | a :: c :: u, _ =>
      obtain ⟨rfl, rfl⟩ := List.cons.inj he
      obtain ⟨hstart, hk⟩ := h (c :: u) v (by simp) rfl
      have hcut : IsText ((b :: c :: u) ++ v) := hall
      exact (hknown _ (hcut.of_append hstart).1).1 hk
  · rintro h u v hu rfl
    cases v with
    | nil =>
      rw [List.append_nil] at hw hall
      exact ⟨rfl, (hknown _ hall).2 hw⟩
    | cons c v =>
      have hpos := List.length_pos_iff.2 hu
      have hloaded : loaded (b :: u) := by
        apply h (b :: u) (c :: v) rfl (by simp)
        rw [List.length_cons]
        omega
      -- a loaded part is a text, so the rest of the word begins with a character
      have hu := htext _ hloaded
      exact ⟨(IsText.right_of_append hall hu).startsCharacter, (hknown _ hu).2 hloaded⟩

/-- The words that the scanner takes as a whole, among those that are known. -/
theorem takenWhole_iff {known : Bytes → Bool} {loaded : Bytes → Prop} {w : Bytes} (hne : w ≠ [])
    (hknown : ∀ u, IsText u → (known u = true ↔ loaded u)) (htext : ∀ u, loaded u → IsText u)
    (hw : loaded w) : TakenWhole known w ↔ Whole loaded w := by
  obtain ⟨b, w, rfl⟩ := List.exists_cons_of_ne_nil hne
  constructor
  · rintro ⟨hbegins, hlength, hdecode⟩
    obtain ⟨hblank, hline, hblock⟩ := begins_cons_eq_false_iff.1 hbegins
    cases hb : Kind.ofByte b with
    | quoted =>
      obtain rfl := ofByte_eq_quoted_iff.1 hb
      rw [decode_quote_cons, List.cons_inj_right] at hdecode
      have hescapes := unescape_eq_self_iff.1 hdecode
      obtain ⟨hends, hquote⟩ :=
        (exists_foldlM_quotedStep_iff hescapes).1 ((length_eq_iff_of_quoted hb).1 hlength)
      exact .quoted hends hquote hescapes
    | number =>
      exact .number (ofByte_eq_number_iff.1 hb) ((length_eq_iff_of_number hb).1 hlength)
    | operator =>
      exact .operator (ofByte_eq_operator_iff.1 hb) hline hblock
        ((forall_known_iff hknown htext hw).1 ((length_eq_iff_of_operator hb).1 hlength))
    | plain =>
      obtain ⟨hdigit, hquote, hop⟩ := ofByte_eq_plain_iff.1 hb
      exact .plain hblank hdigit hquote hop ((length_eq_iff_of_plain hb).1 hlength)
  · intro h
    cases h with
    | plain hblank hdigit hquote hop hplain =>
      have hb := ofByte_eq_plain_iff.2 ⟨hdigit, hquote, hop⟩
      exact ⟨begins_cons_of_isOperator_eq_false hblank hop, (length_eq_iff_of_plain hb).2 hplain,
        decode_cons_of_ne hquote w⟩
    | operator hop hline hblock hparts =>
      have hb := ofByte_eq_operator_iff.2 hop
      have hquote : b ≠ quote := by
        rintro rfl
        cases hop
      refine ⟨?_, ?_, decode_cons_of_ne hquote w⟩
      · apply begins_cons_eq_false_iff.2
        exact ⟨isBlank_eq_false_of_ofByte_ne (by simp [hb]), hline, hblock⟩
      · apply (length_eq_iff_of_operator hb).2
        exact (forall_known_iff hknown htext hw).2 hparts
    | number hdigit hnumber =>
      have hb := ofByte_eq_number_iff.2 hdigit
      have hquote : b ≠ quote := by
        rintro rfl
        cases hdigit
      have hop : isOperator b = false := by
        rw [← Bool.not_eq_true, ← ofByte_eq_operator_iff, hb]
        nofun
      have hblank := isBlank_eq_false_of_ofByte_ne (b := b) (by simp [hb])
      exact ⟨begins_cons_of_isOperator_eq_false hblank hop, (length_eq_iff_of_number hb).2 hnumber,
        decode_cons_of_ne hquote w⟩
    | quoted hends hquote hescapes =>
      refine ⟨rfl, ?_, ?_⟩
      · apply (length_eq_iff_of_quoted rfl).2
        exact (exists_foldlM_quotedStep_iff hescapes).2 ⟨hends, hquote⟩
      · rw [decode_quote_cons, unescape_eq_self_iff.2 hescapes]

end Word

/-! ## Sources of one word -/

namespace Cut

variable {known : Bytes → Bool} {word : String}

/-- A source that the scanner takes as a whole is cut into one lexeme. -/
theorem of_takenWhole (hne : word ≠ "") (h : Word.TakenWhole known (Bytes.ofText word)) :
    Cut known word [] [⟨Bytes.ofText word, []⟩] := by
  have hbytes : Lexeme.bytes ⟨Bytes.ofText word, []⟩ = Bytes.ofText word := List.append_nil _
  have htake : Lexeme.take known false (Bytes.ofText word) = (⟨Bytes.ofText word, []⟩, []) := by
    have htake := @Lexeme.take_false_eq known [] ⟨Bytes.ofText word, []⟩
    rw [hbytes, List.append_nil] at htake
    exact htake h.length_eq (Gap.scan_of_next?_eq_none rfl)
  constructor
  · rw [List.flatMap_singleton, hbytes]
    exact Gap.scan_of_next?_eq_none (Gap.next?_eq_none_iff.2 h.begins_eq)
  · rw [List.flatMap_singleton, hbytes]
    exact .cons h.begins_eq (fun hnil => hne (Text.ofText_injective hnil)) htake .nil

/-- A source is taken as a whole if it is cut into one lexeme with its text and no gaps. -/
theorem takenWhole {gap : List GapItem} {l : Lexeme} (h : Cut known word gap [l])
    (hgap : Bytes.toText (Gap.bytes gap) = "") (hsep : Bytes.toText l.separator = "")
    (htext : l.text = word) : Word.TakenWhole known (Bytes.ofText word) := by
  obtain ⟨hword, hseparator⟩ := h.isText l (List.mem_singleton_self l)
  have hnone := hseparator.eq_nil_of_toText hsep
  have hbytes : l.word = Bytes.ofText word := by
    have hall := h.bytes_eq
    rw [h.isText_gap.eq_nil_of_toText hgap, List.flatMap_singleton, Lexeme.bytes, hnone,
      List.append_nil] at hall
    exact hall
  have hlexed := h.lexed
  rw [List.flatMap_singleton, Lexeme.bytes, hnone, List.append_nil, hbytes] at hlexed
  generalize hs : Bytes.ofText word = s at hlexed hbytes ⊢
  cases hlexed with
  | cons hbegins _ htake _ =>
    refine ⟨hbegins, ?_, ?_⟩
    · rw [Lexeme.length_of_take htake, hbytes]
    · rw [← hbytes, ← Lexeme.ofText_text hword, htext, hs, hbytes]

end Cut

namespace Stream

/-- The stream of a keyword and nothing else: head, keyword and terminator, without any gap. -/
def IsKeyword (stream : Stream) (word : String) (id : Int) : Prop :=
  ∃ head token last, stream.tokens.toList = [head, token, last] ∧
    (head.kind = .leading ∧ head.separator = "") ∧
    (token.kind = .keyword ∧ token.text = word ∧ token.separator = "" ∧ token.id = id) ∧
    last.kind = .terminator

/-- The spelling of a keyword is scanned as the keyword if the scanner takes it as a whole. -/
theorem exists_isKeyword_iff {v : Vocabulary} {word : String} (hne : word ≠ "")
    (hhead : v.classify true "" = (.leading, -1)) (hword : 0 < v.keywords.lookup word) :
    (∃ stream, Stream.tokenize v word = some stream ∧
      stream.IsKeyword word (v.keywords.lookup word)) ↔
      Word.TakenWhole v.knows (Bytes.ofText word) := by
  constructor
  · rintro ⟨stream, hstream, head, token, last, hlist, ⟨-, hgap⟩, ⟨-, htext, hsep, -⟩, -⟩
    obtain ⟨gap, ls, hcut, rfl⟩ := Stream.exists_cut hstream
    rw [Vocabulary.toList_stream] at hlist
    have hone : ls.length = 1 := by
      have hlength := congrArg List.length hlist
      simpa [Vocabulary.length_tokens] using hlength
    obtain ⟨l, rfl⟩ := List.length_eq_one_iff.1 hone
    obtain ⟨rfl, hrest⟩ := List.cons.inj hlist
    obtain ⟨rfl, -⟩ := List.cons.inj hrest
    exact hcut.takenWhole hgap hsep htext
  · intro h
    have hcut := Cut.of_takenWhole hne h
    refine ⟨_, hcut.tokenize_eq hne, _, _, _, Vocabulary.toList_stream _ _ _ _, ?_, ?_, rfl⟩
    · rw [Vocabulary.token_head hhead]
      exact ⟨rfl, rfl⟩
    · have htext : Lexeme.text ⟨Bytes.ofText word, []⟩ = word := by
        rw [Lexeme.text, h.decode_eq, Text.toText_ofText]
      have hclass : v.classify false word = (.keyword, v.keywords.lookup word) := if_pos hword
      simp only [Vocabulary.token, htext, hclass, true_and, and_true]
      rfl

end Stream

/-! ## Keywords -/

namespace Keyword

/-- Whether bytes are those of a loaded spelling. -/
def Entries.Spells (entries : Entries) (w : Bytes) : Prop :=
  ∃ entry ∈ entries, Bytes.ofText entry.1 = w

instance (entries : Entries) (w : Bytes) : Decidable (entries.Spells w) :=
  inferInstanceAs (Decidable (∃ entry ∈ entries, Bytes.ofText entry.1 = w))

variable {spellings : Spellings} {w : Bytes}

theorem Entries.Spells.isText {entries : Entries} (h : entries.Spells w) : IsText w := by
  obtain ⟨entry, -, rfl⟩ := h
  exact Bytes.isText_ofText entry.1

theorem knows_toText_iff (hw : IsText w) :
    (populate spellings).entries.knows (Bytes.toText w) = true ↔
      (populate spellings).entries.Spells w := by
  rw [knows_populate_iff, List.mem_map]
  constructor
  · rintro ⟨entry, hentry, htext⟩
    exact ⟨entry, hentry, by rw [htext, hw.ofText_toText]⟩
  · rintro ⟨entry, hentry, rfl⟩
    exact ⟨entry, hentry, (Text.toText_ofText entry.1).symm⟩

end Keyword

namespace Stream

/-- Whether the spelling of a keyword is scanned as the keyword depends on keywords alone. -/
theorem exists_isKeyword_afterCommands_iff {spellings : Keyword.Spellings} (limit : Nat)
    (commands : List Constant.Command) {word : String} {id : Int}
    (h : (word, id) ∈ (Keyword.populate spellings).entries) :
    (∃ stream, Stream.tokenize (.afterCommands spellings limit commands) word = some stream ∧
      stream.IsKeyword word id) ↔
      Word.TakenWhole (fun w => (Keyword.populate spellings).entries.knows (Bytes.toText w))
        (Bytes.ofText word) := by
  have hordered := Keyword.ordered_populate spellings
  obtain ⟨hne, hlow, -⟩ : word ≠ "" ∧ 2000 ≤ id ∧ id < 2400 := hordered.spelled _ h
  have hid : (Vocabulary.afterCommands spellings limit commands).keywords.lookup word = id :=
    Keyword.Entries.lookup_eq_iff.2 (Or.inl h)
  have hpos : 0 < (Vocabulary.afterCommands spellings limit commands).keywords.lookup word := by
    rw [hid]
    omega
  rw [← hid]
  exact exists_isKeyword_iff hne Vocabulary.classify_head hpos

/-- Which keywords scan to themselves: the stream of the spelling of a keyword is that keyword and
nothing else just if the spelling is a whole word, whatever constants there are. -/
theorem tokenize_keyword_iff (spellings : Keyword.Spellings) (limit : Nat)
    (commands : List Constant.Command) {word : String} {id : Int}
    (h : (word, id) ∈ (Keyword.populate spellings).entries) :
    (∃ stream, Stream.tokenize (.afterCommands spellings limit commands) word = some stream ∧
      stream.IsKeyword word id) ↔
      Word.Whole (Keyword.populate spellings).entries.Spells (Bytes.ofText word) := by
  rw [exists_isKeyword_afterCommands_iff limit commands h]
  apply Word.takenWhole_iff
  · intro hnil
    exact ((Keyword.ordered_populate spellings).spelled _ h).1 (Text.ofText_injective hnil)
  · intro u hu
    exact Keyword.knows_toText_iff hu
  · intro u hu
    exact hu.isText
  · exact ⟨_, h, rfl⟩

/-- The longest standard operator scans to itself, since both parts on the way to it are operators.
The ellipsis does not, since two points are none. -/
theorem tokenize_longest_operator :
    (∃ stream, Stream.tokenize (.afterCommands Keyword.standard 0 []) ">>>=" = some stream ∧
        stream.IsKeyword ">>>=" 2325) ∧
      ¬∃ stream, Stream.tokenize (.afterCommands Keyword.standard 0 []) "..." = some stream ∧
        stream.IsKeyword "..." 2306 := by
  obtain ⟨hshift, hdots, hparts, htwo⟩ :
      (">>>=", 2325) ∈ (Keyword.populate Keyword.standard).entries ∧
      ("...", 2306) ∈ (Keyword.populate Keyword.standard).entries ∧
      (∀ u ∈ List.inits [0x3e, 0x3e, 0x3e, 0x3d], 2 ≤ u.length → u.length < 4 →
        (Keyword.populate Keyword.standard).entries.Spells u) ∧
      ¬(Keyword.populate Keyword.standard).entries.Spells [0x2e, 0x2e] := by decide +kernel
  rw [tokenize_keyword_iff Keyword.standard 0 [] hshift,
    tokenize_keyword_iff Keyword.standard 0 [] hdots]
  constructor
  · have hbytes : Bytes.ofText ">>>=" = [0x3e, 0x3e, 0x3e, 0x3d] := by decide +kernel
    rw [hbytes]
    apply Word.Whole.operator rfl (by decide) (by decide)
    intro u v he hv hu
    have hlength := congrArg List.length he
    have hpos := List.length_pos_iff.2 hv
    rw [List.length_append] at hlength
    apply hparts u ((List.mem_inits _ _).2 ⟨v, he.symm⟩) hu
    show u.length < [0x3e, 0x3e, 0x3e, 0x3d].length
    omega
  · intro h
    have hbytes : Bytes.ofText "..." = [0x2e, 0x2e, 0x2e] := by decide +kernel
    rw [hbytes] at h
    cases h with
    | plain _ _ _ hop _ => cases hop
    | operator _ _ _ hparts => exact htwo (hparts [0x2e, 0x2e] [0x2e] rfl (by simp) (Nat.le_refl _))
    | number hdigit _ => cases hdigit

/-- The standard keywords scan to themselves, except for the ellipsis: two points are no keyword. -/
theorem tokenize_standard_iff (limit : Nat) (commands : List Constant.Command) {word : String}
    {id : Int} (h : (word, id) ∈ (Keyword.populate Keyword.standard).entries) :
    (∃ stream, Stream.tokenize (.afterCommands Keyword.standard limit commands) word = some stream ∧
      stream.IsKeyword word id) ↔ word ≠ "..." := by
  have hall : ∀ entry ∈ (Keyword.populate Keyword.standard).entries,
      Word.TakenWhole (fun w => (Keyword.populate Keyword.standard).entries.knows (Bytes.toText w))
        (Bytes.ofText entry.1) ↔ entry.1 ≠ "..." := by
    decide +kernel
  rw [exists_isKeyword_afterCommands_iff limit commands h]
  exact hall _ h

end Stream

end RobotScript
