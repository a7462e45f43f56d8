import RobotScript.Proofs.Loading
import RobotScript.Proofs.OpenStrings

/-!
# Marks of comments in words

Words are taken before comments are looked for, so it is up to the words that none of them goes over
the two bytes that open a comment. A slash can be in a quoted word, and else just at the front of an
operator: numbers have no slash, other words end before one, and an operator grows by a slash only
if a spelling with that slash is loaded. A slash at the front of a word opens no comment, since the
comment would have been taken into the gap before the word.

Results:

* `Word.slash_notMem_of_length_append`: a word that is not quoted has no slash after its first byte.
* `Lexeme.TakenFrom.opensNoComment`: what follows a slash of such a word at its place in a source.
* `Stream.tokenize_opens_no_comment`: no such word of a stream goes over the opening of a comment.
-/

namespace RobotScript

open Bytes (IsText)
open Gap (slash star)

/-! ## Spellings with a slash -/

/-- No loaded spelling that begins like an operator has a slash after its first byte. -/
def Keyword.Entries.SlashFirst (entries : Keyword.Entries) : Prop :=
  ∀ entry ∈ entries, (∃ b ∈ (Bytes.ofText entry.1).head?, Word.isOperator b = true) →
    slash ∉ (Bytes.ofText entry.1).tail

instance (entries : Keyword.Entries) : Decidable entries.SlashFirst :=
  inferInstanceAs (Decidable (∀ entry ∈ entries.ordered, _ → _ ∉ _))

theorem Keyword.Entries.exists_of_knows {entries : Keyword.Entries} {word : String}
    (h : entries.knows word = true) : ∃ entry ∈ entries, entry.1 = word := by
  rw [knows, decide_eq_true_iff] at h
  rcases lookup_eq_iff.1 (Eq.refl (entries.lookup word)) with hmem | ⟨hid, -⟩
  · exact ⟨_, hmem, rfl⟩
  · omega

/-- Among spellings of this form, an operator that is known has its slash at the front. -/
theorem Keyword.Entries.SlashFirst.slash_notMem {v : Vocabulary} (h : v.keywords.SlashFirst)
    {b : UInt8} {w : Bytes} (ht : IsText (b :: w)) (hb : Word.isOperator b = true)
    (hknown : v.knows (b :: w) = true) : slash ∉ w := by
  obtain ⟨entry, hentry, htext⟩ := exists_of_knows hknown
  have hbytes : Bytes.ofText entry.1 = b :: w := by rw [htext, ht.ofText_toText]
  have hslash := h entry hentry
  rw [hbytes] at hslash
  exact hslash ⟨b, rfl, hb⟩

/-! ## Words with a slash -/

namespace Word

theorem numberStep_slash (state : NumberState) : numberStep state slash = none := by
  cases state with
  | decimal point exponent => cases point <;> cases exponent <;> rfl
  | sign point => cases point <;> rfl
  | hexadecimal => rfl

theorem slash_notMem_of_numberRun {w : Bytes} {state : NumberState}
    (h : numberRun w = some state) : slash ∉ w := by
  have hsteps : ∀ {w : Bytes} {first : NumberState}, w.foldlM numberStep first = some state →
      slash ∉ w := by
    intro w first hrun hslash
    refine forall_of_foldlM (P := fun b => b ≠ slash) (fun state b next hstep => ?_) hrun slash
      hslash rfl
    rintro rfl
    rw [numberStep_slash] at hstep
    cases hstep
  unfold numberRun at h
  split at h
  · split at h
    · rename_i a b rest hmark
      simp only [Bool.and_eq_true, beq_iff_eq] at hmark
      obtain ⟨rfl, rfl⟩ := hmark
      simp only [List.mem_cons, not_or]
      exact ⟨by decide, by decide, hsteps h⟩
    · exact hsteps h
  · exact hsteps h

/-- A word that is not quoted has no slash after its first byte. -/
theorem slash_notMem_of_length_append {v : Vocabulary} (h : v.keywords.SlashFirst) {b : UInt8}
    {w rest : Bytes} (ht : IsText (b :: w)) (hquote : b ≠ quote)
    (hlen : length v.knows (b :: w ++ rest) = (b :: w).length) : slash ∉ w := by
  cases hb : Kind.ofByte b with
  | quoted => exact absurd (ofByte_eq_quoted_iff.1 hb) hquote
  | number =>
    obtain ⟨⟨state, hrun, -⟩, -⟩ := (length_append_iff_of_number hb).1 hlen
    exact fun hslash => slash_notMem_of_numberRun hrun (List.mem_cons_of_mem b hslash)
  | operator =>
    have hop := isOperator_of_ofByte_eq_operator hb
    obtain ⟨hgrow, -⟩ :=
      (operatorLength_append_iff [b] w rest).1 ((length_append_iff_of_operator hb).1 hlen)
    by_cases hw : w = []
    · simp [hw]
    · have hknown := (hgrow w [] hw (List.append_nil w).symm).2
      exact h.slash_notMem ht hop hknown
  | plain =>
    obtain ⟨hall, -⟩ := (length_append_iff_of_plain hb).1 hlen
    intro hslash
    have hboundary := hall slash (List.mem_cons_of_mem b hslash)
    exact absurd hboundary (by decide)

end Word

/-! ## Places in a source -/

theorem Span.contains_iff {s : Span} {offset : Nat} :
    s.contains offset = true ↔ s.start ≤ offset ∧ offset < s.stop := by
  simp [contains]

/-- No slash in the range of a token opens a comment in the source. -/
def Token.OpensNoComment (source : String) (t : Token) : Prop :=
  ∀ offset, t.span.contains offset = true → (Bytes.ofText source)[offset]? = some slash →
    ∀ b ∈ (Bytes.ofText source)[offset + 1]?, b ≠ slash ∧ b ≠ star

theorem Token.opensNoComment_of_isEmpty {source : String} {t : Token}
    (h : t.span.isEmpty = true) : t.OpensNoComment source := by
  intro offset hoffset
  obtain ⟨hstart, hstop⟩ := Span.contains_iff.1 hoffset
  have hends : t.span.start = t.span.stop := beq_iff_eq.1 h
  omega

/-- Where no gap begins, a slash at the front is followed by none of the bytes that open a comment
with it. -/
theorem Gap.ne_of_begins_eq_false {s : Bytes} (h : begins (slash :: s) = false) :
    ∀ b ∈ s.head?, b ≠ slash ∧ b ≠ star := by
  intro b hb
  simp only [begins, Option.mem_def.1 hb, Bool.or_eq_false_iff] at h
  simpa using h.2

/-- A word that is not quoted has a slash at its front only, and there it opens no comment. -/
theorem Lexeme.TakenFrom.opensNoComment {v : Vocabulary} {source : String} {pre post : Bytes}
    {l : Lexeme} (h : l.TakenFrom v.knows source pre post) (hv : v.keywords.SlashFirst)
    (hquote : l.word.head? ≠ some Word.quote) :
    (v.token false pre.length l).OpensNoComment source := by
  obtain ⟨b, w, hword⟩ := List.exists_cons_of_ne_nil h.word_ne_nil
  obtain ⟨htext, -, -⟩ := Lexeme.isText_of_take h.isText h.take_eq
  have hlen := Lexeme.length_of_take h.take_eq
  have hbegins := h.begins_eq_false
  have hsource := h.bytes_eq
  rw [Lexeme.bytes, List.append_assoc, hword] at hlen hbegins hsource
  rw [hword] at htext hquote
  have hslash := Word.slash_notMem_of_length_append hv htext (by simpa using hquote) hlen
  intro offset hoffset
  obtain ⟨hstart, hstop⟩ := Span.contains_iff.1 hoffset
  obtain ⟨i, rfl⟩ := Nat.exists_eq_add_of_le hstart
  have hi : i < (b :: w).length := by
    rw [← hword]
    exact Nat.add_lt_add_iff_left.1 hstop
  show (Bytes.ofText source)[pre.length + i]? = _ →
    ∀ c ∈ (Bytes.ofText source)[pre.length + i + 1]?, _
  rw [hsource, Nat.add_assoc, List.getElem?_append_right (Nat.le_add_right _ _),
    List.getElem?_append_right (Nat.le_add_right _ _), Nat.add_sub_cancel_left,
    Nat.add_sub_cancel_left]
  intro hget
  cases i with
  | zero =>
    obtain rfl : b = slash := Option.some.inj hget
    rw [Nat.zero_add, List.cons_append, List.getElem?_cons_succ, ← List.head?_eq_getElem?]
    exact Gap.ne_of_begins_eq_false hbegins
  | succ i =>
    rw [List.getElem?_append_left hi, List.getElem?_cons_succ] at hget
    exact absurd (List.mem_of_getElem? hget) hslash

/-- Words do not go over the opening of a comment. The standard keywords have a slash at the front
of operators only. With these, or any others of this form, and any constants, a slash of a word is
not followed by another slash or a star in the source, unless the word is quoted. -/
theorem Stream.tokenize_opens_no_comment :
    (Keyword.populate Keyword.standard).entries.SlashFirst ∧
    ∀ (v : Vocabulary) (source : String), v.keywords.SlashFirst →
      match Stream.tokenize v source with
      | none => source = ""
      | some stream => ∀ t ∈ stream.tokens.toList, ∃ word, t.word? source = some word ∧
        (word.head? ≠ some Word.quote → t.OpensNoComment source) := by
  refine ⟨by decide +kernel, fun v source hv => ?_⟩
  by_cases hne : source = ""
  · subst hne
    rfl
  obtain ⟨gap, ls, hcut⟩ := Cut.exists_cut v.knows source
  simp only [hcut.tokenize_eq hne]
  intro t ht
  rw [Vocabulary.toList_stream, List.mem_cons, List.mem_append, List.mem_singleton] at ht
  rcases ht with rfl | ht | rfl
  · refine ⟨[], ?_, fun _ => Token.opensNoComment_of_isEmpty rfl⟩
    have hbytes : Bytes.ofText source = [] ++ Lexeme.bytes ⟨[], gap⟩ ++ ls.flatMap Lexeme.bytes :=
      hcut.bytes_eq.symm
    exact Vocabulary.word?_token hbytes IsText.nil hcut.isText_gap
      (Lexeme.isText_flatMap_bytes hcut.isText)
  · obtain ⟨pre, l, post, htaken, rfl⟩ := hcut.exists_takenFrom t ht
    obtain ⟨hword, hsep, hpost⟩ := Lexeme.isText_of_take htaken.isText htaken.take_eq
    have hbytes := htaken.bytes_eq
    rw [← List.append_assoc] at hbytes
    exact ⟨l.word, Vocabulary.word?_token hbytes hword hsep hpost, htaken.opensNoComment hv⟩
  · refine ⟨[], ?_, fun _ => Token.opensNoComment_of_isEmpty (beq_self_eq_true _)⟩
    rw [Token.word?, Token.slice?_terminator]
    rfl

/-- A star before a slash is an operator of its own, a slash before an equals sign begins one, and a
slash before another is the start of a gap. -/
theorem Stream.tokenize_opens_no_comment_standard :
    let v : Vocabulary := ⟨(Keyword.populate Keyword.standard).entries, .empty⟩
    let source := "a*/b/=\"//\"=//c"
    v.keywords.SlashFirst ∧ ∃ stream, Stream.tokenize v source = some stream ∧
      stream.tokens.toList.map Token.text = ["", "a", "*", "/", "b", "/=", "\"//\"", "=", ""] ∧
      ∀ t ∈ stream.tokens.toList, ∃ word, t.word? source = some word ∧
        (word.head? ≠ some Word.quote → t.OpensNoComment source) := by
  intro v source
  obtain ⟨hv, hall⟩ := Stream.tokenize_opens_no_comment
  have htokens : (Stream.tokenize v source).map (fun stream => stream.tokens.toList.map Token.text) =
      some ["", "a", "*", "/", "b", "/=", "\"//\"", "=", ""] := by decide +kernel
  obtain ⟨stream, hstream, htexts⟩ := Option.map_eq_some_iff.1 htokens
  have hmarks := hall v source
  rw [hstream] at hmarks
  -- the keywords of `v` in the form of `hv`, before any of them is computed
  dsimp only [v] at hmarks ⊢
  exact ⟨hv, stream, hstream, htexts, hmarks hv⟩

/-- An operator with a slash at its end takes the first slash of a comment after it. -/
example : (Stream.tokenize ⟨.insert .empty "=/" 2300 (by decide), .empty⟩ "=//c").map
    (fun stream => stream.tokens.toList.map Token.text) = some ["", "=/", "/", "c", ""] := by
  decide +kernel

end RobotScript
