import RobotScript.Proofs.StreamShape

/-!
# Layout

Words stay the same when white space and comments are replaced by line breaks: a line break ends a
word where white space, a comment or another word ended it, and no comment begins where there was
none. Two things could go wrong and do not: a lone backslash at the end of a literal takes the line
break, but such a literal is the last word, and has none after it; and a line break could be part of
an operator, but not of a known one.

Results:

* `Word.length_append_of_breaks`: a word that ends at some bytes ends at a line break.
* `Lexed.onLines`: the lexemes of words on lines of their own.
* `Stream.tokenize_onLines`: the words of the source that has each word on a line of its own.
-/

namespace RobotScript

open Bytes (IsText)

namespace Word

/-! ## Where words end -/

/-- The line feed. -/
def newline : UInt8 := Bytes.ascii '\n'

/-- What comes after a word in a source is replaced by nothing, or by a line break if there was
something. -/
def Breaks (rest rest' : Bytes) : Prop := rest' = [] ∨ rest ≠ [] ∧ rest'.head? = some newline

variable {known : Bytes → Bool} {rest rest' : Bytes}

/-- A machine that halts before the end, and before each byte, halts before a line break if it does
so in each state in which it halts before some byte. -/
theorem Halts.of_breaks {σ : Type} {step : σ → UInt8 → Option σ} {state : σ}
    (h : Halts step state rest) (hr : Breaks rest rest')
    (hstep : ∀ b, step state b = none → step state newline = none) : Halts step state rest' := by
  intro c hc
  obtain rfl | ⟨hne, hhead⟩ := hr
  · cases hc
  · obtain ⟨b, tail, rfl⟩ := List.exists_cons_of_ne_nil hne
    obtain rfl := Option.some.inj (hhead.symm.trans hc)
    exact hstep b (h b rfl)

theorem quotedStep_newline {state : QuotedState} {b : UInt8} (h : quotedStep state b = none) :
    quotedStep state newline = none := by
  cases state with
  | body => rfl
  | escaped => cases h
  | closed => rfl

theorem numberStep_newline (state : NumberState) : numberStep state newline = none := by
  cases state with
  | decimal point exponent => rfl
  | sign point => rfl
  | hexadecimal => rfl

theorem Breaks.startsCharacter (hr : Breaks rest rest') : Bytes.startsCharacter rest' = true := by
  obtain rfl | ⟨-, hhead⟩ := hr
  · rfl
  · obtain ⟨tail, rfl⟩ := List.head?_eq_some_iff.1 hhead
    exact Bytes.startsCharacter_of_lt (by decide)

theorem Breaks.head?_ne (hr : Breaks rest rest') {b : UInt8} (hb : b ≠ newline) :
    rest'.head? ≠ some b := by
  intro h
  obtain rfl | ⟨-, hhead⟩ := hr
  · cases h
  · exact hb (Option.some.inj (h.symm.trans hhead))

/-- A line break stops a word where the end or any byte stops it, unless it makes an operator. -/
theorem Breaks.stopsLike (hr : Breaks rest rest') {w : Bytes}
    (hw : known (w ++ [newline]) = false) : StopsLike known w rest rest' where
  quoted hhalts := hhalts.of_breaks hr fun _ => quotedStep_newline
  number hhalts := hhalts.of_breaks hr fun _ _ => numberStep_newline _
  hexadecimal hx := absurd hx (hr.head?_ne (by decide))
  plain _ c hc := by
    obtain rfl | ⟨-, hhead⟩ := hr
    · cases hc
    · obtain rfl := Option.some.inj (hhead.symm.trans hc)
      rfl
  starts _ := hr.startsCharacter
  operator _ c r he := by
    rintro ⟨-, hc⟩
    obtain hnil | ⟨-, hhead⟩ := hr
    · rw [he] at hnil
      cases hnil
    · rw [he] at hhead
      obtain rfl := Option.some.inj hhead
      rw [hw] at hc
      cases hc

/-- A word that ends at some bytes ends at a line break in their place. -/
theorem length_append_of_breaks (hknown : ∀ w, IsText w → known (w ++ [newline]) = false)
    {w : Bytes} (hne : w ≠ []) (hw : IsText w) (hr : Breaks rest rest')
    (h : length known (w ++ rest) = w.length) : length known (w ++ rest') = w.length :=
  length_append_of_stopsLike hne (hr.stopsLike (hknown w hw)) h

end Word

/-! ## Words on lines of their own -/

open Word (newline)

/-- Lexemes with their words, and a line break between any two of them. -/
def Lexeme.onLines : List Lexeme → List Lexeme
  | [] => []
  | [l] => [⟨l.word, []⟩]
  | l :: next :: ls => ⟨l.word, [.blank [newline]]⟩ :: onLines (next :: ls)

theorem Lexeme.map_word_onLines (ls : List Lexeme) : (onLines ls).map word = ls.map word := by
  fun_induction onLines ls with
  | case1 => rfl
  | case2 l => rfl
  | case3 l next ls ih => rw [List.map_cons, List.map_cons, ih]

theorem Lexeme.onLines_cons_ne_nil (l : Lexeme) (ls : List Lexeme) : onLines (l :: ls) ≠ [] := by
  cases ls <;> exact List.cons_ne_nil _ _

/-- A line break is the whole gap before a word. -/
theorem Gap.scan_newline {rest : Bytes} (h : begins rest = false) :
    scan (newline :: rest) = ([.blank [newline]], rest) := by
  have hnext : next? (newline :: rest) = some (.blank [newline], rest) := by
    have hblank : Word.isBlank newline = true := by decide
    cases rest with
    | nil => rfl
    | cons b rest =>
      have hb := isBlank_eq_false_of_begins h
      rw [next?, if_pos hblank]
      simp [hb]
  rw [scan_of_next?_eq_some hnext, scan_of_next?_eq_none (next?_eq_none_iff.2 h)]

namespace Lexed

variable {known : Bytes → Bool} {s : Bytes} {ls : List Lexeme}

/-- A word is taken with another gap if that begins with a line break, or if it is empty at the
end. -/
theorem cons_of_breaks (hknown : ∀ w, IsText w → known (w ++ [newline]) = false)
    {l : Lexeme} {rest rest' : Bytes} {gap : List GapItem} (hbegins : Gap.begins s = false)
    (hne : l.word ≠ []) (hword : IsText l.word) (htake : Lexeme.take known false s = (l, rest))
    (hr : Word.Breaks (l.separator ++ rest) (Gap.bytes gap ++ rest'))
    (hgap : Gap.scan (Gap.bytes gap ++ rest') = (gap, rest')) (hrest : Lexed known rest' ls) :
    Lexed known (Lexeme.bytes ⟨l.word, gap⟩ ++ rest') (⟨l.word, gap⟩ :: ls) := by
  have hs := Lexeme.bytes_append_of_take htake
  have hlen := Lexeme.length_of_take htake
  rw [Lexeme.bytes, List.append_assoc] at hs
  rw [← hs] at hbegins hlen
  have hlen' := Word.length_append_of_breaks hknown hne hword hr hlen
  have hbegins' : Gap.begins (l.word ++ (Gap.bytes gap ++ rest')) = false := by
    refine Gap.begins_append_congr hne hbegins ?_ ?_
    · exact hr.head?_ne (by decide)
    · exact hr.head?_ne (by decide)
  rw [← List.append_assoc] at hbegins' hlen'
  exact .cons hbegins' hne (Lexeme.take_false_eq hlen' hgap) hrest

/-- Words on lines of their own are taken as the same words. -/
theorem onLines (hknown : ∀ w, IsText w → known (w ++ [newline]) = false) (h : Lexed known s ls)
    (hs : ∀ l ∈ ls, IsText l.word) :
    Lexed known ((Lexeme.onLines ls).flatMap Lexeme.bytes) (Lexeme.onLines ls) := by
  induction h with
  | nil => exact .nil
  | @cons s rest l ls hbegins hne htake hrest ih =>
    obtain ⟨hword, hwords⟩ := List.forall_mem_cons.1 hs
    have ih := ih hwords
    cases ls with
    | nil =>
      have hend : Gap.scan [] = ([], []) := Gap.scan_of_next?_eq_none rfl
      exact cons_of_breaks hknown hbegins hne hword htake (Or.inl rfl) hend .nil
    | cons next ls =>
      refine cons_of_breaks hknown hbegins hne hword htake (Or.inr ⟨?_, rfl⟩) ?_ ih
      · exact List.append_ne_nil_of_right_ne_nil _ hrest.ne_nil
      · exact Gap.scan_newline ih.begins_eq_false

end Lexed

/-! ## The source with words on lines of their own -/

/-- The text of words on lines of their own. -/
def Lexeme.lines (ls : List Lexeme) : String :=
  "\n".intercalate (ls.map fun l => Bytes.toText l.word)

theorem Lexeme.ofText_lines {ls : List Lexeme} (h : ∀ l ∈ ls, IsText l.word) :
    Bytes.ofText (lines ls) = (onLines ls).flatMap bytes := by
  unfold lines
  fun_induction onLines ls with
  | case1 => rfl
  | case2 l =>
    rw [List.map_singleton, String.intercalate_singleton, (h l (by simp)).ofText_toText]
    simp [bytes, separator, Gap.bytes]
  | case3 l next ls ih =>
    obtain ⟨hword, hwords⟩ := List.forall_mem_cons.1 h
    have ih := ih hwords
    rw [List.map_cons] at ih
    rw [List.map_cons, List.map_cons, String.intercalate_cons_cons, Text.ofText_append,
      Text.ofText_append, ih, hword.ofText_toText, List.flatMap_cons]
    rfl

/-- The source with the words of a source on lines of their own is cut into these words. -/
theorem Cut.onLines {known : Bytes → Bool} {source : String} {gap : List GapItem}
    {ls : List Lexeme} (hknown : ∀ w, IsText w → known (w ++ [newline]) = false)
    (h : Cut known source gap ls) : Cut known (Lexeme.lines ls) [] (Lexeme.onLines ls) := by
  have hwords : ∀ l ∈ ls, IsText l.word := fun l hl => (h.isText l hl).1
  have hlexed := h.lexed.onLines hknown hwords
  refine ⟨?_, hlexed⟩
  rw [Lexeme.ofText_lines hwords]
  exact Gap.scan_of_next?_eq_none (Gap.next?_eq_none_iff.2 hlexed.begins_eq_false)

theorem Cut.lines_ne_empty {known : Bytes → Bool} {source : String} {gap : List GapItem}
    {ls : List Lexeme} (hknown : ∀ w, IsText w → known (w ++ [newline]) = false)
    (h : Cut known source gap ls) (hls : ls ≠ []) : Lexeme.lines ls ≠ "" := by
  intro hempty
  have hlexed := (h.onLines hknown).lexed
  rw [← Lexeme.ofText_lines fun l hl => (h.isText l hl).1, hempty] at hlexed
  obtain ⟨l, ls, rfl⟩ := List.exists_cons_of_ne_nil hls
  obtain ⟨m, ms, hm⟩ := List.exists_cons_of_ne_nil (Lexeme.onLines_cons_ne_nil l ls)
  rw [hm] at hlexed
  exact hlexed.ne_nil rfl

/-- What a token is apart from its place. -/
def Token.shown (t : Token) : String × TokenKind × Int := (t.text, t.kind, t.id)

namespace Vocabulary

variable {v : Vocabulary}

/-- No keyword ends in a line break if none has one. -/
theorem knows_append_newline (hv : ∀ entry ∈ v.keywords, '\n' ∉ entry.1.toList) (w : Bytes)
    (hw : IsText w) : v.knows (w ++ [newline]) = false := by
  obtain ⟨cs, rfl⟩ := hw
  have hbytes : Bytes.ofChars cs ++ [newline] = Bytes.ofChars (cs ++ ['\n']) := by
    rw [Bytes.ofChars_append]
    rfl
  have hlookup : v.keywords.lookup (String.ofList (cs ++ ['\n'])) = -1 := by
    refine Keyword.lookup_eq_neg_one fun entry hentry heq => hv entry hentry ?_
    simp [heq]
  rw [knows, hbytes, Bytes.toText_ofChars, Keyword.Entries.knows, hlookup]
  rfl

theorem map_shown_tokens (v : Vocabulary) (ls : List Lexeme) (offset : Nat) :
    (v.tokens offset ls).map Token.shown = (ls.map Lexeme.word).map fun w =>
      (Bytes.toText (Word.decode w), v.classify false (Bytes.toText (Word.decode w))) := by
  induction ls generalizing offset with
  | nil => rfl
  | cons l ls ih =>
    rw [tokens, List.map_cons, ih, List.map_cons, List.map_cons]
    rfl

end Vocabulary

/-- Layout does not matter to the words: if no keyword has a line break, then the slices of the
words, each on a line of its own, have a stream with the same words. -/
theorem Stream.tokenize_onLines (spellings : Keyword.Spellings) (limit : Nat)
    (commands : List Constant.Command) (source : String) (stream : Stream)
    (hkeywords : ∀ entry ∈ (Keyword.populate spellings).entries, '\n' ∉ entry.1.toList)
    (hstream : Stream.tokenize (.afterCommands spellings limit commands) source = some stream)
    (hwords : stream.words ≠ #[]) :
    ∃ slices joined, stream.words.toList.mapM (fun t => t.span.slice? source) = some slices ∧
      Stream.tokenize (.afterCommands spellings limit commands) ("\n".intercalate slices) =
        some joined ∧
      joined.words.toList.map Token.shown = stream.words.toList.map Token.shown := by
  generalize hv : Vocabulary.afterCommands spellings limit commands = v at hstream ⊢
  have hhead : v.classify true "" = (.leading, -1) := by
    rw [← hv]
    exact Vocabulary.classify_head
  have hknown : ∀ w, IsText w → v.knows (w ++ [newline]) = false := by
    rw [← hv]
    exact Vocabulary.knows_append_newline hkeywords
  have hne : source ≠ "" := by
    rintro rfl
    cases hstream
  obtain ⟨gap, ls, hcut⟩ := Cut.exists_cut v.knows source
  have hcut' := hcut.onLines hknown
  rw [Stream.tokenize, hcut.scan?_eq hne] at hstream
  cases hstream
  have hstream := hcut.words_stream hhead
  have hls : ls ≠ [] := by
    rintro rfl
    exact hwords (Array.toList_inj.1 hstream)
  have hlines : Lexeme.lines ls ≠ "" := hcut.lines_ne_empty hknown hls
  have hslices : (v.tokens (Gap.bytes gap).length ls).mapM (fun t => t.span.slice? source) =
      some (ls.map fun l => Bytes.toText l.word) :=
    Vocabulary.mapM_tokens (fun _ _ _ => Vocabulary.slice?_token) hcut.isText hcut.bytes_eq.symm
  have hjoined : Stream.tokenize v (Lexeme.lines ls) =
      some (v.stream [] (Lexeme.onLines ls) (Lexeme.lines ls).utf8ByteSize) := by
    rw [Stream.tokenize, hcut'.scan?_eq hlines]
    rfl
  refine ⟨_, _, by rw [hstream, hslices], hjoined, ?_⟩
  rw [hcut'.words_stream hhead, hstream, Vocabulary.map_shown_tokens, Vocabulary.map_shown_tokens,
    Lexeme.map_word_onLines]

/-- A source with the standard keywords, a comment and a literal without its closing quote. -/
theorem Stream.tokenize_onLines_standard :
    let v := Vocabulary.afterCommands Keyword.standard 0 []
    let source := "x<=1// y\n\"z"
    ∃ stream slices joined, Stream.tokenize v source = some stream ∧ stream.words.size = 4 ∧
      stream.words.toList.mapM (fun t => t.span.slice? source) = some slices ∧
      Stream.tokenize v ("\n".intercalate slices) = some joined ∧
      joined.words.toList.map Token.shown = stream.words.toList.map Token.shown := by
  intro v source
  have hkeywords : ∀ entry ∈ (Keyword.populate Keyword.standard).entries,
      '\n' ∉ entry.1.toList := by
    decide +kernel
  have hsize : (Stream.tokenize v source).map (fun stream => stream.words.size) = some 4 := by
    decide +kernel
  obtain ⟨stream, hstream, hwords⟩ := Option.map_eq_some_iff.1 hsize
  have hne : stream.words ≠ #[] := Array.ne_empty_of_size_pos (by omega)
  obtain ⟨slices, joined, h⟩ :=
    Stream.tokenize_onLines Keyword.standard 0 [] source stream hkeywords hstream hne
  exact ⟨stream, slices, joined, hstream, hwords, h⟩

end RobotScript
