import Mathlib.Algebra.GroupWithZero.Nat
import RobotScript.Proofs.Comments
import RobotScript.Proofs.History
import RobotScript.Proofs.StreamShape

/-!
# Counts of a source

A lexer counts the words of a source while it goes over the tokens of the stream. What it has
counted so far is what can be counted in the tokens so far, so in the end the counts are those of
the stream. Details are counted beside the rest, which does not depend on them.

Results:

* `Metrics.usesIn_recordUse`, `Metrics.map_fst_recordUse`, `Metrics.sum_recordUse`: one more use of
  a word.
* `Metrics.plain_record`: details leave the rest as it is.
* `Metrics.Counted.record`, `Metrics.Detailed.record`: one more token is counted.
* `Metrics.counted_foldl`, `Metrics.detailed_foldl`: all tokens are counted.
* `Cut.sum_extent`: the words and separators of a stream have all bytes of the source.
* `Lexer.findings_accounted`: the counts of a source, whatever was asked of the lexer before.
-/

namespace RobotScript

open Bytes (IsText)

/-! ## Uses of words -/

namespace Metrics

/-- How often a word was used. -/
def usesIn (usage : List (String × Nat)) (word : String) : Nat :=
  ((usage.find? fun use => use.1 == word).map Prod.snd).getD 0

theorem usesIn_cons (use : String × Nat) (usage : List (String × Nat)) (word : String) :
    usesIn (use :: usage) word = if use.1 = word then use.2 else usesIn usage word := by
  unfold usesIn
  by_cases h : use.1 = word
  · rw [if_pos h, List.find?_cons_of_pos (by simpa using h)]
    rfl
  · rw [if_neg h, List.find?_cons_of_neg (by simpa using h)]

theorem usesIn_recordUse (usage : List (String × Nat)) (word other : String) :
    usesIn (recordUse word usage) other =
      usesIn usage other + if word = other then 1 else 0 := by
  induction usage with
  | nil => exact (usesIn_cons (word, 1) [] other).trans (by split <;> rfl)
  | cons use usage ih =>
    rw [recordUse, usesIn_cons]
    by_cases hword : use.1 = word
    · rw [if_pos hword, usesIn_cons, hword]
      split <;> rfl
    · rw [if_neg hword, usesIn_cons, ih]
      by_cases hother : use.1 = other
      · rw [if_pos hother, if_pos hother, if_neg fun h => hword (hother.trans h.symm), Nat.add_zero]
      · rw [if_neg hother, if_neg hother]

/-- A word is added to the words at their end, unless it is among them. -/
theorem map_fst_recordUse (word : String) (usage : List (String × Nat)) :
    (recordUse word usage).map Prod.fst =
      if word ∈ usage.map Prod.fst then usage.map Prod.fst else usage.map Prod.fst ++ [word] := by
  induction usage with
  | nil => rfl
  | cons use usage ih =>
    unfold recordUse
    by_cases hword : use.1 = word
    · have hmem : word ∈ (use :: usage).map Prod.fst := hword ▸ List.mem_cons_self
      rw [if_pos hword, if_pos hmem]
      rfl
    · rw [if_neg hword, List.map_cons, List.map_cons, ih]
      by_cases hmem : word ∈ usage.map Prod.fst
      · rw [if_pos hmem, if_pos (List.mem_cons_of_mem _ hmem)]
      · have hnew : word ∉ use.1 :: usage.map Prod.fst :=
          List.not_mem_cons_of_ne_of_not_mem (Ne.symm hword) hmem
        rw [if_neg hmem, if_neg hnew]
        rfl

theorem nodup_recordUse {usage : List (String × Nat)} (h : (usage.map Prod.fst).Nodup)
    (word : String) : ((recordUse word usage).map Prod.fst).Nodup := by
  rw [map_fst_recordUse]
  by_cases hmem : word ∈ usage.map Prod.fst
  · rwa [if_pos hmem]
  · rw [if_neg hmem, List.nodup_append]
    refine ⟨h, List.nodup_singleton word, fun a ha b hb hab => hmem ?_⟩
    rwa [← List.mem_singleton.1 hb, ← hab]

theorem pos_recordUse {usage : List (String × Nat)} (h : ∀ use ∈ usage, 0 < use.2)
    (word : String) : ∀ use ∈ recordUse word usage, 0 < use.2 := by
  induction usage with
  | nil => simp [recordUse]
  | cons use usage ih =>
    obtain ⟨hfirst, hrest⟩ := List.forall_mem_cons.1 h
    rw [recordUse]
    split
    · exact List.forall_mem_cons.2 ⟨Nat.succ_pos _, hrest⟩
    · exact List.forall_mem_cons.2 ⟨hfirst, ih hrest⟩

theorem sum_recordUse (word : String) (usage : List (String × Nat)) :
    ((recordUse word usage).map Prod.snd).sum = (usage.map Prod.snd).sum + 1 := by
  induction usage with
  | nil => rfl
  | cons use usage ih =>
    rw [recordUse, List.map_cons, List.sum_cons]
    split
    · rw [List.map_cons, List.sum_cons]
      omega
    · rw [List.map_cons, List.sum_cons, ih, Nat.add_assoc]

/-- A word is in the list with a number just if it was used, and this is how often. -/
theorem mem_usage_iff {usage : List (String × Nat)} (hnodup : (usage.map Prod.fst).Nodup)
    (hpos : ∀ use ∈ usage, 0 < use.2) (word : String) (n : Nat) :
    (word, n) ∈ usage ↔ 0 < n ∧ n = usesIn usage word := by
  unfold usesIn
  constructor
  · intro h
    rw [(find?_eq_some_iff_of_nodup hnodup).2 ⟨h, rfl⟩]
    exact ⟨hpos _ h, rfl⟩
  · rintro ⟨hn, rfl⟩
    cases hfind : usage.find? fun use => use.1 == word with
    | none =>
      rw [hfind] at hn
      cases hn
    | some use =>
      obtain ⟨hmem, rfl⟩ := (find?_eq_some_iff_of_nodup hnodup).1 hfind
      exact hmem

/-! ## Counting tokens -/

/-- Counts without details. -/
def plain (m : Metrics) : Metrics := { m with maxWord := 0, usage := [] }

theorem plain_recordKind (m : Metrics) (t : Token) :
    (m.recordKind t).plain = m.plain.recordKind t := by
  unfold recordKind
  cases t.kind <;> rfl

/-- Details leave the rest as it is. -/
theorem plain_record (detailed : Bool) (m : Metrics) (t : Token) :
    (m.record detailed t).plain = m.plain.record false t := by
  have hkind := plain_recordKind { m with total := m.total + 1 } t
  unfold record
  split
  · cases detailed with
    | true => exact hkind
    | false => exact hkind
  · rfl

theorem plain_foldl (detailed : Bool) (ts : List Token) (m : Metrics) :
    (ts.foldl (record detailed) m).plain = ts.foldl (record false) m.plain := by
  induction ts generalizing m with
  | nil => rfl
  | cons t ts ih => rw [List.foldl_cons, List.foldl_cons, ih, plain_record]

theorem bytes_record (detailed : Bool) (m : Metrics) (t : Token) :
    (m.record detailed t).bytes = m.bytes := by
  unfold record Token.isWord recordKind recordDetails
  cases t.kind <;> cases detailed <;> rfl

theorem bytes_foldl (detailed : Bool) (ts : List Token) (m : Metrics) :
    (ts.foldl (record detailed) m).bytes = m.bytes := by
  induction ts generalizing m with
  | nil => rfl
  | cons t ts ih => rw [List.foldl_cons, ih, bytes_record]

/-- The counts, but for details, are those of tokens. -/
structure Counted (ts : List Token) (m : Metrics) : Prop where
  total : m.total = ts.countP Token.isWord
  keywords : m.keywords = ts.countP (·.kind = .keyword)
  numbers : m.numbers = ts.countP (·.kind = .number)
  strings : m.strings = ts.countP (·.kind = .string)
  variableWords : m.variableWords = ts.countP (·.kind = .variable)
  constants : m.constants = ts.countP (·.kind = .constant)
  operators : m.operators =
    ts.countP fun t => t.kind = .keyword ∧ 2300 ≤ t.id ∧ t.id < 2400

variable {ts : List Token} {m : Metrics}

theorem counted_ofSize (bytes : Nat) : (ofSize bytes).Counted [] :=
  ⟨rfl, rfl, rfl, rfl, rfl, rfl, rfl⟩

theorem Counted.of_plain (h : m.plain.Counted ts) : m.Counted ts :=
  ⟨h.total, h.keywords, h.numbers, h.strings, h.variableWords, h.constants, h.operators⟩

theorem has_operator_iff (id : Int) :
    Keyword.Category.operator.has id = true ↔ 2300 ≤ id ∧ id < 2400 := by
  rw [Keyword.Category.has, Bool.and_eq_true, decide_eq_true_iff, decide_eq_true_iff]
  exact Iff.rfl

/-- One more token is counted. -/
theorem Counted.record (h : m.Counted ts) (t : Token) :
    (m.record false t).Counted (ts ++ [t]) := by
  obtain ⟨htotal, hkeywords, hnumbers, hstrings, hvariables, hconstants, hoperators⟩ := h
  cases hk : t.kind with
  | keyword =>
    -- an operator is also counted as a keyword
    constructor <;>
      simp [Metrics.record, recordKind, Token.isWord, has_operator_iff, List.countP_append, *]
  | _ =>
    constructor <;> simp [Metrics.record, recordKind, Token.isWord, List.countP_append, *]

theorem counted_foldl (detailed : Bool) (bytes : Nat) (ts : List Token) :
    (ts.foldl (Metrics.record detailed) (.ofSize bytes)).Counted ts := by
  refine .of_plain ?_
  rw [plain_foldl]
  induction ts using List.reverseRecOn with
  | nil => exact counted_ofSize bytes
  | append_singleton ts t ih =>
    rw [List.foldl_append]
    exact ih.record t

/-- A word is of one of five kinds. -/
theorem countP_isWord (ts : List Token) :
    ts.countP Token.isWord =
      ts.countP (·.kind = .keyword) + ts.countP (·.kind = .number) +
        ts.countP (·.kind = .string) + ts.countP (·.kind = .variable) +
        ts.countP (·.kind = .constant) := by
  induction ts with
  | nil => rfl
  | cons t ts ih =>
    obtain ⟨text, separator, kind, id, span⟩ := t
    simp only [List.countP_cons, ih, Token.isWord]
    cases kind <;> simp <;> omega

/-! ## Details -/

/-- The number of bytes of the longest of some words, and zero if there is none. -/
structure Longest (words : List Token) (n : Nat) : Prop where
  le : ∀ t ∈ words, t.text.utf8ByteSize ≤ n
  attained : words = [] ∧ n = 0 ∨ ∃ t ∈ words, t.text.utf8ByteSize = n

theorem longest_nil : Longest [] 0 := ⟨List.forall_mem_nil _, Or.inl ⟨rfl, rfl⟩⟩

theorem Longest.concat {words : List Token} {n : Nat} (h : Longest words n) (t : Token) :
    Longest (words ++ [t]) (max n t.text.utf8ByteSize) := by
  constructor
  · rw [List.forall_mem_append, List.forall_mem_singleton]
    exact ⟨fun t' ht' => (h.le t' ht').trans (Nat.le_max_left _ _), Nat.le_max_right _ _⟩
  · refine Or.inr ?_
    have hlast : t ∈ words ++ [t] := List.mem_append_right _ (List.mem_singleton_self t)
    rcases h.attained with ⟨-, rfl⟩ | ⟨t', ht', hsize⟩
    · exact ⟨t, hlast, (Nat.zero_max _).symm⟩
    · rcases Nat.le_total t.text.utf8ByteSize n with hle | hle
      · exact ⟨t', List.mem_append_left _ ht', hsize.trans (Nat.max_eq_left hle).symm⟩
      · exact ⟨t, hlast, (Nat.max_eq_right hle).symm⟩

/-- Details, beside counts, are those of tokens. -/
structure Detailed (ts : List Token) (m : Metrics) : Prop where
  nodup : (m.usage.map Prod.fst).Nodup
  pos : ∀ use ∈ m.usage, 0 < use.2
  usesIn_eq : ∀ word, usesIn m.usage word = ts.countP fun t => t.kind = .keyword ∧ t.text = word
  sum : (m.usage.map Prod.snd).sum = m.keywords
  maxWord : Longest (ts.filter Token.isWord) m.maxWord

theorem detailed_ofSize (bytes : Nat) : (ofSize bytes).Detailed [] :=
  ⟨List.nodup_nil, List.forall_mem_nil _, fun _ => rfl, rfl, longest_nil⟩

theorem keywords_record (detailed : Bool) (m : Metrics) (t : Token) :
    (m.record detailed t).keywords = m.keywords + if t.kind = .keyword then 1 else 0 := by
  unfold record Token.isWord recordKind recordDetails
  cases t.kind <;> cases detailed <;> rfl

theorem usage_record (m : Metrics) (t : Token) :
    (m.record true t).usage = if t.kind = .keyword then recordUse t.text m.usage else m.usage := by
  unfold record Token.isWord recordKind recordDetails
  cases t.kind <;> rfl

theorem maxWord_record (m : Metrics) (t : Token) :
    (m.record true t).maxWord =
      if t.isWord then max m.maxWord t.text.utf8ByteSize else m.maxWord := by
  unfold record Token.isWord recordKind recordDetails
  cases t.kind <;> rfl

theorem Detailed.record (h : m.Detailed ts) (t : Token) :
    (m.record true t).Detailed (ts ++ [t]) := by
  refine ⟨?_, ?_, ?_, ?_, ?_⟩
  · rw [usage_record]
    split
    · exact nodup_recordUse h.nodup t.text
    · exact h.nodup
  · rw [usage_record]
    split
    · exact pos_recordUse h.pos t.text
    · exact h.pos
  · intro word
    rw [usage_record, List.countP_append, List.countP_singleton, ← h.usesIn_eq]
    by_cases hk : t.kind = .keyword
    · rw [if_pos hk, usesIn_recordUse]
      simp [hk]
    · rw [if_neg hk]
      simp [hk]
  · rw [usage_record, keywords_record, ← h.sum]
    split
    · exact sum_recordUse t.text m.usage
    · rfl
  · rw [maxWord_record, List.filter_append]
    by_cases hword : t.isWord = true
    · rw [if_pos hword, List.filter_cons_of_pos hword]
      exact h.maxWord.concat t
    · rw [if_neg hword, List.filter_cons_of_neg hword, List.filter_nil, List.append_nil]
      exact h.maxWord

theorem detailed_foldl (bytes : Nat) (ts : List Token) :
    (ts.foldl (Metrics.record true) (.ofSize bytes)).Detailed ts := by
  induction ts using List.reverseRecOn with
  | nil => exact detailed_ofSize bytes
  | append_singleton ts t ih =>
    rw [List.foldl_append]
    exact ih.record t

end Metrics

/-! ## Bytes -/

/-- The number of bytes of a token and its separator in the source. -/
def Token.extent (t : Token) : Nat := t.span.length + t.separator.utf8ByteSize

namespace Vocabulary

variable {v : Vocabulary} {ls : List Lexeme}

theorem extent_token {first : Bool} {offset : Nat} {l : Lexeme} (h : IsText l.separator) :
    (v.token first offset l).extent = l.length := by
  show offset + l.word.length - offset + (Bytes.toText l.separator).utf8ByteSize = l.length
  rw [Nat.add_sub_cancel_left, h.utf8ByteSize_toText, Lexeme.length]

theorem sum_extent_tokens (h : ∀ l ∈ ls, IsText l.word ∧ IsText l.separator) (offset : Nat) :
    ((v.tokens offset ls).map Token.extent).sum = (ls.flatMap Lexeme.bytes).length := by
  induction ls generalizing offset with
  | nil => rfl
  | cons l ls ih =>
    obtain ⟨⟨-, hsep⟩, hls⟩ := List.forall_mem_cons.1 h
    rw [tokens, List.map_cons, List.sum_cons, extent_token hsep, ih hls, List.flatMap_cons,
      List.length_append, Lexeme.length_bytes]

end Vocabulary

namespace Cut

variable {v : Vocabulary} {source : String} {gap : List GapItem} {ls : List Lexeme}

/-- The words and separators of a stream have all bytes of the source. -/
theorem sum_extent (h : Cut v.knows source gap ls) :
    ((v.stream gap ls source.utf8ByteSize).tokens.toList.map Token.extent).sum =
      source.utf8ByteSize := by
  have hhead : (v.token true 0 ⟨[], gap⟩).extent = (Gap.bytes gap).length :=
    (Vocabulary.extent_token (l := ⟨[], gap⟩) h.isText_gap).trans (Nat.zero_add _)
  have hlast : (Token.terminator source.utf8ByteSize).extent = 0 := Nat.sub_self _
  rw [Vocabulary.toList_stream, List.map_cons, List.map_append, List.sum_cons, List.sum_append,
    Vocabulary.sum_extent_tokens h.isText, List.map_singleton, List.sum_singleton, hhead, hlast,
    h.utf8ByteSize_eq]
  rfl

end Cut

/-! ## Problems -/

namespace Cut

variable {v : Vocabulary} {source : String} {gap : List GapItem} {ls : List Lexeme}

theorem openStrings_measure (h : Cut v.knows source gap ls) (detailed : Bool) (bytes : Nat)
    (scanner : Scanner) :
    (Lexer.measure detailed bytes (v.stream gap ls source.utf8ByteSize) scanner).openStrings =
      (Diagnostic.ofStream (v.stream gap ls source.utf8ByteSize) scanner).countP
        (·.code = .unterminatedString) := by
  have hsorted := (Vocabulary.pairwise_stream h).imp fun h => Nat.le_trans h.1 h.2
  have hproblems := congrArg List.length
    (@Diagnostic.filter_ofStream _ scanner (hsorted.filter Token.isUnterminatedString))
  rw [List.length_map] at hproblems
  rw [Metrics.openStrings_measure, List.countP_eq_length_filter]
  exact hproblems.symm

end Cut

theorem Lexer.openComments_measure (detailed : Bool) (bytes : Nat) (stream : Stream)
    (scanner : Scanner) : (measure detailed bytes stream scanner).openComments =
      (Diagnostic.ofStream stream scanner).countP (·.code = .unterminatedComment) := by
  have hproblems := congrArg List.length (Diagnostic.filter_isOpenComment_ofStream stream scanner)
  rw [List.countP_eq_length_filter]
  refine Eq.trans ?_ hproblems.symm
  rw [List.length_map, measure]
  cases scanner.openComment <;> rfl

/-! ## Tables -/

/-- The constants of a lexer are those after commands on a table without any. -/
theorem Constant.Table.Rebuilds.exists_afterCommands {limit : Nat} {t : Constant.Table}
    (h : t.Rebuilds limit) : ∃ commands, t = .afterCommands limit commands := by
  refine ⟨t.entries.map fun entry => .define entry.1 entry.2, ?_⟩
  rw [afterCommands, List.foldl_map]
  exact h.rebuilt.symm

/-- The head of a source is no word, whatever was asked of a lexer. -/
theorem Lexer.Consistent.classify_head {spellings : Keyword.Spellings} {l : Lexer}
    (h : l.Consistent spellings) :
    Vocabulary.classify ⟨(Keyword.populate spellings).entries, l.constants⟩ true "" =
      (.leading, -1) := by
  obtain ⟨commands, hcommands⟩ := h.constants.exists_afterCommands
  rw [hcommands]
  exact Vocabulary.classify_head

/-! ## Counts of a source -/

namespace Metrics

/-- The counts of a source, but for details, are those of its stream and its problems. -/
structure Accounts (source : String) (stream : Stream) (problems : List Diagnostic) (m : Metrics) :
    Prop extends Counted stream.tokens.toList m where
  size : stream.size = m.total + 2
  words : m.total = stream.words.size
  kinds : m.total = m.keywords + m.numbers + m.strings + m.variableWords + m.constants
  bytes : m.bytes = source.utf8ByteSize
  extents : m.bytes = (stream.tokens.toList.map Token.extent).sum
  openStrings : m.openStrings = problems.countP (·.code = .unterminatedString)
  openComments : m.openComments = problems.countP (·.code = .unterminatedComment)

/-- The details of a source are those of its stream. -/
structure Details (stream : Stream) (m : Metrics) : Prop where
  /-- No word is in the list twice. -/
  nodup : (m.usage.map Prod.fst).Nodup
  mem_usage_iff : ∀ word n, (word, n) ∈ m.usage ↔
    0 < n ∧ n = stream.tokens.toList.countP fun t => t.kind = .keyword ∧ t.text = word
  sum : (m.usage.map Prod.snd).sum = m.keywords
  longest : Longest stream.words.toList m.maxWord

end Metrics

namespace Lexer

variable (detailed : Bool) (bytes : Nat) (stream : Stream) (scanner : Scanner)

theorem plain_measure :
    (measure detailed bytes stream scanner).plain = measure false bytes stream scanner := by
  have h := Metrics.plain_foldl detailed stream.tokens.toList (.ofSize bytes)
  rw [Array.foldl_toList, Array.foldl_toList] at h
  exact congrArg (fun m : Metrics => { m with
    comments := scanner.comments
    openComments := if scanner.openComment.isSome then 1 else 0 }) h

theorem bytes_measure : (measure detailed bytes stream scanner).bytes = bytes := by
  have h := Metrics.bytes_foldl detailed stream.tokens.toList (.ofSize bytes)
  rwa [Array.foldl_toList] at h

theorem counted_measure :
    (measure detailed bytes stream scanner).Counted stream.tokens.toList := by
  have h := Metrics.counted_foldl detailed bytes stream.tokens.toList
  rw [Array.foldl_toList] at h
  exact ⟨h.total, h.keywords, h.numbers, h.strings, h.variableWords, h.constants, h.operators⟩

theorem details_measure : (measure true bytes stream scanner).Details stream := by
  have h := Metrics.detailed_foldl bytes stream.tokens.toList
  rw [Array.foldl_toList] at h
  refine ⟨h.nodup, fun word n => ?_, h.sum, ?_⟩
  · rw [← h.usesIn_eq word]
    exact Metrics.mem_usage_iff h.nodup h.pos word n
  · rw [Stream.words, Array.toList_filter]
    exact h.maxWord

theorem details_measure_false : (measure false bytes stream scanner).usage = [] ∧
    (measure false bytes stream scanner).maxWord = 0 := by
  have h := plain_measure false bytes stream scanner
  exact ⟨congrArg Metrics.usage h.symm, congrArg Metrics.maxWord h.symm⟩

end Lexer

/-- What is found in a source that is cut. -/
theorem Cut.findingsWith_eq {v : Vocabulary} {source : String} {gap : List GapItem}
    {ls : List Lexeme} (h : Cut v.knows source gap ls) (hne : source ≠ "")
    (preferences : LexicalPreferences) :
    let stream := v.stream gap ls source.utf8ByteSize
    let scanner := (Scanner.ofText source).after (⟨[], gap⟩ :: ls)
    Lexer.findingsWith v preferences source =
      (some stream,
        Lexer.measure preferences.detailedMetrics source.utf8ByteSize stream scanner,
        Diagnostic.ofStream stream scanner) := by
  rw [Lexer.findingsWith, h.scan?_eq hne]

theorem Cut.accounts {v : Vocabulary} {source : String} {gap : List GapItem} {ls : List Lexeme}
    (h : Cut v.knows source gap ls) (hv : v.classify true "" = (.leading, -1)) (detailed : Bool)
    (scanner : Scanner) :
    let stream := v.stream gap ls source.utf8ByteSize
    (Lexer.measure detailed source.utf8ByteSize stream scanner).Accounts source stream
      (Diagnostic.ofStream stream scanner) := by
  intro stream
  have hcounted := Lexer.counted_measure detailed source.utf8ByteSize stream scanner
  have hbytes := Lexer.bytes_measure detailed source.utf8ByteSize stream scanner
  have hwords : (Lexer.measure detailed source.utf8ByteSize stream scanner).total =
      stream.words.size := by
    rw [hcounted.total, List.countP_eq_length_filter, ← Array.toList_filter]
    exact Array.length_toList
  have hsize : stream.size = stream.words.size + 2 := by
    rw [Stream.size, ← Array.length_toList, ← Array.length_toList, h.words_stream hv,
      Vocabulary.toList_stream, List.length_cons, List.length_append]
    rfl
  refine ⟨hcounted, hsize.trans (congrArg (· + 2) hwords.symm), hwords, ?_, hbytes,
    hbytes.trans h.sum_extent.symm, h.openStrings_measure detailed _ scanner,
    Lexer.openComments_measure detailed _ stream scanner⟩
  rw [hcounted.total, hcounted.keywords, hcounted.numbers, hcounted.strings,
    hcounted.variableWords, hcounted.constants, Metrics.countP_isWord]

/-- What a lexer counts in a source, whatever was asked of it before. The counts are those of the
words of the stream and of the problems, details are counted just if the host prefers that, and the
rest of the counts is the same for all preferences. -/
theorem Lexer.findings_accounted (spellings : Keyword.Spellings) (preferences : LexicalPreferences)
    (commands : List (Nat × Command)) (elapsed : Nat) (source : String) :
    let l := (ofKeywords (.ofSpellings spellings) preferences).afterCommands commands
    match l.findings elapsed source with
    | (none, _, _) => source = ""
    | (some stream, metrics, problems) =>
      metrics.Accounts source stream problems ∧
      (if l.preferences.detailedMetrics then metrics.Details stream
        else metrics.usage = [] ∧ metrics.maxWord = 0) ∧
      ∀ elapsed' preferences',
        ({ l with preferences := preferences' }.findings elapsed' source).2.1.plain =
          metrics.plain := by
  intro l
  have hl : l.Consistent spellings :=
    (consistent_ofKeywords spellings preferences).afterCommands commands
  have hl' : ∀ preferences', { l with preferences := preferences' }.Consistent spellings :=
    fun _ => ⟨hl.keywords, hl.constants⟩
  by_cases hne : source = ""
  · subst hne
    rfl
  · obtain ⟨gap, ls, hcut⟩ := Cut.exists_cut
      (Vocabulary.knows ⟨(Keyword.populate spellings).entries, l.constants⟩) source
    rw [hl.findings_eq, hcut.findingsWith_eq hne]
    refine ⟨hcut.accounts hl.classify_head _ _, ?_, fun elapsed' preferences' => ?_⟩
    · cases l.preferences.detailedMetrics with
      | true => exact details_measure _ _ _
      | false => exact details_measure_false _ _ _
    · rw [(hl' preferences').findings_eq, hcut.findingsWith_eq hne, plain_measure, plain_measure]

end RobotScript
