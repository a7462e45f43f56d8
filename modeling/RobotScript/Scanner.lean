import RobotScript.Constant.Table
import RobotScript.Keyword.Table
import RobotScript.Lexeme.Gap
import RobotScript.Token

/-!
# The scanner

Models of `Scanner`: `new`, `offset`, `is_at_end`, `comment_count`, `unterminated_comment`,
`next_token` and `classify`. The scanner takes one word and the gap after it at a time from the
front of a source, and gives the word a kind. It never fails: whatever the bytes are, they belong to
some word or gap.

* `Scanner`: the bytes that are left, where the program has the source and an offset into it. A call
  gives the scanner afterwards.
* `Vocabulary`: the tables are a parameter, with the keywords loaded. The program loads them at the
  first lookup, which is that of the head; `Lexer.keywordsFor` says when that is.
* `drain`: the loop of `build_stream`.

Results:

* `Lexeme.take_append`: what is taken and what follows it are the bytes it was taken from.
* `Lexeme.take_length_lt`: taking a word shortens what is left.
-/

namespace RobotScript

/-! ## Words with gaps -/

/-- A word and the gap after it, as they stand in a source. -/
structure Lexeme where
  word : Bytes
  gap : List GapItem
  deriving Repr, DecidableEq

namespace Lexeme

/-- The bytes between the word and the next one. -/
def separator (l : Lexeme) : Bytes := Gap.bytes l.gap

/-- The number of bytes of the word and the gap. -/
def length (l : Lexeme) : Nat := l.word.length + l.separator.length

/-- The text that the word stands for. -/
def text (l : Lexeme) : String := Bytes.toText (Word.decode l.word)

/-- Takes the word at the front of the bytes and the gap after it; for the head of a source
(`first`) the word is empty. `known` are the known operators. -/
def take (known : Bytes → Bool) (first : Bool) (s : Bytes) : Lexeme × Bytes :=
  let n := if first then 0 else Word.length known s
  let (gap, rest) := Gap.scan (s.drop n)
  (⟨s.take n, gap⟩, rest)

/-- What is taken and what follows it are the bytes it was taken from. -/
theorem take_append (known : Bytes → Bool) (first : Bool) (s : Bytes) :
    (take known first s).1.word ++ (take known first s).1.separator ++ (take known first s).2 =
      s := by
  simp only [take, separator, List.append_assoc, Gap.scan_append, List.take_append_drop]

/-- Taking a word shortens what is left. -/
theorem take_length_lt (known : Bytes → Bool) {s : Bytes} (h : s ≠ []) :
    (take known false s).2.length < s.length := by
  obtain ⟨b, rest, rfl⟩ := List.exists_cons_of_ne_nil h
  simp only [take, Bool.false_eq_true, if_false]
  cases hb : Word.isBlank b with
  | false =>
    have hp := Word.length_pos known b rest hb
    have hl := Gap.scan_length_le ((b :: rest).drop (Word.length known (b :: rest)))
    simp only [List.length_drop, List.length_cons] at hl ⊢
    omega
  | true =>
    by_cases hn : Word.length known (b :: rest) = 0
    · rw [hn]; exact Gap.scan_length_lt hb
    · have hl := Gap.scan_length_le ((b :: rest).drop (Word.length known (b :: rest)))
      simp only [List.length_drop, List.length_cons] at hl ⊢
      omega

end Lexeme

/-! ## Kinds -/

/-- The keywords and constants that give words their kinds. -/
structure Vocabulary where
  keywords : Keyword.Entries
  constants : Constant.Table
  deriving Repr

namespace Vocabulary

/-- Whether bytes spell a keyword. -/
def knows (v : Vocabulary) (word : Bytes) : Bool := v.keywords.knows (Bytes.toText word)

/-- The kind of a text that is neither a keyword nor a constant; `first` for the head of a
source. -/
def literalKind (first : Bool) (text : String) : TokenKind :=
  if first then .leading
  else
    match Bytes.ofText text with
    | [] => .variable
    | b :: _ =>
      if Word.isDigit b then .number
      else if b == Word.quote then .string
      else .variable

/-- The kind and id of a text: keywords come before constants, and constants before all others. -/
def classify (v : Vocabulary) (first : Bool) (text : String) : TokenKind × Int :=
  let id := v.keywords.lookup text
  if 0 < id then (.keyword, id)
  else
    match v.constants.resolve text with
    | some value => (.constant, value)
    | none => (literalKind first text, -1)

/-- The token of a word that starts at an offset. -/
def token (v : Vocabulary) (first : Bool) (offset : Nat) (l : Lexeme) : Token :=
  let (kind, id) := v.classify first l.text
  ⟨l.text, Bytes.toText l.separator, kind, id, ⟨offset, offset + l.word.length⟩⟩

end Vocabulary

/-! ## Scanning -/

/-- A source while it is scanned. -/
structure Scanner where
  /-- The bytes that have not been taken. -/
  rest : Bytes
  /-- The number of bytes taken. -/
  offset : Nat
  /-- The number of comments taken. -/
  comments : Nat
  /-- Where a block comment without its end starts, if there was one. -/
  openComment : Option Nat
  deriving Repr, DecidableEq

namespace Scanner

/-- Before anything is taken from a source. -/
def ofText (source : String) : Scanner := ⟨Bytes.ofText source, 0, 0, none⟩

/-- Whether everything has been taken. -/
def isAtEnd (s : Scanner) : Bool := s.rest.isEmpty

/-- The scanner after a word and its gap, with `rest` to come. -/
def advance (s : Scanner) (l : Lexeme) (rest : Bytes) : Scanner where
  rest := rest
  offset := s.offset + l.length
  comments := s.comments + Gap.comments l.gap
  openComment :=
    match Gap.openComment? l.gap with
    | some start => some (s.offset + l.word.length + start)
    | none => s.openComment

/-- Takes the next token: the head of the source if `first` is set, and a word otherwise. Nothing is
taken at the end. -/
def next? (v : Vocabulary) (first : Bool) (s : Scanner) : Option (Token × Scanner) :=
  if s.isAtEnd then none
  else
    let (l, rest) := Lexeme.take v.knows first s.rest
    some (v.token first s.offset l, s.advance l rest)

theorem length_lt_of_next? {v : Vocabulary} {s s' : Scanner} {t : Token}
    (h : s.next? v false = some (t, s')) : s'.rest.length < s.rest.length := by
  unfold next? at h
  split at h
  · cases h
  · rename_i hn
    cases h
    exact Lexeme.take_length_lt _ (by simpa [isAtEnd] using hn)

/-- Takes all tokens to the end of the source, after those in `found`. -/
def drain (v : Vocabulary) (found : Array Token) (s : Scanner) : Array Token × Scanner :=
  match _h : s.next? v false with
  | none => (found, s)
  | some (t, s') => drain v (found.push t) s'
termination_by s.rest.length
decreasing_by exact length_lt_of_next? _h

/-- The scanner after each of several calls, with what each call took. -/
def calls (v : Vocabulary) : List Bool → Scanner → List (Option Token × Scanner)
  | [], _ => []
  | first :: firsts, s =>
    match s.next? v first with
    | none => (none, s) :: calls v firsts s
    | some (t, s) => (some t, s) :: calls v firsts s

end Scanner

end RobotScript
