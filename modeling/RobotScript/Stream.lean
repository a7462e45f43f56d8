import RobotScript.Scanner

/-!
# Token streams

Models of `build_stream`, `tokenize` and `TokenStream`: `head`, `terminator`, `len`, `get`,
`next_index`, `prev_index`, `words`, `reconstruct` and the JSON form. A stream has all tokens of a
source: the head, which holds what stands before the first word, the words, and the terminator at
the end of the source.

A stream with a head is never empty, and `size_pos` says so; the program indexes its vector at 0.
Indices are natural numbers, so the next one does not overflow.

Results:

* `Stream.scan?_eq_none_iff`: just the empty source has no stream.
* `Stream.lt_of_next?`, `Stream.le_of_prev?`: the indices around an index.
-/

namespace RobotScript

/-- The tokens of a source, the head first and the terminator last. -/
structure Stream where
  tokens : Array Token
  /-- There is a head. -/
  size_pos : 0 < tokens.size
  deriving Repr

namespace Stream

/-- The tokens between head and terminator at the given end of the source. -/
def ofTokens (head : Token) (rest : Array Token) (offset : Nat) : Stream where
  tokens := (#[head] ++ rest).push (.terminator offset)
  size_pos := by simp only [Array.size_push]; omega

/-- The stream of a source, with the scanner at its end. -/
def scan? (v : Vocabulary) (source : String) : Option (Stream × Scanner) :=
  match (Scanner.ofText source).next? v true with
  | none => none
  | some (head, s) =>
    let (rest, s) := s.drain v #[]
    some (ofTokens head rest s.offset, s)

/-- The stream of a source; an empty source has none. -/
def tokenize (v : Vocabulary) (source : String) : Option Stream :=
  (scan? v source).map Prod.fst

theorem scan?_eq_none_iff (v : Vocabulary) (source : String) :
    scan? v source = none ↔ Bytes.ofText source = [] := by
  unfold scan? Scanner.next? Scanner.isAtEnd Scanner.ofText
  by_cases h : Bytes.ofText source = [] <;> simp [h]

/-! ## Parts -/

/-- The token before the first word. -/
def head (s : Stream) : Token :=
  have := s.size_pos
  s.tokens[0]

/-- The last token. -/
def terminator (s : Stream) : Token :=
  have := s.size_pos
  s.tokens[s.tokens.size - 1]

/-- The number of tokens, with head and terminator. -/
def size (s : Stream) : Nat := s.tokens.size

/-- The token at an index. -/
def get? (s : Stream) (i : Nat) : Option Token := s.tokens[i]?

/-- The index after an index, if there is a token. -/
def next? (s : Stream) (i : Nat) : Option Nat := if i + 1 < s.size then some (i + 1) else none

/-- The index before an index. -/
def prev? (i : Nat) : Option Nat := if i = 0 then none else some (i - 1)

theorem lt_of_next? {s : Stream} {i j : Nat} (h : s.next? i = some j) : j < s.size := by
  unfold next? at h
  split at h
  · next hlt => exact Option.some.inj h ▸ hlt
  · cases h

theorem le_of_prev? {i j : Nat} (h : prev? i = some j) : j ≤ i := by
  unfold prev? at h
  split at h
  · cases h
  · exact Option.some.inj h ▸ Nat.sub_le i 1

/-- The tokens that are words. -/
def words (s : Stream) : Array Token := s.tokens.filter Token.isWord

/-- The texts and separators of all tokens, one after the other. -/
def reconstruct (s : Stream) : String :=
  s.tokens.foldl (fun text t => text ++ t.text ++ t.separator) ""

/-! ## JSON -/

/-- The JSON form of a stream: the array of its tokens. -/
def toJson (s : Stream) : Json := .array (s.tokens.toList.map Token.toJson)

end Stream

end RobotScript
