import RobotScript.Limits
import RobotScript.Stream

/-!
# Cursors

Models of `TokenCursor`: `at`, the questions from `index` to `type_code`, `next`, `prev`,
`is_of_type` and `is_of_type_list`, with `cursor` and `cursor_at_head` of a stream. A cursor is a
place in a stream, or is past one of its ends: then it is absent, and stays so. An absent cursor
answers every question with a value that no token gives.

The program changes a cursor in place; here a step gives the cursor afterwards. Offsets are turned
into integers, which the program does by a cast that is exact below 2 to the 63.

Results:

* `Cursor.index_lt`: the index of a cursor is below the size of the stream.
-/

namespace RobotScript

/-- A place in a stream. Absent if there is no index. -/
structure Cursor (stream : Stream) where
  index : Option Nat
  /-- There is a token at the index. -/
  index_lt : ∀ i ∈ index, i < stream.size

namespace Cursor

variable {stream : Stream}

/-- The cursor at an index, absent if there is no token. -/
def at? (stream : Stream) (index : Option Nat) : Cursor stream where
  index := index.filter fun i => decide (i < stream.size)
  index_lt := by simp [Option.filter_eq_some_iff]

/-- The cursor at the head. -/
def atHead (stream : Stream) : Cursor stream := at? stream (some 0)

/-- The cursor after the head, where parsing starts. -/
def start (stream : Stream) : Cursor stream := at? stream (stream.next? 0)

/-! ## Questions -/

/-- The token at the cursor. -/
def token? (c : Cursor stream) : Option Token := c.index.bind stream.get?

/-- Whether the cursor is past an end of the stream. -/
def isAbsent (c : Cursor stream) : Bool := c.index.isNone

/-- The kind of the token. -/
def kind? (c : Cursor stream) : Option TokenKind := c.token?.map Token.kind

/-- The word; empty if the cursor is absent. -/
def text (c : Cursor stream) : String := (c.token?.map Token.text).getD ""

/-- What stands after the word; empty if the cursor is absent. -/
def separator (c : Cursor stream) : String := (c.token?.map Token.separator).getD ""

/-- The id of the token; -1 if the cursor is absent. -/
def id (c : Cursor stream) : Int := (c.token?.map Token.id).getD (-1)

/-- The bytes of the word. -/
def span? (c : Cursor stream) : Option Span := c.token?.map Token.span

/-- Where the word starts; -1 if the cursor is absent. -/
def startOffset (c : Cursor stream) : Int := (c.span?.map fun s => (s.start : Int)).getD (-1)

/-- Where the word ends; -1 if the cursor is absent. -/
def stopOffset (c : Cursor stream) : Int := (c.span?.map fun s => (s.stop : Int)).getD (-1)

/-- The type of the token; 0 if the cursor is absent. -/
def typeCode (c : Cursor stream) : Int := (c.token?.map Token.effectiveType).getD 0

/-! ## Steps -/

/-- The cursor one token on. -/
def next (c : Cursor stream) : Cursor stream where
  index := c.index.bind stream.next?
  index_lt j h := by
    obtain ⟨i, -, hj⟩ := Option.bind_eq_some_iff.1 h
    exact Stream.lt_of_next? hj

/-- The cursor one token back. -/
def prev (c : Cursor stream) : Cursor stream where
  index := c.index.bind Stream.prev?
  index_lt j h := by
    obtain ⟨i, hi, hj⟩ := Option.bind_eq_some_iff.1 h
    exact Nat.lt_of_le_of_lt (Stream.le_of_prev? hj) (c.index_lt i hi)

/-- Whether the type of the token is one of two, and the cursor afterwards: one token on if it
is. -/
def isOfType (a b : Int) (c : Cursor stream) : Bool × Cursor stream :=
  if c.typeCode = a ∨ c.typeCode = b then (true, c.next) else (false, c)

/-- Whether the type of the token is in a list, and the cursor afterwards: one token on if it is. Of
a long list just the first entries count. -/
def isOfTypeList (types : List Int) (c : Cursor stream) : Bool × Cursor stream :=
  if c.typeCode ∈ types.take Limits.built.maxTypeCandidates then (true, c.next) else (false, c)

/-- What can be asked of a cursor. -/
inductive Command where
  | next
  | prev
  | isOfType (a b : Int)
  | isOfTypeList (types : List Int)
  /-- Go to an index. -/
  | goTo (index : Option Nat)
  deriving Repr, DecidableEq

/-- The answer to a command. -/
inductive Reply where
  | token (t : Option Token)
  | truth (b : Bool)
  | done
  deriving Repr, DecidableEq

/-- Runs a command: the answer, and the cursor afterwards. -/
def Command.run (c : Cursor stream) : Command → Reply × Cursor stream
  | .next => (.token c.next.token?, c.next)
  | .prev => (.token c.prev.token?, c.prev)
  | .isOfType a b => let (b, c) := c.isOfType a b; (.truth b, c)
  | .isOfTypeList types => let (b, c) := c.isOfTypeList types; (.truth b, c)
  | .goTo index => (.done, at? stream index)

/-- The answers to commands run one after the other, each with the cursor after it. -/
def runAll (c : Cursor stream) : List Command → List (Reply × Cursor stream)
  | [] => []
  | command :: commands =>
    let (reply, c) := command.run c
    (reply, c) :: runAll c commands

end Cursor

end RobotScript
