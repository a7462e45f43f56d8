import RobotScript.Preferences
import RobotScript.SourceMap
import RobotScript.Stream
import RobotScript.Text.Decimal

/-!
# Lexers

Models of `LexicalMetrics` with `record_token`, of `LexicalDiagnostic` with `render` and `dispatch`,
and of `Lexer`: `with_keywords`, `with_preferences`, `define`, `reset_defines`, `reset_keywords` and
`tokenize`. A lexer belongs to one host. It owns a keyword table and the constants that the host has
defined, turns sources into streams, counts what it finds, and reports problems. No source is
refused: an open string or comment gives a diagnostic beside the stream.

* A call gives the lexer afterwards, and the events that it reports as a list; what hands them on is
  in `Log.Ambient`. The time that a source takes is a parameter.
* `measure`, `Diagnostic.ofStream` and the trace each go through the stream once; the program does
  all three in one loop, which reports nothing but the trace.
* `Metrics.usage` is a list in the order of first use, where the program has a map. Counts are
  natural numbers.
-/

namespace RobotScript

open Log (Event)

/-! ## Measurements -/

/-- Counts for one source. -/
structure Metrics where
  /-- The number of words. -/
  total : Nat
  /-- The number of bytes of the source. -/
  bytes : Nat
  keywords : Nat
  /-- The number of keywords that are operators. -/
  operators : Nat
  numbers : Nat
  strings : Nat
  variableWords : Nat
  constants : Nat
  comments : Nat
  /-- The number of string literals without a closing quote. -/
  openStrings : Nat
  /-- The number of block comments without an end. -/
  openComments : Nat
  /-- The number of bytes of the longest word; a detail. -/
  maxWord : Nat
  /-- How often each keyword occurs, in the order of first use; a detail. -/
  usage : List (String × Nat)
  deriving Repr, DecidableEq, Inhabited

namespace Metrics

/-- Nothing counted yet, in a source with a number of bytes. -/
def ofSize (bytes : Nat) : Metrics := ⟨0, bytes, 0, 0, 0, 0, 0, 0, 0, 0, 0, 0, []⟩

/-- One more use of a word. -/
def recordUse (word : String) : List (String × Nat) → List (String × Nat)
  | [] => [(word, 1)]
  | (w, n) :: rest => if w = word then (w, n + 1) :: rest else (w, n) :: recordUse word rest

/-- Counts a word under its kind. -/
def recordKind (m : Metrics) (t : Token) : Metrics :=
  match t.kind with
  | .keyword =>
    { m with
      keywords := m.keywords + 1
      operators := m.operators + if Keyword.Category.operator.has t.id then 1 else 0 }
  | .number => { m with numbers := m.numbers + 1 }
  | .string =>
    { m with
      strings := m.strings + 1
      openStrings := m.openStrings + if t.isUnterminatedString then 1 else 0 }
  | .variable => { m with variableWords := m.variableWords + 1 }
  | .constant => { m with constants := m.constants + 1 }
  | .leading | .terminator => m

/-- Records the length of a word, and its use if it is a keyword. -/
def recordDetails (m : Metrics) (t : Token) : Metrics :=
  { m with
    maxWord := max m.maxWord t.text.utf8ByteSize
    usage := if t.kind = .keyword then recordUse t.text m.usage else m.usage }

/-- Counts a token, if it is a word. -/
def record (detailed : Bool) (m : Metrics) (t : Token) : Metrics :=
  if t.isWord then
    let m := { m with total := m.total + 1 }.recordKind t
    if detailed then m.recordDetails t else m
  else m

end Metrics

/-! ## Diagnostics -/

/-- A problem in a source. -/
structure Diagnostic where
  code : Log.Code
  message : String
  span : Span
  deriving Repr, DecidableEq, Inhabited

namespace Diagnostic

/-- A string literal lacks its closing quote. -/
def openString (span : Span) : Diagnostic :=
  ⟨.unterminatedString, "String literal is not closed", span⟩

/-- A block comment lacks its end. -/
def openComment (span : Span) : Diagnostic :=
  ⟨.unterminatedComment, "Block comment is not closed", span⟩

/-- The problem with the first line of its range underlined, if that can be underlined. -/
def render? (d : Diagnostic) (m : SourceMap) : Option String :=
  m.diagnostic? d.span ("warning[" ++ d.code.name ++ "]") d.message

/-- The warning about the problem. -/
def event (d : Diagnostic) : Event := (Event.codedWarning d.code d.message).withSpan d.span

/-- The problems of a stream whose scanner stopped at the end of the source, in the order of their
places. -/
def ofStream (stream : Stream) (scanner : Scanner) : List Diagnostic :=
  let strings := (stream.tokens.filter Token.isUnterminatedString).toList.map fun t =>
    openString t.span
  let comments := scanner.openComment.toList.map fun start => openComment ⟨start, scanner.offset⟩
  (strings ++ comments).mergeSort fun a b => decide (a.span.start ≤ b.span.start)

end Diagnostic

/-! ## Lexers -/

/-- A host's tables and preferences, and the results for the latest source. -/
structure Lexer where
  keywords : Keyword.Table
  constants : Constant.Table
  preferences : LexicalPreferences
  metrics : Metrics
  diagnostics : List Diagnostic

namespace Lexer

/-- A lexer with a keyword table, without constants, and without results. -/
def ofKeywords (keywords : Keyword.Table) (preferences : LexicalPreferences) : Lexer :=
  ⟨keywords, .empty, preferences, .ofSize 0, []⟩

/-- A lexer for the standard keywords. -/
def standard (preferences : LexicalPreferences) : Lexer := ofKeywords .standard preferences

/-- The detail about a token. -/
def tokenEvent (t : Token) : Event :=
  (Event.debug "Token").withEntries
    [("kind", t.kind.name), ("id", toString t.id), ("span", t.span.render), ("text", t.text)]

/-- The event at the end of a source, after `elapsed` nanoseconds. -/
def completed (elapsed : Nat) (m : Metrics) : Event :=
  (Event.success .tokenized "Tokenization completed").withEntries
    [ ("tokens", toString m.total), ("keywords", toString m.keywords),
      ("constants", toString m.constants), ("bytes", toString m.bytes),
      ("duration_ms", Text.milliseconds 3 elapsed) ]

/-- The counts for a stream whose scanner stopped at the end of the source. -/
def measure (detailed : Bool) (bytes : Nat) (stream : Stream) (scanner : Scanner) : Metrics :=
  { stream.tokens.foldl (Metrics.record detailed) (.ofSize bytes) with
    comments := scanner.comments
    openComments := if scanner.openComment.isSome then 1 else 0 }

/-- The loaded keywords for a source, and the effects of loading them. Nothing is loaded for an
empty source, which has no word to look up. -/
def keywordsFor (source : String) (t : Keyword.Table) :
    Keyword.Entries × Keyword.Table × Keyword.Effects :=
  if source = "" then (.empty, t, ⟨[], []⟩) else t.force

/-- Turns a source into a stream in `elapsed` nanoseconds: the stream, which an empty source does
not have, the lexer with the results, and the events. Keywords are loaded if they are not. -/
def tokenize (elapsed : Nat) (source : String) (l : Lexer) : Option Stream × Lexer × List Event :=
  let (entries, keywords, effects) := keywordsFor source l.keywords
  match Stream.scan? ⟨entries, l.constants⟩ source with
  | none =>
    (none, { l with metrics := .ofSize 0, diagnostics := [] },
      [.debug "Empty source, no tokens produced"])
  | some (stream, scanner) =>
    let metrics := measure l.preferences.detailedMetrics source.utf8ByteSize stream scanner
    let diagnostics := Diagnostic.ofStream stream scanner
    let trace := if l.preferences.traceTokens then stream.tokens.toList.map tokenEvent else []
    (some stream, { l with keywords, metrics, diagnostics },
      effects.events ++ trace ++ diagnostics.map Diagnostic.event ++ [completed elapsed metrics])

/-! ## Commands -/

/-- What a host can ask of its lexer. -/
inductive Command where
  | tokenize (source : String)
  | define (name : String) (value : Int)
  | resetConstants
  | resetKeywords
  | resolve (word : String)
  | lookup (word : String)
  | prefer (preferences : LexicalPreferences)
  | state
  deriving Repr, DecidableEq

/-- The answer to a command. -/
inductive Reply where
  /-- The stream of a source, if it has one. -/
  | stream (source : String) (stream : Option Stream)
  | defined (outcome : Except Constant.DefineError Unit)
  | done
  | value (v : Option Int)
  | id (id : Int)

/-- Runs a command, which takes `elapsed` nanoseconds if it is about a source: the answer, the lexer
afterwards, and the events. -/
def Command.run (elapsed : Nat) (c : Command) (l : Lexer) : Reply × Lexer × List Event :=
  match c with
  | .tokenize source =>
    let (stream, l, events) := l.tokenize elapsed source
    (.stream source stream, l, events)
  | .define name value =>
    let (outcome, constants, events) := l.constants.define name value
    (.defined outcome, { l with constants }, events)
  | .resetConstants =>
    let (constants, events) := l.constants.reset
    (.done, { l with constants }, events)
  | .resetKeywords => (.done, { l with keywords := l.keywords.reset }, [])
  | .resolve word => (.value (l.constants.resolve word), l, [])
  | .lookup word =>
    let (entries, keywords, effects) := l.keywords.force
    (.id (entries.lookup word), { l with keywords }, effects.events)
  | .prefer preferences => (.done, { l with preferences }, [])
  | .state => (.done, l, [])

end Lexer

end RobotScript
