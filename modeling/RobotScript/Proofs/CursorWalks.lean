import Mathlib.Data.List.Basic
import RobotScript.Proofs.TokenTypes

/-!
# How cursors walk

A parser moves a cursor by steps to the next token or back, and by matches, which take a step if the
type of the token is among some candidates. Commands that do not lead back pass the tokens of a
stream one after the other until the cursor is past the terminator, where it stays. That the types
of head, terminator and absent cursors are the same makes no difference: a match on that type takes
a step, and from an absent cursor no step leads anywhere.

Results:

* `Cursor.next_at?`, `Cursor.after_at?`: one step and a run, from any place or past the end.
* `Cursor.passed_at?`: the tokens that a run steps over.
* `Cursor.tokenize_walks`: how cursors walk over the streams of sources.
* `Cursor.Command.run_congr`, `Cursor.runAll_congr`: matches with the same candidates.
* `Cursor.matchers_agree`: the two kinds of matches.
-/

namespace RobotScript

namespace Cursor

variable {stream : Stream} {c : Cursor stream}

/-! ## Places -/

theorem eq_of_index_eq {c' : Cursor stream} (h : c.index = c'.index) : c = c' := by
  cases c
  cases c'
  cases h
  rfl

/-- A cursor is the one at its index. -/
theorem at?_index (c : Cursor stream) : at? stream c.index = c := by
  apply eq_of_index_eq
  unfold at?
  cases h : c.index with
  | none => rfl
  | some i => simp [c.index_lt i h]

theorem index_at?_some (i : Nat) :
    (at? stream (some i)).index = if i < stream.size then some i else none := by
  simp [at?, Option.filter_some]

theorem isAbsent_at?_some (i : Nat) :
    (at? stream (some i)).isAbsent = true ↔ stream.size ≤ i := by
  unfold isAbsent
  rw [index_at?_some]
  split
  · simp
    omega
  · simp
    omega

theorem token?_at?_some (i : Nat) : (at? stream (some i)).token? = stream.get? i := by
  unfold token?
  rw [index_at?_some]
  split
  · rfl
  · next hi =>
    have hsize : stream.tokens.size ≤ i := Nat.not_lt.1 hi
    simp [Stream.get?, hsize]

/-- There is one absent cursor. -/
theorem eq_of_isAbsent (h : c.isAbsent = true) : c = at? stream none :=
  eq_of_index_eq (Option.isNone_iff_eq_none.1 h)

/-! ## Steps -/

theorem index_next (c : Cursor stream) : c.next.index = c.index.bind stream.next? := rfl

theorem index_prev (c : Cursor stream) : c.prev.index = c.index.bind Stream.prev? := rfl

/-- A step leads one place on, also past the end. -/
theorem next_at? (i : Nat) : (at? stream (some i)).next = at? stream (some (i + 1)) := by
  apply eq_of_index_eq
  rw [index_next, index_at?_some, index_at?_some]
  split
  · rfl
  · rw [if_neg (by omega)]
    rfl

theorem next_of_isAbsent (h : c.isAbsent = true) : c.next = c := by
  rw [eq_of_isAbsent h]
  rfl

theorem prev_of_isAbsent (h : c.isAbsent = true) : c.prev = c := by
  rw [eq_of_isAbsent h]
  rfl

theorem snd_isOfType (a b : Int) (c : Cursor stream) :
    (c.isOfType a b).2 = if (c.isOfType a b).1 = true then c.next else c := by
  unfold isOfType
  split <;> rfl

theorem snd_isOfTypeList (types : List Int) (c : Cursor stream) :
    (c.isOfTypeList types).2 = if (c.isOfTypeList types).1 = true then c.next else c := by
  unfold isOfTypeList
  split <;> rfl

/-! ## Runs -/

/-- Whether a command starts from where the cursor is. -/
def Command.isMove : Command → Bool
  | .goTo _ => false
  | _ => true

/-- Whether a command starts from where the cursor is and does not lead back. -/
def Command.isForward : Command → Bool
  | .next | .isOfType _ _ | .isOfTypeList _ => true
  | .prev | .goTo _ => false

/-- Whether a command that does not lead back took a step, by its answer. -/
def Reply.isStep : Reply → Bool
  | .token _ => true
  | .truth b => b
  | .done => false

/-- The cursor after commands. -/
def after (c : Cursor stream) (commands : List Command) : Cursor stream :=
  commands.foldl (fun c command => (command.run c).2) c

/-- How many steps commands take: one for each call for the next token and one for each match. -/
def steps (c : Cursor stream) (commands : List Command) : Nat :=
  (c.runAll commands).countP fun r => r.1.isStep

/-- The tokens that commands step over. -/
def passed (c : Cursor stream) : List Command → List Token
  | [] => []
  | command :: commands =>
    (if (command.run c).1.isStep then c.token?.toList else []) ++
      passed (command.run c).2 commands

theorem steps_cons (c : Cursor stream) (command : Command) (commands : List Command) :
    c.steps (command :: commands) =
      (if (command.run c).1.isStep = true then 1 else 0) + (command.run c).2.steps commands := by
  show List.countP _ (((command.run c).1, (command.run c).2) ::
    (command.run c).2.runAll commands) = _
  rw [List.countP_cons, Nat.add_comm]
  rfl

/-- A command that does not lead back takes a step or leaves the cursor where it is. -/
theorem snd_run {command : Command} (h : command.isForward = true) (c : Cursor stream) :
    (command.run c).2 = if (command.run c).1.isStep = true then c.next else c := by
  cases command with
  | next => rfl
  | isOfType a b => exact snd_isOfType a b c
  | isOfTypeList types => exact snd_isOfTypeList types c
  | prev => cases h
  | goTo index => cases h

/-- An absent cursor stays so. -/
theorem snd_run_of_isAbsent {command : Command} (hmove : command.isMove = true)
    (h : c.isAbsent = true) : (command.run c).2 = c := by
  cases command with
  | next => exact next_of_isAbsent h
  | prev => exact prev_of_isAbsent h
  | isOfType a b =>
    show (c.isOfType a b).2 = c
    rw [snd_isOfType, next_of_isAbsent h, ite_self]
  | isOfTypeList types =>
    show (c.isOfTypeList types).2 = c
    rw [snd_isOfTypeList, next_of_isAbsent h, ite_self]
  | goTo index => cases hmove

theorem runAll_of_isAbsent {commands : List Command} (hmove : ∀ x ∈ commands, x.isMove = true)
    (h : c.isAbsent = true) : ∀ r ∈ c.runAll commands, r.2 = c := by
  induction commands with
  | nil =>
    intro r hr
    cases hr
  | cons command commands ih =>
    have hrun := snd_run_of_isAbsent (hmove command (by simp)) h
    intro r hr
    rcases List.mem_cons.1 hr with rfl | hr
    · exact hrun
    · have hrest : r ∈ (command.run c).2.runAll commands := hr
      rw [hrun] at hrest
      exact ih (fun x hx => hmove x (List.mem_cons_of_mem _ hx)) r hrest

/-! ### From a place on -/

/-- Commands that do not lead back lead as many places on as they take steps. -/
theorem after_at? {commands : List Command} (h : ∀ x ∈ commands, x.isForward = true) (i : Nat) :
    (at? stream (some i)).after commands =
      at? stream (some (i + (at? stream (some i)).steps commands)) := by
  induction commands generalizing i with
  | nil => rfl
  | cons command commands ih =>
    have hrun := snd_run (h command (by simp)) (at? stream (some i))
    have ih := ih fun x hx => h x (List.mem_cons_of_mem _ hx)
    show (command.run (at? stream (some i))).2.after commands = _
    rw [steps_cons]
    split at hrun
    · next hstep => rw [if_pos hstep, hrun, next_at?, ih (i + 1), Nat.add_assoc]
    · next hstep => rw [if_neg hstep, hrun, ih i, Nat.zero_add]

/-- They step over the tokens from that place on, without a gap and each once. -/
theorem passed_at? {commands : List Command} (h : ∀ x ∈ commands, x.isForward = true) (i : Nat) :
    (at? stream (some i)).passed commands =
      (stream.tokens.toList.drop i).take ((at? stream (some i)).steps commands) := by
  induction commands generalizing i with
  | nil => rfl
  | cons command commands ih =>
    have hrun := snd_run (h command (by simp)) (at? stream (some i))
    have ih := ih fun x hx => h x (List.mem_cons_of_mem _ hx)
    rw [passed, steps_cons]
    split at hrun
    · next hstep =>
      rw [if_pos hstep, if_pos hstep, hrun, next_at?, ih (i + 1), token?_at?_some, Stream.get?,
        ← Array.getElem?_toList, Nat.add_comm 1]
      by_cases hi : i < stream.tokens.toList.length
      · rw [List.drop_eq_getElem_cons hi, List.take_succ_cons, List.getElem?_eq_getElem hi]
        rfl
      · -- past the end there is no token to step over
        rw [List.drop_eq_nil_of_le (by omega), List.drop_eq_nil_of_le (by omega),
          List.getElem?_eq_none (by omega), List.take_nil, List.take_nil]
        rfl
    · next hstep =>
      rw [if_neg hstep, if_neg hstep, hrun, ih i, Nat.zero_add, List.nil_append]

/-! ## Walks over the streams of sources -/

/-- What a cursor shows if there is no token. -/
structure ShowsNothing (c : Cursor stream) : Prop where
  token : c.token? = none
  kind : c.kind? = none
  text : c.text = ""
  separator : c.separator = ""
  id : c.id = -1
  span : c.span? = none
  startOffset : c.startOffset = -1
  stopOffset : c.stopOffset = -1
  typeCode : c.typeCode = 0

theorem showsNothing_of_isAbsent (h : c.isAbsent = true) : c.ShowsNothing := by
  have htoken : c.token? = none := by
    rw [eq_of_isAbsent h]
    rfl
  constructor <;>
    simp [kind?, Cursor.text, Cursor.separator, Cursor.id, span?, Cursor.startOffset,
      Cursor.stopOffset, Cursor.typeCode, htoken]

/-- How a cursor walks over a stream. -/
structure Walks (c : Cursor stream) : Prop where
  /-- A cursor that is not absent is at a token of the stream. -/
  present : ∀ i, c.index = some i →
    i < stream.size ∧ ∃ t, stream.get? i = some t ∧ c.token? = some t
  showsNothing : c.isAbsent = true → c.ShowsNothing
  staysAbsent : c.isAbsent = true → ∀ commands : List Command,
    (∀ x ∈ commands, x.isMove = true) → ∀ r ∈ c.runAll commands, r.2.isAbsent = true
  isOfType : ∀ a b, (c.isOfType a b).2 = if (c.isOfType a b).1 = true then c.next else c
  isOfTypeList : ∀ types,
    (c.isOfTypeList types).2 = if (c.isOfTypeList types).1 = true then c.next else c
  /-- The head is at the start of the stream and the terminator at its end. -/
  head_iff : ∀ i, c.index = some i → (c.kind? = some .leading ↔ i = 0)
  terminator_iff : ∀ i, c.index = some i → (c.kind? = some .terminator ↔ i + 1 = stream.size)
  next : ∀ i, c.index = some i →
    c.next.index = if c.kind? = some .terminator then none else some (i + 1)
  prev : ∀ i, c.index = some i →
    c.prev.index = if c.kind? = some .leading then none else some (i - 1)
  /-- Commands that do not lead back step over the tokens from the cursor on, and make it absent
  when they have taken as many steps as there are. -/
  forward : ∀ i, c.index = some i → ∀ commands : List Command,
    (∀ x ∈ commands, x.isForward = true) →
      c.passed commands = (stream.tokens.toList.drop i).take (c.steps commands) ∧
      c.after commands = at? stream (some (i + c.steps commands)) ∧
      ((c.after commands).isAbsent = true ↔ stream.size - i ≤ c.steps commands)

/-- A cursor walks so over each stream that has a head at its start, a terminator at its end and
neither of them between. -/
theorem walks_of_ends
    (hends : ∀ i t, stream.get? i = some t →
      (t.kind = .leading ↔ i = 0) ∧ (t.kind = .terminator ↔ i + 1 = stream.size))
    (c : Cursor stream) : c.Walks := by
  have hplace : ∀ i, c.index = some i →
      (c.kind? = some .leading ↔ i = 0) ∧ (c.kind? = some .terminator ↔ i + 1 = stream.size) := by
    intro i hi
    obtain ⟨t, hget, htoken, -⟩ := exists_token hi
    simpa [kind?, htoken] using hends i t hget
  constructor
  case present =>
    intro i hi
    obtain ⟨t, hget, htoken, -⟩ := exists_token hi
    exact ⟨c.index_lt i hi, t, hget, htoken⟩
  case showsNothing => exact showsNothing_of_isAbsent
  case staysAbsent =>
    intro h commands hmove r hr
    rw [runAll_of_isAbsent hmove h r hr]
    exact h
  case isOfType => exact fun a b => snd_isOfType a b c
  case isOfTypeList => exact fun types => snd_isOfTypeList types c
  case head_iff => exact fun i hi => (hplace i hi).1
  case terminator_iff => exact fun i hi => (hplace i hi).2
  case next =>
    intro i hi
    have hlt := c.index_lt i hi
    rw [index_next, hi, Option.bind_some, Stream.next?]
    by_cases hlast : i + 1 = stream.size
    · rw [if_neg (by omega), if_pos ((hplace i hi).2.2 hlast)]
    · rw [if_pos (by omega), if_neg (mt (hplace i hi).2.1 hlast)]
  case prev =>
    intro i hi
    rw [index_prev, hi, Option.bind_some, Stream.prev?]
    by_cases hfirst : i = 0
    · rw [if_pos hfirst, if_pos ((hplace i hi).1.2 hfirst)]
    · rw [if_neg hfirst, if_neg (mt (hplace i hi).1.1 hfirst)]
  case forward =>
    intro i hi commands hforward
    obtain rfl : at? stream (some i) = c := by
      rw [← hi]
      exact at?_index c
    have hafter := @after_at? stream commands hforward i
    refine ⟨passed_at? hforward i, hafter, ?_⟩
    rw [hafter, isAbsent_at?_some]
    omega

/-- How cursors walk over the stream of a source, whatever spellings of keywords there are and
whatever was done to the constants. A parser starts after the head, at the head or at any index, and
what holds of all cursors holds of those that commands lead to. -/
theorem tokenize_walks (spellings : Keyword.Spellings) (limit : Nat)
    (commands : List Constant.Command) (source : String) :
    match Stream.tokenize (.afterCommands spellings limit commands) source with
    | none => source = ""
    | some stream =>
      (start stream).index = some 1 ∧ (atHead stream).index = some 0 ∧
        ∀ c : Cursor stream, c.Walks := by
  by_cases hne : source = ""
  · subst hne
    rfl
  obtain ⟨gap, ls, hcut⟩ :=
    Cut.exists_cut (Vocabulary.afterCommands spellings limit commands).knows source
  have hplace := @Cut.place_of_get? _ _ _ _ hcut Vocabulary.classify_head
  have hsize := Vocabulary.size_stream (.afterCommands spellings limit commands) gap ls
    source.utf8ByteSize
  rw [hcut.tokenize_eq hne]
  generalize (Vocabulary.afterCommands spellings limit commands).stream gap ls
    source.utf8ByteSize = stream at hplace hsize
  have hstart : (start stream).index = some 1 := by
    rw [start, Stream.next?, if_pos (by omega), index_at?_some, if_pos (by omega)]
  have hhead : (atHead stream).index = some 0 := by
    rw [atHead, index_at?_some, if_pos (by omega)]
  refine ⟨hstart, hhead, walks_of_ends fun i t hget => ?_⟩
  rcases hplace hget with ⟨rfl, hkind⟩ | ⟨rfl, hkind⟩ | ⟨hpos, hlt, hword⟩
  · rw [hkind]
    simp
    omega
  · rw [hkind]
    simp
    omega
  · have hkinds : t.kind ≠ .leading ∧ t.kind ≠ .terminator := by
      simpa [Token.isWord] using hword.isWord
    refine ⟨iff_of_false hkinds.1 (by omega), iff_of_false hkinds.2 (by omega)⟩

/-! ## Matches -/

/-- Compares the type at a cursor with candidates, of which all count. -/
def isAmong (candidates : List Int) (c : Cursor stream) : Bool × Cursor stream :=
  if c.typeCode ∈ candidates then (true, c.next) else (false, c)

theorem isOfType_eq (a b : Int) (c : Cursor stream) : c.isOfType a b = c.isAmong [a, b] := by
  simp only [isOfType, isAmong, List.mem_cons, List.not_mem_nil, or_false]

theorem isOfTypeList_eq (types : List Int) (c : Cursor stream) :
    c.isOfTypeList types = c.isAmong (types.take 20) := rfl

/-- Neither the order of candidates matters nor how often they are repeated. -/
theorem isAmong_congr {candidates candidates' : List Int}
    (h : ∀ t, t ∈ candidates ↔ t ∈ candidates') (c : Cursor stream) :
    c.isAmong candidates = c.isAmong candidates' := by
  simp only [isAmong, h]

/-- More candidates make no difference to a match. -/
theorem isAmong_of_subset {candidates candidates' : List Int}
    (hsubset : candidates ⊆ candidates') (h : (c.isAmong candidates).1 = true) :
    c.isAmong candidates' = c.isAmong candidates := by
  unfold isAmong at h ⊢
  split at h
  · next hmem => rw [if_pos hmem, if_pos (hsubset hmem)]
  · cases h

/-- The candidates of a match that count. -/
def Command.candidates? : Command → Option (List Int)
  | .isOfType a b => some [a, b]
  | .isOfTypeList types => some (types.take 20)
  | .next | .prev | .goTo _ => none

/-- The same command, or matches of which the same candidates count. -/
inductive Command.Alike : Command → Command → Prop
  | refl (x : Command) : Alike x x
  | sameTypes {x y : Command} {candidates candidates' : List Int} :
      x.candidates? = some candidates → y.candidates? = some candidates' →
      (∀ t, t ∈ candidates ↔ t ∈ candidates') → Alike x y

theorem Command.run_of_candidates {x : Command} {candidates : List Int}
    (h : x.candidates? = some candidates) (c : Cursor stream) :
    x.run c = (.truth (c.isAmong candidates).1, (c.isAmong candidates).2) := by
  cases x with
  | isOfType a b =>
    obtain rfl := Option.some.inj h
    rw [← isOfType_eq]
    rfl
  | isOfTypeList types =>
    obtain rfl := Option.some.inj h
    rfl
  | next => cases h
  | prev => cases h
  | goTo index => cases h

theorem Command.run_congr {x y : Command} (h : x.Alike y) (c : Cursor stream) :
    x.run c = y.run c := by
  cases h with
  | refl => rfl
  | sameTypes hx hy hsame =>
    rw [run_of_candidates hx, run_of_candidates hy, isAmong_congr hsame]

theorem runAll_congr {xs ys : List Command} (h : List.Forall₂ Command.Alike xs ys)
    (c : Cursor stream) : c.runAll xs = c.runAll ys := by
  induction h generalizing c with
  | nil => rfl
  | @cons x y xs ys hxy _ ih =>
    show ((x.run c).1, (x.run c).2) :: (x.run c).2.runAll xs =
      ((y.run c).1, (y.run c).2) :: (y.run c).2.runAll ys
    rw [Command.run_congr hxy, ih]

/-- The match on two types is that on a list of the two. Of a list just the first 20 types count,
as a set, and more types after them do not undo a match. So whole runs give the same answers and
lead to the same places if one match is made for the other in them. -/
theorem matchers_agree (c : Cursor stream) :
    (∀ a b, c.isOfType a b = c.isOfTypeList [a, b]) ∧
    (∀ types, c.isOfTypeList types = c.isOfTypeList (types.take 20)) ∧
    (∀ types types', (∀ t, t ∈ types.take 20 ↔ t ∈ types'.take 20) →
      c.isOfTypeList types = c.isOfTypeList types') ∧
    (∀ types more, (c.isOfTypeList types).1 = true →
      c.isOfTypeList (types ++ more) = c.isOfTypeList types) ∧
    ∀ xs ys, List.Forall₂ Command.Alike xs ys → c.runAll xs = c.runAll ys := by
  refine ⟨?_, ?_, ?_, ?_, fun xs ys h => runAll_congr h c⟩
  · intro a b
    rw [isOfType_eq, isOfTypeList_eq]
    rfl
  · intro types
    rw [isOfTypeList_eq, isOfTypeList_eq, List.take_take, Nat.min_self]
  · intro types types' hsame
    rw [isOfTypeList_eq, isOfTypeList_eq, isAmong_congr hsame]
  · intro types more hmatch
    rw [isOfTypeList_eq] at hmatch
    rw [isOfTypeList_eq, isOfTypeList_eq]
    refine isAmong_of_subset ?_ hmatch
    rw [List.take_append]
    exact List.subset_append_left _ _

end Cursor

end RobotScript
