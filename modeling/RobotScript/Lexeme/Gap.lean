import RobotScript.Lexeme.Word

/-!
# Gaps

Models of `scan_separator` and `scan_block_comment`. A gap is what stands between words: white
space, line comments and block comments in any number. The two slashes or the slash and star that
open a comment are looked for after a word has ended, so they do not end one themselves.

The program moves an offset, counts comments and notes where an open one starts. Here a gap is the
list of its items, and `comments` and `openComment?` read the list.

Results:

* `scan_append`: the items of a gap and what follows them are the bytes they were taken from.
* `scan_length_lt`: white space at the front of the bytes is taken.
-/

namespace RobotScript

/-- A part of a gap. -/
inductive GapItem where
  /-- A run of white space, as long as it goes. -/
  | blank (run : Bytes)
  /-- A comment from two slashes up to the end of the line, which does not belong to it. -/
  | line (text : Bytes)
  /-- A comment from a slash and a star on; `closed` if it ends in a star and a slash, else it goes
  up to the end of the source. -/
  | block (text : Bytes) (closed : Bool)
  deriving Repr, DecidableEq

namespace GapItem

/-- The bytes of an item. -/
def bytes : GapItem → Bytes
  | .blank run => run
  | .line text => text
  | .block text _ => text

/-- Whether an item is a comment. -/
def isComment : GapItem → Bool
  | .blank _ => false
  | .line _ => true
  | .block _ _ => true

/-- Whether an item is a block comment without its end. -/
def isOpen : GapItem → Bool
  | .block _ closed => !closed
  | _ => false

end GapItem

namespace Gap

/-- The slash. -/
def slash : UInt8 := Bytes.ascii '/'

/-- The star. -/
def star : UInt8 := Bytes.ascii '*'

/-- The length of a block comment whose first `taken` bytes have been taken, and whether it has an
end. -/
def blockLength (taken : Nat) : Bytes → Nat × Bool
  | [] => (taken, false)
  | [_] => (taken + 1, false)
  | a :: b :: rest =>
    if a == star && b == slash then (taken + 2, true) else blockLength (taken + 1) (b :: rest)

/-- Whether a byte belongs to a line comment. -/
def inLine (b : UInt8) : Bool := b != Bytes.ascii '\n'

/-- The item at the front of the bytes, if a gap begins there, and what follows it. The end of a
block comment is looked for from its opening slash on, so a slash, a star and a slash are a whole
comment. -/
def next? : Bytes → Option (GapItem × Bytes)
  | [] => none
  | a :: rest =>
    if Word.isBlank a then
      some (.blank (a :: rest.takeWhile Word.isBlank), rest.dropWhile Word.isBlank)
    else if a == slash && rest.head? == some slash then
      some (.line ((a :: rest).takeWhile inLine), (a :: rest).dropWhile inLine)
    else if a == slash && rest.head? == some star then
      let (n, closed) := blockLength 0 (a :: rest)
      some (.block ((a :: rest).take n) closed, (a :: rest).drop n)
    else none

/-! ## An item is taken from the front -/

theorem next?_append {s rest : Bytes} {item : GapItem} (h : next? s = some (item, rest)) :
    item.bytes ++ rest = s := by
  cases s with
  | nil => simp [next?] at h
  | cons a s =>
    simp only [next?] at h
    split at h
    · cases h; simp [GapItem.bytes, List.takeWhile_append_dropWhile]
    · split at h
      · cases h; simp only [GapItem.bytes, List.takeWhile_append_dropWhile]
      · split at h
        · cases h; simp only [GapItem.bytes, List.take_append_drop]
        · cases h

theorem le_blockLength (taken : Nat) (s : Bytes) : taken ≤ (blockLength taken s).1 := by
  fun_induction blockLength taken s with
  | case1 => exact Nat.le_refl _
  | case2 => exact Nat.le_succ _
  | case3 => exact Nat.le_add_right _ 2
  | case4 _ _ _ _ _ ih => omega

theorem bytes_ne_nil_of_next? {s rest : Bytes} {item : GapItem} (h : next? s = some (item, rest)) :
    item.bytes ≠ [] := by
  cases s with
  | nil => simp [next?] at h
  | cons a s =>
    simp only [next?] at h
    split at h
    · cases h; simp [GapItem.bytes]
    · split at h
      · rename_i hs
        cases h
        have ha : a = slash := by simp_all
        have : inLine a = true := by rw [ha]; decide
        simp [GapItem.bytes, this]
      · split at h
        · rename_i hs
          cases h
          cases s with
          | nil => simp at hs
          | cons b s =>
            have ha : a = slash := by simp_all
            have hc : (a == star && b == slash) = false := by rw [ha]; rfl
            have hl := le_blockLength 1 (b :: s)
            obtain ⟨n, hn⟩ := Nat.exists_eq_add_of_le hl
            have he : (blockLength 0 (a :: b :: s)).1 = n + 1 := by
              simp [blockLength, hc, hn, Nat.add_comm]
            simp [GapItem.bytes, he]
        · cases h

theorem length_lt_of_next? {s rest : Bytes} {item : GapItem} (h : next? s = some (item, rest)) :
    rest.length < s.length := by
  have ha := next?_append h
  have hne := List.length_pos_iff.2 (bytes_ne_nil_of_next? h)
  rw [← ha, List.length_append]
  omega

/-! ## Whole gaps -/

/-- All items at the front of the bytes after those in `found` (last one first), and what follows
them. -/
def scanOnto (found : List GapItem) (s : Bytes) : List GapItem × Bytes :=
  match _h : next? s with
  | none => (found.reverse, s)
  | some (item, rest) => scanOnto (item :: found) rest
termination_by s.length
decreasing_by exact length_lt_of_next? _h

/-- All items at the front of the bytes, and what follows them. -/
def scan (s : Bytes) : List GapItem × Bytes := scanOnto [] s

/-- The bytes of items. -/
def bytes (items : List GapItem) : Bytes := items.flatMap GapItem.bytes

/-- The number of comments among items. -/
def comments (items : List GapItem) : Nat := items.countP GapItem.isComment

/-- Where, in bytes after the start of the items, a block comment without its end starts. -/
def openComment? (items : List GapItem) : Option Nat :=
  match items.findIdx? GapItem.isOpen with
  | some i => some (bytes (items.take i)).length
  | none => none

theorem scanOnto_append (found : List GapItem) (s : Bytes) :
    bytes (scanOnto found s).1 ++ (scanOnto found s).2 = bytes found.reverse ++ s := by
  fun_induction scanOnto found s with
  | case1 => rfl
  | case2 found s item rest h ih =>
    rw [ih, ← next?_append h]
    simp [bytes]

/-- A gap and what follows it are the bytes they were taken from. -/
theorem scan_append (s : Bytes) : bytes (scan s).1 ++ (scan s).2 = s := by
  simpa [scan, bytes] using scanOnto_append [] s

theorem scanOnto_length_le (found : List GapItem) (s : Bytes) :
    (scanOnto found s).2.length ≤ s.length := by
  fun_induction scanOnto found s with
  | case1 => exact Nat.le_refl _
  | case2 found s item rest h ih => exact Nat.le_trans ih (Nat.le_of_lt (length_lt_of_next? h))

theorem scan_length_le (s : Bytes) : (scan s).2.length ≤ s.length := scanOnto_length_le [] s

/-- White space at the front of the bytes is taken. -/
theorem scan_length_lt {b : UInt8} {s : Bytes} (h : Word.isBlank b = true) :
    (scan (b :: s)).2.length < (b :: s).length := by
  unfold scan scanOnto
  have hn : next? (b :: s) =
      some (.blank (b :: s.takeWhile Word.isBlank), s.dropWhile Word.isBlank) := by
    simp [next?, h]
  split
  · simp_all
  · rename_i item rest h'
    exact Nat.lt_of_le_of_lt (scanOnto_length_le _ rest) (length_lt_of_next? h')

end Gap

end RobotScript
