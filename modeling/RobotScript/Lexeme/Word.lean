import RobotScript.Text.Bytes

/-!
# Words

Models of `is_word_boundary`, `is_whitespace`, `is_operator_start` and `scan_word`, with
`scan_string`, `scan_number`, `scan_operator` and `scan_generic`. A word is what a script is made of
apart from white space and comments. Its first byte tells its class, and the class tells how far it
goes: a quoted word to its closing quote or the end of the line, a number as far as its digits,
point and exponent go, an operator as far as the operators that are known go, and any other word up
to a byte that cannot be in one.

* The program moves an offset; here `length` is how far it moves, from the bytes that are left.
* `munch`: quoted words, numbers and plain words have a machine that steps over one byte. The state
  `Done` is that there is no next state. After an exponent mark the program looks at the same byte
  twice, first for a sign; `numberStep` does so once.
* `operatorLength`: the lookup in the keyword table is a parameter. Bytes that end inside a
  character are not looked up.
* `decode`: escapes are replaced once the word is measured, not while it is.

Results:

* `length_le`: a word lies within the bytes it is taken from.
* `length_pos`: a word has a byte, unless the bytes begin with white space.
-/

namespace RobotScript.Word

/-! ## Bytes -/

/-- White space between words. -/
def blankBytes : Bytes := [' ', '\r', '\n', '\t'].map Bytes.ascii

/-- The bytes that an operator begins with. -/
def operatorBytes : Bytes :=
  [',', ':', '(', ')', '[', ']', '{', '}', '-', '+', '*', '/', '=', ';', '<', '>', '!', '~', '^',
    '|', '&', '%', '.'].map Bytes.ascii

/-- The bytes that end a word without a class of its own. -/
def boundaryBytes : Bytes :=
  [' ', '\r', '\n', '\t', ',', ':', '(', ')', '[', ']', '{', '}', '-', '+', '*', '/', '=', ';',
    '>', '<', '!', '~', '^', '|', '&', '%', '.'].map Bytes.ascii

/-- Whether a byte is white space. -/
def isBlank (b : UInt8) : Bool := blankBytes.contains b

/-- Whether an operator begins with the byte. -/
def isOperator (b : UInt8) : Bool := operatorBytes.contains b

/-- Whether the byte ends a word without a class of its own. -/
def isBoundary (b : UInt8) : Bool := boundaryBytes.contains b

/-- Whether a byte is a decimal digit. -/
def isDigit (b : UInt8) : Bool := 0x30 ≤ b && b ≤ 0x39

/-- Whether a byte is a hexadecimal digit. -/
def isHexDigit (b : UInt8) : Bool :=
  isDigit b || (0x41 ≤ b && b ≤ 0x46) || (0x61 ≤ b && b ≤ 0x66)

/-- The double quote. -/
def quote : UInt8 := Bytes.ascii '"'

/-- The backslash. -/
def backslash : UInt8 := Bytes.ascii '\\'

/-- Whether a byte ends a quoted word without closing it. -/
def endsLine (b : UInt8) : Bool :=
  b == Bytes.ascii '\r' || b == Bytes.ascii '\n' || b == Bytes.ascii '\t'

/-- The byte that ends a word and is no white space begins an operator. -/
theorem isBlank_or_isOperator_of_isBoundary {b : UInt8} (h : isBoundary b = true) :
    isBlank b = true ∨ isOperator b = true := by
  have all : (boundaryBytes.all fun b => isBlank b || isOperator b) = true := by decide +kernel
  simpa using List.all_eq_true.1 all b (List.contains_iff_mem.1 h)

/-! ## Machines -/

/-- How many bytes a machine takes: it goes on as long as it has a next state for a byte. `taken`
bytes have been taken already. -/
def munch (step : σ → UInt8 → Option σ) (state : σ) (taken : Nat) : Bytes → Nat
  | [] => taken
  | b :: rest =>
    match step state b with
    | some next => munch step next (taken + 1) rest
    | none => taken

theorem le_munch (step : σ → UInt8 → Option σ) (state : σ) (taken : Nat) (s : Bytes) :
    taken ≤ munch step state taken s := by
  induction s generalizing state taken with
  | nil => simp [munch]
  | cons b rest ih =>
    simp only [munch]
    split
    · exact Nat.le_trans (Nat.le_succ taken) (ih _ _)
    · exact Nat.le_refl _

theorem munch_le (step : σ → UInt8 → Option σ) (state : σ) (taken : Nat) (s : Bytes) :
    munch step state taken s ≤ taken + s.length := by
  induction s generalizing state taken with
  | nil => simp [munch]
  | cons b rest ih =>
    simp only [munch, List.length_cons]
    split
    · have := ih ‹_› (taken + 1); omega
    · omega

/-! ## Quoted words -/

/-- Where in a quoted word the scanner is, after the opening quote. -/
inductive QuotedState where
  | body
  | escaped
  | closed
  deriving Repr, DecidableEq

/-- A quoted word goes on to its closing quote. A line break or tab ends it before its closing
quote, and a backslash takes the byte after it, whatever that is. -/
def quotedStep : QuotedState → UInt8 → Option QuotedState
  | .body, b =>
    if b == quote then some .closed
    else if endsLine b then none
    else if b == backslash then some .escaped
    else some .body
  | .escaped, _ => some .body
  | .closed, _ => none

/-- The state after the bytes of a quoted word that follow its opening quote. -/
def quotedState (s : Bytes) : QuotedState :=
  s.foldl (fun state b => (quotedStep state b).getD state) .body

/-- Whether a quoted word has its closing quote. -/
def isClosed (raw : Bytes) : Bool := quotedState (raw.drop 1) == .closed

/-- The byte that a backslash and a byte after it stand for. -/
def unescapeByte (b : UInt8) : UInt8 :=
  if b == Bytes.ascii 'n' then Bytes.ascii '\n'
  else if b == Bytes.ascii 'r' then Bytes.ascii '\r'
  else if b == Bytes.ascii 't' then Bytes.ascii '\t'
  else b

/-- The bytes that the bytes after an opening quote stand for, after those in `found` (last one
first). A backslash stands for itself if nothing follows it. -/
def unescapeOnto (found : Bytes) : Bytes → Bytes
  | [] => found.reverse
  | [b] => (b :: found).reverse
  | b :: c :: rest =>
    if b == backslash then unescapeOnto (unescapeByte c :: found) rest
    else unescapeOnto (b :: found) (c :: rest)

/-- How many pairs of a backslash and a byte after it the bytes after an opening quote hold, besides
`found`. -/
def escapesFrom (found : Nat) : Bytes → Nat
  | [] => found
  | [_] => found
  | b :: c :: rest =>
    if b == backslash then escapesFrom (found + 1) rest else escapesFrom found (c :: rest)

/-! ## Numbers -/

/-- Where in a number the scanner is. -/
inductive NumberState where
  /-- Among decimal digits, with a point or an exponent mark before or not. -/
  | decimal (point exponent : Bool)
  /-- Right after the exponent mark. -/
  | sign (point : Bool)
  /-- Among hexadecimal digits. -/
  | hexadecimal
  deriving Repr, DecidableEq

/-- A decimal number has one point and one exponent mark at most, in any order. -/
def decimalStep (point exponent : Bool) (b : UInt8) : Option NumberState :=
  if isDigit b then some (.decimal point exponent)
  else if b == Bytes.ascii '.' && !point then some (.decimal true exponent)
  else if (b == Bytes.ascii 'e' || b == Bytes.ascii 'E') && !exponent then some (.sign point)
  else none

/-- How a number goes on. A sign belongs to it right after the exponent mark only. -/
def numberStep : NumberState → UInt8 → Option NumberState
  | .decimal point exponent, b => decimalStep point exponent b
  | .sign point, b =>
    if b == Bytes.ascii '+' || b == Bytes.ascii '-' then some (.decimal point true)
    else decimalStep point true b
  | .hexadecimal, b => if isHexDigit b then some .hexadecimal else none

/-- The length of a number at the front of the bytes. -/
def numberLength : Bytes → Nat
  | a :: b :: rest =>
    if a == Bytes.ascii '0' && b == Bytes.ascii 'x' then munch numberStep .hexadecimal 2 rest
    else munch numberStep (.decimal false false) 0 (a :: b :: rest)
  | s => munch numberStep (.decimal false false) 0 s

/-! ## Operators -/

/-- The length of an operator that begins with the bytes `taken`: it is extended byte by byte as
long as it ends where a character ends and is known. -/
def operatorLength (known : Bytes → Bool) (taken : Bytes) : Bytes → Nat
  | [] => taken.length
  | b :: rest =>
    if Bytes.startsCharacter rest && known (taken ++ [b]) then
      operatorLength known (taken ++ [b]) rest
    else taken.length

theorem le_operatorLength (known : Bytes → Bool) (taken s : Bytes) :
    taken.length ≤ operatorLength known taken s := by
  induction s generalizing taken with
  | nil => simp [operatorLength]
  | cons b rest ih =>
    simp only [operatorLength]
    split
    · have := ih (taken ++ [b]); simp at this; omega
    · exact Nat.le_refl _

theorem operatorLength_le (known : Bytes → Bool) (taken s : Bytes) :
    operatorLength known taken s ≤ taken.length + s.length := by
  induction s generalizing taken with
  | nil => simp [operatorLength]
  | cons b rest ih =>
    simp only [operatorLength, List.length_cons]
    split
    · have := ih (taken ++ [b]); simp at this; omega
    · omega

/-! ## Words of all classes -/

/-- The classes of words. -/
inductive Kind where
  | quoted
  | number
  | operator
  | plain
  deriving Repr, DecidableEq

/-- The class of a word by its first byte. -/
def Kind.ofByte (b : UInt8) : Kind :=
  if b == quote then .quoted
  else if isDigit b then .number
  else if isOperator b then .operator
  else .plain

theorem isDigit_of_ofByte_eq_number {b : UInt8} (h : Kind.ofByte b = .number) :
    isDigit b = true := by
  grind [Kind.ofByte]

theorem isOperator_of_ofByte_eq_plain {b : UInt8} (h : Kind.ofByte b = .plain) :
    isOperator b = false := by
  grind [Kind.ofByte]

/-- A plain word goes on up to a byte that ends words. -/
def plainStep (_ : Unit) (b : UInt8) : Option Unit := if isBoundary b then none else some ()

/-- The length of the word at the front of the bytes, where `known` are the known operators. -/
def length (known : Bytes → Bool) : Bytes → Nat
  | [] => 0
  | b :: rest =>
    match Kind.ofByte b with
    | .quoted => munch quotedStep .body 1 rest
    | .number => numberLength (b :: rest)
    | .operator => operatorLength known [b] rest
    | .plain => munch plainStep () 0 (b :: rest)

/-- The bytes of the text that a word stands for: those of the word itself, and for a quoted word
those that its escapes stand for. -/
def decode : Bytes → Bytes
  | [] => []
  | b :: rest => if b == quote then b :: unescapeOnto [] rest else b :: rest

/-- How many escapes a word has. -/
def escapes : Bytes → Nat
  | [] => 0
  | b :: rest => if b == quote then escapesFrom 0 rest else 0

theorem length_le (known : Bytes → Bool) (s : Bytes) : length known s ≤ s.length := by
  cases s with
  | nil => simp [length]
  | cons b rest =>
    simp only [length, List.length_cons]
    split
    · have := munch_le quotedStep .body 1 rest; omega
    · cases rest with
      | nil =>
        have := munch_le numberStep (.decimal false false) 0 [b]
        simpa [numberLength] using this
      | cons c rest =>
        simp only [numberLength, List.length_cons]
        split
        · have := munch_le numberStep .hexadecimal 2 rest; omega
        · have := munch_le numberStep (.decimal false false) 0 (b :: c :: rest)
          simp at this; omega
    · have := operatorLength_le known [b] rest; simp at this; omega
    · have := munch_le plainStep () 0 (b :: rest); simp at this; omega

theorem length_pos (known : Bytes → Bool) (b : UInt8) (rest : Bytes) (h : isBlank b = false) :
    0 < length known (b :: rest) := by
  simp only [length]
  split
  · exact Nat.lt_of_lt_of_le Nat.one_pos (le_munch _ _ 1 rest)
  · rename_i hk
    have hd := isDigit_of_ofByte_eq_number hk
    have decimal : ∀ s, 0 < munch numberStep (.decimal false false) 0 (b :: s) := by
      intro s
      simp only [munch, numberStep, decimalStep, hd, if_true]
      exact Nat.lt_of_lt_of_le Nat.one_pos (le_munch _ _ 1 s)
    cases rest with
    | nil => simpa [numberLength] using decimal []
    | cons c rest =>
      simp only [numberLength]
      split
      · exact Nat.lt_of_lt_of_le Nat.two_pos (le_munch _ _ 2 rest)
      · exact decimal _
  · have := le_operatorLength known [b] rest; simp at this; omega
  · rename_i hk
    have hop := isOperator_of_ofByte_eq_plain hk
    have hb : isBoundary b = false := by
      cases hc : isBoundary b
      · rfl
      · rcases isBlank_or_isOperator_of_isBoundary hc with h' | h' <;> simp_all
    simp only [munch, plainStep, hb]
    exact Nat.lt_of_lt_of_le Nat.one_pos (le_munch _ _ 1 rest)

end RobotScript.Word
