import RobotScript.Lexeme.Word
import RobotScript.Proofs.Encoding

/-!
# Where a word ends

A word goes on as far as the machine of its class does, or as far as known operators do. Here is
when given bytes are the whole word at the front of others: their own bytes have to drive the
machine on, and what follows them has to stop it.

Results:

* `Word.munch_append_iff`, `Word.operatorLength_append_iff`: when a machine, or an operator, takes
  exactly given bytes from the front of others.
* `Word.length_append_iff_of_quoted` and its like for the other classes: when given bytes are a
  whole word.
* `Word.length_append_of_stopsLike`: a word that ends before some bytes ends before others that stop
  it in the same way.
* `Word.isText_of_length_append`: a word at the front of a text ends where a character begins.
-/

namespace RobotScript.Word

open Bytes (IsText startsCharacter)

/-! ## Machines -/

variable {σ : Type} {step : σ → UInt8 → Option σ}

/-- The machine does not go on with the bytes. -/
def Halts (step : σ → UInt8 → Option σ) (state : σ) (s : Bytes) : Prop :=
  ∀ b ∈ s.head?, step state b = none

/-- A machine takes exactly `w` from the front if the bytes of `w` drive it on, and it halts before
the bytes that follow. -/
theorem munch_append_iff (step : σ → UInt8 → Option σ) (state : σ) (taken : Nat)
    (w rest : Bytes) :
    munch step state taken (w ++ rest) = taken + w.length ↔
      ∃ state', w.foldlM step state = some state' ∧ Halts step state' rest := by
  induction w generalizing state taken with
  | nil =>
    simp only [List.nil_append, List.length_nil, Nat.add_zero, List.foldlM_nil, Option.pure_def,
      Option.some.injEq, exists_eq_left']
    cases rest with
    | nil => simp [munch, Halts]
    | cons b rest =>
      simp only [munch, Halts, List.head?_cons, Option.mem_some_iff, forall_eq']
      cases hb : step state b with
      | none => simp
      | some next =>
        have := le_munch step next (taken + 1) rest
        simp only [reduceCtorEq, iff_false]
        omega
  | cons b w ih =>
    rw [List.foldlM_cons, List.cons_append, List.length_cons, munch]
    cases hb : step state b with
    | none => simp
    | some next =>
      simp only [Option.bind_eq_bind, Option.bind_some]
      rw [← ih next (taken + 1)]
      omega

theorem forall_of_foldlM {P : UInt8 → Prop} (hP : ∀ state b next, step state b = some next → P b)
    {state state' : σ} {w : Bytes} (h : w.foldlM step state = some state') : ∀ b ∈ w, P b := by
  induction w generalizing state with
  | nil => simp
  | cons b w ih =>
    rw [List.foldlM_cons, Option.bind_eq_bind, Option.bind_eq_some_iff] at h
    obtain ⟨next, hb, hw⟩ := h
    intro x hx
    rcases List.mem_cons.1 hx with rfl | hx
    · exact hP _ _ _ hb
    · exact ih hw x hx

theorem foldlM_append_singleton_iff {state state' : σ} {w : Bytes} {b : UInt8} :
    (w ++ [b]).foldlM step state = some state' ↔
      ∃ next, w.foldlM step state = some next ∧ step next b = some state' := by
  rw [List.foldlM_append, Option.bind_eq_bind, Option.bind_eq_some_iff]
  simp

/-! ## Quoted words -/

theorem quotedStep_eq_closed_iff {state : QuotedState} {b : UInt8} :
    quotedStep state b = some .closed ↔ state = .body ∧ b = quote := by
  cases state with
  | body =>
    simp only [quotedStep, true_and]
    by_cases hq : b = quote
    · simp [hq]
    · simp only [hq, beq_iff_eq, ite_false, iff_false]
      split
      · simp
      · split <;> simp
  | escaped => simp [quotedStep]
  | closed => simp [quotedStep]

theorem quotedStep_eq_escaped_iff {state : QuotedState} {b : UInt8} :
    quotedStep state b = some .escaped ↔ state = .body ∧ b = backslash := by
  cases state with
  | body =>
    simp only [quotedStep, true_and]
    by_cases hb : b = backslash
    · subst hb
      simp only [iff_true]
      rfl
    · simp only [hb, beq_iff_eq, ite_false, iff_false]
      split
      · simp
      · split <;> simp
  | escaped => simp [quotedStep]
  | closed => simp [quotedStep]

theorem quotedStep_eq_body_iff {state : QuotedState} {b : UInt8} :
    quotedStep state b = some .body ↔ state = .escaped ∨
      state = .body ∧ b ≠ quote ∧ b ≠ backslash ∧ endsLine b = false := by
  cases state with
  | body =>
    simp only [quotedStep, reduceCtorEq, false_or, true_and]
    by_cases hq : b = quote
    · simp [hq]
    · by_cases he : endsLine b = true
      · simp [hq, he]
      · by_cases hb : b = backslash
        · subst hb
          decide
        · simp [hq, he, hb]
  | escaped => simp [quotedStep]
  | closed => simp [quotedStep]

theorem quotedStep_body_eq_none_iff {b : UInt8} :
    quotedStep .body b = none ↔ endsLine b = true := by
  rw [quotedStep]
  by_cases hq : b = quote
  · subst hq
    decide
  · rw [if_neg (by simpa using hq)]
    cases endsLine b with
    | true => simp
    | false => cases b == backslash <;> simp

/-- A quoted word is closed by the quote at its end. -/
theorem foldlM_quotedStep_eq_closed {w : Bytes}
    (h : w.foldlM quotedStep .body = some .closed) :
    ∃ body, w = body ++ [quote] ∧ body.foldlM quotedStep .body = some .body := by
  rcases List.eq_nil_or_concat w with rfl | ⟨body, b, rfl⟩
  · cases h
  · rw [List.concat_eq_append, foldlM_append_singleton_iff] at h
    obtain ⟨state, hbody, hb⟩ := h
    obtain ⟨rfl, rfl⟩ := quotedStep_eq_closed_iff.1 hb
    exact ⟨body, List.concat_eq_append, hbody⟩

/-- A quoted word that is not closed ends before a line break or tab, or at the end. -/
theorem endsLine_of_halts {rest : Bytes} {state : QuotedState} (h : Halts quotedStep state rest)
    (hs : state ≠ .closed) : rest = [] ∨ state = .body ∧ ∃ b r, rest = b :: r ∧ endsLine b := by
  cases rest with
  | nil => exact Or.inl rfl
  | cons b r =>
    have hb := h b rfl
    cases state with
    | closed => exact absurd rfl hs
    | escaped => cases hb
    | body =>
      simp only [quotedStep] at hb
      split at hb
      · cases hb
      · split at hb
        · rename_i he
          exact Or.inr ⟨rfl, b, r, rfl, he⟩
        · split at hb <;> cases hb

theorem lt_of_endsLine {b : UInt8} (h : endsLine b = true) : b < 0x80 := by
  simp only [endsLine, Bool.or_eq_true, beq_iff_eq] at h
  rcases h with (rfl | rfl) | rfl <;> decide

/-! ## Numbers -/

/-- The state after the bytes of a number. -/
def numberRun : Bytes → Option NumberState
  | a :: b :: rest =>
    if a == Bytes.ascii '0' && b == Bytes.ascii 'x' then rest.foldlM numberStep .hexadecimal
    else (a :: b :: rest).foldlM numberStep (.decimal false false)
  | s => s.foldlM numberStep (.decimal false false)

/-- A number is exactly `w` if its bytes drive the machine on, the machine halts before the bytes
that follow, and these do not make a hexadecimal mark of a lone zero. -/
theorem numberLength_append_iff {w : Bytes} (hw : w ≠ []) (rest : Bytes) :
    numberLength (w ++ rest) = w.length ↔
      (∃ state, numberRun w = some state ∧ Halts numberStep state rest) ∧
        ¬(w = [Bytes.ascii '0'] ∧ rest.head? = some (Bytes.ascii 'x')) := by
  obtain ⟨a, w, rfl⟩ := List.exists_cons_of_ne_nil hw
  have decimal := munch_append_iff numberStep (.decimal false false) 0 (a :: w) rest
  rw [Nat.zero_add] at decimal
  cases w with
  | nil =>
    cases rest with
    | nil => simpa [numberLength, numberRun] using decimal
    | cons b rest =>
      simp only [List.cons_append, List.nil_append, numberLength, numberRun] at decimal ⊢
      by_cases hx : a = Bytes.ascii '0' ∧ b = Bytes.ascii 'x'
      · have := le_munch numberStep .hexadecimal 2 rest
        simp [hx]
        omega
      · have hne : (a == Bytes.ascii '0' && b == Bytes.ascii 'x') = false := by simpa using hx
        simp only [hne, Bool.false_eq_true, ite_false, decimal, List.cons.injEq, and_true,
          List.head?_cons, Option.some.injEq, hx, not_false_eq_true]
  | cons b w =>
    simp only [List.cons_append, numberLength, numberRun] at decimal ⊢
    by_cases hx : (a == Bytes.ascii '0' && b == Bytes.ascii 'x') = true
    · have hex := munch_append_iff numberStep .hexadecimal 2 w rest
      simp only [hx, ite_true, List.length_cons]
      rw [← hex]
      simp
      omega
    · simp only [hx]
      simpa using decimal

theorem lt_of_isDigit {b : UInt8} (h : isDigit b = true) : b < 0x80 := by
  simp only [isDigit, Bool.and_eq_true, decide_eq_true_eq] at h
  exact UInt8.lt_of_le_of_lt h.2 (by decide)

theorem lt_of_isHexDigit {b : UInt8} (h : isHexDigit b = true) : b < 0x80 := by
  simp only [isHexDigit, Bool.or_eq_true, Bool.and_eq_true, decide_eq_true_eq] at h
  rcases h with (h | h) | h
  · exact lt_of_isDigit h
  · exact UInt8.lt_of_le_of_lt h.2 (by decide)
  · exact UInt8.lt_of_le_of_lt h.2 (by decide)

theorem lt_of_decimalStep {point exponent : Bool} {b : UInt8} {next : NumberState}
    (h : decimalStep point exponent b = some next) : b < 0x80 := by
  unfold decimalStep at h
  split at h
  · rename_i hd
    exact lt_of_isDigit hd
  · split at h
    · rename_i hp
      simp only [Bool.and_eq_true, beq_iff_eq] at hp
      rw [hp.1]
      decide
    · split at h
      · rename_i he
        simp only [Bool.and_eq_true, Bool.or_eq_true, beq_iff_eq] at he
        rcases he.1 with rfl | rfl <;> decide
      · cases h

theorem lt_of_numberStep (state : NumberState) (b : UInt8) (next : NumberState)
    (h : numberStep state b = some next) : b < 0x80 := by
  cases state with
  | decimal point exponent => exact lt_of_decimalStep h
  | sign point =>
    simp only [numberStep] at h
    split at h
    · rename_i hs
      simp only [Bool.or_eq_true, beq_iff_eq] at hs
      rcases hs with rfl | rfl <;> decide
    · exact lt_of_decimalStep h
  | hexadecimal =>
    simp only [numberStep] at h
    split at h
    · rename_i hx
      exact lt_of_isHexDigit hx
    · cases h

/-- All bytes of a number are ASCII characters. -/
theorem lt_of_mem_numberRun {w : Bytes} {state : NumberState} (h : numberRun w = some state) :
    ∀ b ∈ w, b < 0x80 := by
  unfold numberRun at h
  split at h
  · rename_i a b rest
    split at h
    · rename_i hx
      simp only [Bool.and_eq_true, beq_iff_eq] at hx
      intro y hy
      rcases List.mem_cons.1 hy with rfl | hy
      · rw [hx.1]; decide
      rcases List.mem_cons.1 hy with rfl | hy
      · rw [hx.2]; decide
      exact forall_of_foldlM lt_of_numberStep h y hy
    · exact forall_of_foldlM lt_of_numberStep h
  · exact forall_of_foldlM lt_of_numberStep h

/-! ## Operators -/

variable {known : Bytes → Bool}

theorem forall_front_nil {P : Bytes → Bytes → Prop} :
    (∀ u v, u ≠ [] → [] = u ++ v → P u v) ↔ True := by
  simp only [iff_true]
  intro u v hu he
  exact absurd (List.append_eq_nil_iff.1 he.symm).1 hu

theorem forall_front_cons {P : Bytes → Bytes → Prop} {b : UInt8} {w : Bytes} :
    (∀ u v, u ≠ [] → b :: w = u ++ v → P u v) ↔
      P [b] w ∧ ∀ u v, u ≠ [] → w = u ++ v → P (b :: u) v := by
  constructor
  · intro h
    exact ⟨h [b] w (by simp) rfl, fun u v _ he => h (b :: u) v (by simp) (by rw [he]; rfl)⟩
  · rintro ⟨hb, h⟩ u v hu he
    obtain ⟨c, u, rfl⟩ := List.exists_cons_of_ne_nil hu
    obtain ⟨rfl, rfl⟩ := List.cons.inj he
    cases u with
    | nil => exact hb
    | cons c u => exact h (c :: u) v (by simp) rfl

/-- An operator grows to exactly `taken ++ w` if each step on the way there ends where a character
ends and is known, and the step after it does not. -/
theorem operatorLength_append_iff (taken w rest : Bytes) :
    operatorLength known taken (w ++ rest) = taken.length + w.length ↔
      (∀ u v, u ≠ [] → w = u ++ v →
        startsCharacter (v ++ rest) = true ∧ known (taken ++ u) = true) ∧
      ∀ b r, rest = b :: r → ¬(startsCharacter r = true ∧ known (taken ++ w ++ [b]) = true) := by
  induction w generalizing taken with
  | nil =>
    rw [forall_front_nil, true_and, List.nil_append, List.length_nil, Nat.add_zero, List.append_nil]
    cases rest with
    | nil => simp [operatorLength]
    | cons b r =>
      rw [operatorLength]
      by_cases hb : (startsCharacter r && known (taken ++ [b])) = true
      · have hle := le_operatorLength known (taken ++ [b]) r
        rw [List.length_append, List.length_singleton] at hle
        rw [if_pos hb]
        constructor
        · omega
        · intro h
          exact absurd (Bool.and_eq_true_iff.1 hb) (h b r rfl)
      · rw [if_neg hb, eq_self, true_iff]
        rintro b' r' he
        cases he
        rwa [← Bool.and_eq_true_iff]
  | cons b w ih =>
    have ih := ih (taken ++ [b])
    rw [forall_front_cons, List.cons_append, operatorLength]
    simp only [List.append_assoc, List.cons_append, List.nil_append, List.length_append,
      List.length_cons, List.length_nil] at ih ⊢
    by_cases hb : (startsCharacter (w ++ rest) && known (taken ++ [b])) = true
    · rw [if_pos hb, show taken.length + (w.length + 1) = taken.length + (0 + 1) + w.length by omega,
        ih]
      simp only [Bool.and_eq_true_iff.1 hb, and_self, true_and]
    · rw [if_neg hb]
      constructor
      · omega
      · rintro ⟨⟨h, -⟩, -⟩
        exact absurd (Bool.and_eq_true_iff.2 h) hb

/-- An operator that begins before a character ends where a character begins. -/
theorem startsCharacter_of_operatorLength {taken w rest : Bytes}
    (h : operatorLength known taken (w ++ rest) = taken.length + w.length)
    (hs : startsCharacter (w ++ rest) = true) : startsCharacter rest = true := by
  cases w with
  | nil => exact hs
  | cons b w =>
    have := ((operatorLength_append_iff taken (b :: w) rest).1 h).1 (b :: w) [] (by simp) (by simp)
    exact this.1

/-! ## Plain words -/

theorem plainStep_eq_none_iff {u : Unit} {b : UInt8} :
    plainStep u b = none ↔ isBoundary b = true := by
  simp [plainStep]

theorem exists_foldlM_plainStep_iff {w : Bytes} :
    (∃ state, w.foldlM plainStep () = some state) ↔ ∀ c ∈ w, isBoundary c = false := by
  induction w with
  | nil => simp
  | cons b w ih =>
    rw [List.foldlM_cons, List.forall_mem_cons, ← ih]
    cases hb : isBoundary b <;> simp [plainStep, hb]

theorem lt_of_isBoundary {b : UInt8} (h : isBoundary b = true) : b < 0x80 := by
  have all : ∀ b ∈ boundaryBytes, b < 0x80 := by decide +kernel
  exact all b (List.contains_iff_mem.1 h)

theorem lt_of_isOperator {b : UInt8} (h : isOperator b = true) : b < 0x80 := by
  have all : ∀ b ∈ operatorBytes, b < 0x80 := by decide +kernel
  exact all b (List.contains_iff_mem.1 h)

/-! ## Words of all classes -/

theorem isOperator_of_ofByte_eq_operator {b : UInt8} (h : Kind.ofByte b = .operator) :
    isOperator b = true := by
  grind [Kind.ofByte]

theorem isBlank_eq_false_of_ofByte_ne {b : UInt8} (h : Kind.ofByte b ≠ .plain) :
    isBlank b = false := by
  have blanks : ∀ b ∈ blankBytes, Kind.ofByte b = .plain := by decide +kernel
  rw [← Bool.not_eq_true]
  intro hblank
  exact h (blanks b (List.contains_iff_mem.1 hblank))

theorem ofByte_eq_number_iff {b : UInt8} : Kind.ofByte b = .number ↔ isDigit b = true := by
  refine ⟨isDigit_of_ofByte_eq_number, fun hd => ?_⟩
  have hq : b ≠ quote := by
    rintro rfl
    cases hd
  rw [Kind.ofByte, if_neg (by simpa using hq), if_pos hd]

theorem ofByte_eq_operator_iff {b : UInt8} : Kind.ofByte b = .operator ↔ isOperator b = true := by
  refine ⟨isOperator_of_ofByte_eq_operator, fun hop => ?_⟩
  have operators : ∀ b ∈ operatorBytes, Kind.ofByte b = .operator := by decide +kernel
  exact operators b (List.contains_iff_mem.1 hop)

theorem ofByte_eq_quoted_iff {b : UInt8} : Kind.ofByte b = .quoted ↔ b = quote := by
  grind [Kind.ofByte]

theorem ofByte_eq_plain_iff {b : UInt8} :
    Kind.ofByte b = .plain ↔ isDigit b = false ∧ b ≠ quote ∧ isOperator b = false := by
  grind [Kind.ofByte]

section

variable {b : UInt8} {w rest : Bytes}

/-- When `b :: w` is a whole quoted word. -/
theorem length_append_iff_of_quoted (hb : Kind.ofByte b = .quoted) :
    length known (b :: w ++ rest) = (b :: w).length ↔
      ∃ state, w.foldlM quotedStep .body = some state ∧ Halts quotedStep state rest := by
  rw [← munch_append_iff quotedStep .body 1, List.cons_append, length, List.length_cons,
    Nat.add_comm]
  simp only [hb]

/-- When `b :: w` is a whole number. -/
theorem length_append_iff_of_number (hb : Kind.ofByte b = .number) :
    length known (b :: w ++ rest) = (b :: w).length ↔
      (∃ state, numberRun (b :: w) = some state ∧ Halts numberStep state rest) ∧
        ¬(b :: w = [Bytes.ascii '0'] ∧ rest.head? = some (Bytes.ascii 'x')) := by
  rw [← numberLength_append_iff (by simp), List.cons_append, length]
  simp only [hb]

/-- When `b :: w` is a whole operator. -/
theorem length_append_iff_of_operator (hb : Kind.ofByte b = .operator) :
    length known (b :: w ++ rest) = (b :: w).length ↔
      operatorLength known [b] (w ++ rest) = [b].length + w.length := by
  rw [List.cons_append, length, List.length_cons, List.length_singleton, Nat.add_comm]
  simp only [hb]

/-- When `b :: w` is a whole plain word. -/
theorem length_append_iff_of_plain (hb : Kind.ofByte b = .plain) :
    length known (b :: w ++ rest) = (b :: w).length ↔
      (∀ c ∈ b :: w, isBoundary c = false) ∧ ∀ c ∈ rest.head?, isBoundary c = true := by
  have := munch_append_iff plainStep () 0 (b :: w) rest
  rw [Nat.zero_add] at this
  rw [List.cons_append, length]
  simp only [hb]
  rw [← List.cons_append, this, ← exists_foldlM_plainStep_iff]
  simp only [Halts, plainStep_eq_none_iff, exists_and_right]

end

/-! ## Words before other bytes -/

/-- What stops the word `w` before `rest` stops it before `rest'`, too, whatever its class is. -/
structure StopsLike (known : Bytes → Bool) (w rest rest' : Bytes) : Prop where
  quoted : ∀ {state}, Halts quotedStep state rest → Halts quotedStep state rest'
  number : ∀ {state}, Halts numberStep state rest → Halts numberStep state rest'
  /-- No hexadecimal mark comes of a lone zero that was none. -/
  hexadecimal : rest'.head? = some (Bytes.ascii 'x') → rest.head? = some (Bytes.ascii 'x')
  plain : (∀ c ∈ rest.head?, isBoundary c = true) → ∀ c ∈ rest'.head?, isBoundary c = true
  starts : startsCharacter rest = true → startsCharacter rest' = true
  operator : (∀ b r, rest = b :: r → ¬(startsCharacter r = true ∧ known (w ++ [b]) = true)) →
    ∀ b r, rest' = b :: r → ¬(startsCharacter r = true ∧ known (w ++ [b]) = true)

/-- A word ends before all bytes that stop it like those that it ends before. -/
theorem length_append_of_stopsLike {w rest rest' : Bytes} (hw : w ≠ [])
    (hr : StopsLike known w rest rest') (h : length known (w ++ rest) = w.length) :
    length known (w ++ rest') = w.length := by
  obtain ⟨b, w, rfl⟩ := List.exists_cons_of_ne_nil hw
  cases hb : Kind.ofByte b with
  | quoted =>
    obtain ⟨state, hstate, hhalts⟩ := (length_append_iff_of_quoted hb).1 h
    exact (length_append_iff_of_quoted hb).2 ⟨state, hstate, hr.quoted hhalts⟩
  | number =>
    obtain ⟨⟨state, hstate, hhalts⟩, hzero⟩ := (length_append_iff_of_number hb).1 h
    exact (length_append_iff_of_number hb).2
      ⟨⟨state, hstate, hr.number hhalts⟩, fun hx => hzero ⟨hx.1, hr.hexadecimal hx.2⟩⟩
  | operator =>
    obtain ⟨hgrow, hstop⟩ :=
      (operatorLength_append_iff [b] w rest).1 ((length_append_iff_of_operator hb).1 h)
    refine (length_append_iff_of_operator hb).2
      ((operatorLength_append_iff [b] w rest').2 ⟨fun u v hu he => ?_, hr.operator hstop⟩)
    obtain ⟨hstart, hknown⟩ := hgrow u v hu he
    cases v with
    | nil => exact ⟨hr.starts hstart, hknown⟩
    | cons c v => exact ⟨hstart, hknown⟩
  | plain =>
    obtain ⟨hall, hstop⟩ := (length_append_iff_of_plain hb).1 h
    exact (length_append_iff_of_plain hb).2 ⟨hall, hr.plain hstop⟩

/-- What follows a word at the front of a text is a text. -/
theorem isText_of_length_append {w rest : Bytes} (ht : IsText (w ++ rest))
    (hl : length known (w ++ rest) = w.length) : IsText rest := by
  rcases w with _ | ⟨b, w⟩
  · exact ht
  have of_starts (h : startsCharacter rest = true) : IsText rest := (ht.of_append h).2
  cases hb : Kind.ofByte b with
  | quoted =>
    obtain ⟨state, hw, hs⟩ := (length_append_iff_of_quoted hb).1 hl
    by_cases hc : state = .closed
    · -- the closing quote is a whole character
      subst hc
      obtain ⟨body, rfl, -⟩ := foldlM_quotedStep_eq_closed hw
      have hquote : IsText ((b :: body) ++ quote :: rest) := by simpa using ht
      exact of_starts (hquote.startsCharacter_of_lt (by decide))
    · rcases endsLine_of_halts hs hc with rfl | ⟨-, c, r, rfl, he⟩
      · exact IsText.nil
      · exact of_starts (Bytes.startsCharacter_of_lt (lt_of_endsLine he))
  | number =>
    obtain ⟨⟨state, hw, -⟩, -⟩ := (length_append_iff_of_number hb).1 hl
    exact ht.of_forall_lt (lt_of_mem_numberRun hw)
  | operator =>
    have hstart := (ht.tail_of_lt
      (lt_of_isOperator (isOperator_of_ofByte_eq_operator hb))).startsCharacter
    exact of_starts (startsCharacter_of_operatorLength
      ((length_append_iff_of_operator hb).1 hl) hstart)
  | plain =>
    obtain ⟨-, hs⟩ := (length_append_iff_of_plain hb).1 hl
    cases rest with
    | nil => exact IsText.nil
    | cons c r => exact of_starts (Bytes.startsCharacter_of_lt (lt_of_isBoundary (hs c rfl)))

end RobotScript.Word
