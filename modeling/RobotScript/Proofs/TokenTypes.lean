import RobotScript.Cursor
import RobotScript.Proofs.StreamShape

/-!
# The types that parsers match on

A parser asks a cursor for one number. It is 0 at both ends of a stream and past them, the number of
the kind at a literal, a variable or a constant, and the id at a keyword. Ids share the numbers with
kinds, but those of loaded keywords are far above them and belong to one spelling each, and the
value of a constant, which is its id as a token, is no type. So the number tells what stands there.

Results:

* `Keyword.spelling_lookup`: the id of a loaded keyword, and its spelling.
* `Token.HasType`: the types of words; `Token.HasType.unique`: no two kinds share one.
* `Cut.place_of_get?`: what stands at an index of a stream.
* `Cursor.typeCode_unambiguous`: the types at all places of a stream.
-/

namespace RobotScript

/-! ## Types of words -/

/-- The id of a loaded keyword is in the range of all ids, and the keyword is its spelling. -/
theorem Keyword.spelling_lookup {spellings : Spellings} {word : String}
    (h : 0 < (populate spellings).entries.lookup word) :
    let id := (populate spellings).entries.lookup word
    2000 ≤ id ∧ id < 2400 ∧ spellings id = word := by
  intro id
  rcases Entries.lookup_eq_iff.1 (Eq.refl id) with hmem | ⟨hid, -⟩
  · obtain ⟨-, hlow, hhigh⟩ := (ordered_populate spellings).spelled _ hmem
    obtain ⟨-, hspelling, -⟩ := mem_offers ((sublist_populate spellings).subset hmem)
    exact ⟨hlow, hhigh, hspelling.symm⟩
  · have hneg : (populate spellings).entries.lookup word = -1 := hid
    omega

/-- The type of a word: the number of its kind, or for a keyword the id that has its spelling. -/
inductive Token.HasType (spellings : Keyword.Spellings) (t : Token) : Int → Prop
  | number : t.kind = .number → HasType spellings t 2
  | string : t.kind = .string → HasType spellings t 3
  | variable : t.kind = .variable → HasType spellings t 4
  | constant : t.kind = .constant → HasType spellings t 5
  | keyword : t.kind = .keyword → 2000 ≤ t.id → t.id < 2400 → spellings t.id = t.text →
      HasType spellings t t.id

namespace Token.HasType

variable {spellings : Keyword.Spellings} {t t' : Token} {code : Int}

/-- The kind that a type belongs to. -/
def kindOf (code : Int) : TokenKind :=
  if code = 2 then .number
  else if code = 3 then .string
  else if code = 4 then .variable
  else if code = 5 then .constant
  else .keyword

theorem kind_eq (h : t.HasType spellings code) : t.kind = kindOf code := by
  cases h with
  | keyword hk hlow _ _ =>
    rw [hk, kindOf, if_neg (by omega), if_neg (by omega), if_neg (by omega), if_neg (by omega)]
  | _ hk => exact hk

theorem text_eq (h : t.HasType spellings code) (hk : t.kind = .keyword) :
    t.text = spellings code := by
  cases h with
  | keyword _ _ _ hspelling => exact hspelling.symm
  | _ hk' =>
    rw [hk'] at hk
    cases hk

/-- A type belongs to words of one kind, and that of a keyword to one keyword. -/
theorem unique (h : t.HasType spellings code) (h' : t'.HasType spellings code) :
    t.kind = t'.kind ∧ (t.kind = .keyword → t.text = t'.text) := by
  have hkind : t.kind = t'.kind := by rw [h.kind_eq, h'.kind_eq]
  refine ⟨hkind, fun hk => ?_⟩
  rw [h.text_eq hk, h'.text_eq (hkind ▸ hk)]

/-- No word has the type of the ends of a stream, or the number of the kind of keywords. -/
theorem two_le (h : t.HasType spellings code) : 2 ≤ code := by
  cases h <;> omega

end Token.HasType

namespace Vocabulary

variable {spellings : Keyword.Spellings} {limit : Nat} {commands : List Constant.Command}

/-- The type of a word that is classified by loaded keywords. -/
theorem Classified.hasType {t : Token}
    (h : (afterCommands spellings limit commands).Classified t.text t.kind t.id) :
    t.HasType spellings t.effectiveType := by
  generalize hkind : t.kind = kind, hid : t.id = id at h
  unfold Token.effectiveType
  rw [hkind]
  cases h with
  | keyword hk =>
    obtain ⟨hlow, hhigh, hspelling⟩ := Keyword.spelling_lookup hk
    have hid : t.id = (Keyword.populate spellings).entries.lookup t.text := hid
    rw [← hid] at hlow hhigh hspelling
    exact .keyword hkind hlow hhigh hspelling
  | constant => exact .constant hkind
  | number => exact .number hkind
  | string => exact .string hkind
  | _ => exact .variable hkind

end Vocabulary

/-! ## Places of a stream -/

/-- A stream has its head, a token for each lexeme and its terminator. -/
theorem Vocabulary.size_stream (v : Vocabulary) (gap : List GapItem) (ls : List Lexeme)
    (offset : Nat) : (v.stream gap ls offset).size = ls.length + 2 := by
  rw [Stream.size, ← Array.length_toList, Vocabulary.toList_stream]
  simp [Vocabulary.length_tokens]

/-- What stands at an index of a stream: the head, the terminator, or a word between them. -/
theorem Cut.place_of_get? {v : Vocabulary} {source : String} {gap : List GapItem}
    {ls : List Lexeme} (h : Cut v.knows source gap ls)
    (hv : v.classify true "" = (.leading, -1)) {i : Nat} {t : Token}
    (ht : (v.stream gap ls source.utf8ByteSize).get? i = some t) :
    let last := (v.stream gap ls source.utf8ByteSize).size - 1
    i = 0 ∧ t.kind = .leading ∨ i = last ∧ t.kind = .terminator ∨
      0 < i ∧ i < last ∧ v.Classified t.text t.kind t.id := by
  have hsize := v.size_stream gap ls source.utf8ByteSize
  rw [Stream.get?, ← Array.getElem?_toList, Vocabulary.toList_stream] at ht
  rw [hsize]
  cases i with
  | zero =>
    rw [List.getElem?_cons_zero, Option.some.injEq, Vocabulary.token_head hv] at ht
    exact Or.inl ⟨rfl, ht ▸ rfl⟩
  | succ i =>
    rw [List.getElem?_cons_succ] at ht
    have hlength := v.length_tokens (Gap.bytes gap).length ls
    by_cases hi : i < ls.length
    · rw [List.getElem?_append_left (by omega)] at ht
      have hword := (h.classified_tokens t (List.mem_of_getElem? ht)).2
      exact Or.inr (Or.inr ⟨Nat.succ_pos i, by omega, hword⟩)
    · rw [List.getElem?_append_right (by omega), List.getElem?_singleton] at ht
      split at ht
      · obtain rfl := Option.some.inj ht
        exact Or.inr (Or.inl ⟨by omega, rfl⟩)
      · cases ht

namespace Cursor

/-- What the type at a place of a stream tells. -/
structure TellsType (spellings : Keyword.Spellings) {stream : Stream} (c : Cursor stream) :
    Prop where
  /-- The ends of the stream and what is past them have the type 0, and no word has it. -/
  zero_iff : c.typeCode = 0 ↔
    c.isAbsent = true ∨ c.index = some 0 ∨ c.index = some (stream.size - 1)
  word : c.typeCode ≠ 0 → ∃ t, c.token? = some t ∧ t.HasType spellings c.typeCode
  ne_one : c.typeCode ≠ 1

variable {stream : Stream} {spellings : Keyword.Spellings} {c : Cursor stream}

theorem TellsType.of_end (hcode : c.typeCode = 0)
    (hplace : c.isAbsent = true ∨ c.index = some 0 ∨ c.index = some (stream.size - 1)) :
    c.TellsType spellings := by
  refine ⟨iff_of_true hcode hplace, fun hne => absurd hcode hne, ?_⟩
  rw [hcode]
  decide

theorem TellsType.of_word {i : Nat} {t : Token} (hi : c.index = some i) (hpos : 0 < i)
    (hlt : i < stream.size - 1) (ht : c.token? = some t)
    (htype : t.HasType spellings c.typeCode) : c.TellsType spellings := by
  have htwo := htype.two_le
  refine ⟨iff_of_false (by omega) ?_, fun _ => ⟨t, ht, htype⟩, by omega⟩
  simp only [isAbsent, hi, Option.isNone_some, Bool.false_eq_true, Option.some.injEq, false_or]
  omega

/-- A cursor that is not absent has a token. -/
theorem exists_token {i : Nat} (hi : c.index = some i) :
    ∃ t, stream.get? i = some t ∧ c.token? = some t ∧ c.typeCode = t.effectiveType := by
  have hlt : i < stream.tokens.size := c.index_lt i hi
  have hget : stream.get? i = some stream.tokens[i] := Array.getElem?_eq_getElem hlt
  have htoken : c.token? = some stream.tokens[i] := by rw [token?, hi, Option.bind_some, hget]
  exact ⟨_, hget, htoken, by rw [typeCode, htoken]; rfl⟩

/-- Places of one type have words of one kind, and places of the type of a keyword have one
keyword. -/
theorem TellsType.kind?_eq {c' : Cursor stream} (h : c.TellsType spellings)
    (h' : c'.TellsType spellings) (hne : c.typeCode ≠ 0) (heq : c.typeCode = c'.typeCode) :
    c.kind? = c'.kind? ∧ (c.kind? = some .keyword → c.text = c'.text) := by
  obtain ⟨t, ht, htype⟩ := h.word hne
  obtain ⟨t', ht', htype'⟩ := h'.word (heq ▸ hne)
  rw [← heq] at htype'
  obtain ⟨hkind, htext⟩ := htype.unique htype'
  simp only [kind?, text, ht, ht', Option.map_some, Option.getD_some, Option.some.injEq]
  exact ⟨hkind, htext⟩

/-- The types at the places of a stream are unambiguous, whatever spellings of keywords there are
and whatever was done to the constants: each tells the kind of what stands there, and that of a
keyword the keyword. -/
theorem typeCode_unambiguous (spellings : Keyword.Spellings) (limit : Nat)
    (commands : List Constant.Command) (source : String) :
    match Stream.tokenize (.afterCommands spellings limit commands) source with
    | none => source = ""
    | some stream =>
      (∀ c : Cursor stream, c.TellsType spellings) ∧
        ∀ c c' : Cursor stream, c.typeCode ≠ 0 → c.typeCode = c'.typeCode →
          c.kind? = c'.kind? ∧ (c.kind? = some .keyword → c.text = c'.text) := by
  by_cases hne : source = ""
  · subst hne
    rfl
  obtain ⟨gap, ls, hcut⟩ :=
    Cut.exists_cut (Vocabulary.afterCommands spellings limit commands).knows source
  have hplace := @Cut.place_of_get? _ _ _ _ hcut Vocabulary.classify_head
  rw [hcut.tokenize_eq hne]
  generalize (Vocabulary.afterCommands spellings limit commands).stream gap ls
    source.utf8ByteSize = stream at hplace
  have htells : ∀ c : Cursor stream, c.TellsType spellings := by
    intro c
    cases hi : c.index with
    | none =>
      have hcode : c.typeCode = 0 := by simp [typeCode, token?, hi]
      exact .of_end hcode (Or.inl (by simp [isAbsent, hi]))
    | some i =>
      obtain ⟨t, hget, htoken, hcode⟩ := exists_token hi
      rcases hplace hget with ⟨rfl, hkind⟩ | ⟨rfl, hkind⟩ | ⟨hpos, hlt, hword⟩
      · refine .of_end ?_ (Or.inr (Or.inl hi))
        rw [hcode, Token.effectiveType, hkind]
        rfl
      · refine .of_end ?_ (Or.inr (Or.inr hi))
        rw [hcode, Token.effectiveType, hkind]
        rfl
      · exact .of_word hi hpos hlt htoken (hcode ▸ hword.hasType)
  exact ⟨htells, fun c c' hcode heq => (htells c).kind?_eq (htells c') hcode heq⟩

end Cursor

end RobotScript
