import RobotScript.Proofs.Delivery
import RobotScript.Proofs.Positions

/-!
# Long messages

The message of an event that is handed to a service has at most as many bytes as the limit. A longer
one is cut, and the cut is where a character ends: it is looked for from the limit back. Since a
character has four bytes at most, the search ends three steps before the limit at the latest. All
else that an event has stays as it is, but for the source in its context.

Results:

* `Text.boundaryUpTo?_eq_some_iff`: what the search for a cut finds.
* `Text.exists_fitting`: characters that fit into some room, and the first one that does not.
* `Text.longestPart_truncate`: what is kept of a text that is cut.
* `Log.Ambient.dispatch_shortens`: what a service receives of an event.
-/

namespace RobotScript

open Bytes (ofChars)

namespace Text

/-! ## The search for a cut -/

theorem boundaryUpTo?_eq_some_iff {s : String} {limit found : Nat} :
    boundaryUpTo? s limit = some found ↔
      found ≤ limit ∧ isBoundary s found = true ∧
        ∀ cut ≤ limit, isBoundary s cut = true → cut ≤ found := by
  induction limit with
  | zero =>
    unfold boundaryUpTo?
    constructor
    · intro h
      split at h
      · next hzero =>
        obtain rfl := Option.some.inj h
        exact ⟨Nat.le_refl 0, hzero, fun cut hcut _ => hcut⟩
      · cases h
    · rintro ⟨hle, hfound, -⟩
      obtain rfl := Nat.le_zero.1 hle
      rw [if_pos hfound]
  | succ limit ih =>
    unfold boundaryUpTo?
    by_cases hlimit : isBoundary s (limit + 1) = true
    · rw [if_pos hlimit, Option.some.injEq]
      constructor
      · rintro rfl
        exact ⟨Nat.le_refl _, hlimit, fun cut hcut _ => hcut⟩
      · rintro ⟨hle, -, hlast⟩
        exact Nat.le_antisymm (hlast _ (Nat.le_refl _) hlimit) hle
    · -- the offset itself is no boundary, so the search goes on one step before it
      rw [if_neg hlimit, ih]
      have hne : ∀ cut, isBoundary s cut = true → cut ≠ limit + 1 := by
        rintro cut hcut rfl
        exact hlimit hcut
      constructor
      · rintro ⟨hle, hfound, hlast⟩
        refine ⟨by omega, hfound, fun cut hcut hboundary => hlast cut ?_ hboundary⟩
        have := hne cut hboundary
        omega
      · rintro ⟨hle, hfound, hlast⟩
        have := hne found hfound
        exact ⟨by omega, hfound, fun cut hcut hboundary => hlast cut (by omega) hboundary⟩

/-! ## Characters that fit -/

/-- Characters that do not all fit into some room are some first ones that do, and a next one that
does not. -/
theorem exists_fitting (cs : List Char) (room : Nat) :
    ∃ front back, cs = front ++ back ∧ (ofChars front).length ≤ room ∧
      ∀ c ∈ back.head?, room < (ofChars front).length + (String.utf8EncodeChar c).length := by
  induction cs generalizing room with
  | nil => exact ⟨[], [], rfl, Nat.zero_le _, by simp⟩
  | cons c cs ih =>
    by_cases hfits : (String.utf8EncodeChar c).length ≤ room
    · obtain ⟨front, back, rfl, hle, hnext⟩ := ih (room - (String.utf8EncodeChar c).length)
      refine ⟨c :: front, back, rfl, ?_, ?_⟩
      · rw [length_ofChars_cons]
        omega
      · intro d hd
        have := hnext d hd
        rw [length_ofChars_cons]
        omega
    · refine ⟨[], c :: cs, rfl, Nat.zero_le _, ?_⟩
      intro d hd
      obtain rfl : c = d := by simpa using hd
      rw [Bytes.ofChars_nil, List.length_nil]
      omega

/-! ## Parts of limited size -/

/-- A part of a text from its start is the longest one that ends where a character ends and has at
most `limit` bytes. -/
structure LongestPart (s : String) (limit : Nat) (part : String) : Prop where
  /-- The part is that of the text up to its size, and ends where a character ends. -/
  slice : slice? s 0 part.utf8ByteSize = some part
  size_le : part.utf8ByteSize ≤ limit
  longest : ∀ cut ≤ limit, isBoundary s cut = true → cut ≤ part.utf8ByteSize
  /-- The search for a cut finds its end, so it does not go below 0. -/
  found : boundaryUpTo? s limit = some part.utf8ByteSize

variable {s : String} {limit : Nat}

theorem LongestPart.of_append {front back : List Char} (h : s.toList = front ++ back)
    (hle : (ofChars front).length ≤ limit)
    (hnext : ∀ c ∈ back.head?,
      limit < (ofChars front).length + (String.utf8EncodeChar c).length) :
    LongestPart s limit (String.ofList front) := by
  have hsize : (String.ofList front).utf8ByteSize = (ofChars front).length := by
    rw [← length_ofText, Bytes.ofText_ofList]
  have hslice : slice? s 0 (ofChars front).length = some (String.ofList front) := by
    have hcut := @slice?_of_toList s [] front back h
    simpa using hcut
  have hboundary : isBoundary s (ofChars front).length = true := by
    have hbytes : Bytes.ofText s = ofChars front ++ ofChars back := by
      rw [Bytes.ofText_eq_ofChars, h, Bytes.ofChars_append]
    exact isBoundary_of_append hbytes (Bytes.isText_ofChars back)
  have hlongest : ∀ cut ≤ limit, isBoundary s cut = true → cut ≤ (ofChars front).length := by
    intro cut hcut hbound
    obtain ⟨before, after, hlist, rfl⟩ := exists_append_of_isBoundary hbound
    by_contra hlt
    rw [h] at hlist
    rcases List.append_eq_append_iff.1 hlist with ⟨mid, rfl, hback⟩ | ⟨mid, hfront, -⟩
    · -- a longer part has the character after the cut, which does not fit
      rw [length_ofChars_append] at hcut hlt
      cases mid with
      | nil => simp at hlt
      | cons c mid =>
        rw [length_ofChars_cons] at hcut
        have := hnext c (by simp [hback])
        omega
    · rw [hfront, length_ofChars_append] at hlt
      omega
  rw [← hsize] at hslice hle hboundary hlongest
  exact ⟨hslice, hle, hlongest, boundaryUpTo?_eq_some_iff.2 ⟨hle, hboundary, hlongest⟩⟩

/-- There is just one such part. -/
theorem LongestPart.unique {part part' : String} (h : LongestPart s limit part)
    (h' : LongestPart s limit part') : part = part' := by
  have hsize : part.utf8ByteSize = part'.utf8ByteSize :=
    Option.some.inj (h.found.symm.trans h'.found)
  have hslice := h.slice
  rw [hsize, h'.slice] at hslice
  exact (Option.some.inj hslice).symm

/-- The cut goes through at the boundary that the search finds. -/
theorem LongestPart.truncate_eq {part : String} (h : LongestPart s limit part)
    (hlt : limit < s.utf8ByteSize) : truncate s limit = part := by
  rw [truncate, if_neg (Nat.not_le.2 hlt), h.found, Option.bind_some, h.slice, Option.getD_some]

theorem truncate_of_le (h : s.utf8ByteSize ≤ limit) : truncate s limit = s := if_pos h

theorem longestPart_truncate (s : String) (limit : Nat) :
    LongestPart s limit (truncate s limit) := by
  by_cases hle : s.utf8ByteSize ≤ limit
  · have hpart : LongestPart s limit (String.ofList s.toList) := by
      refine .of_append (List.append_nil _).symm ?_ (by simp)
      rwa [length_ofChars_toList]
    rw [String.ofList_toList] at hpart
    rwa [truncate_of_le hle]
  · obtain ⟨front, back, hlist, hfits, hnext⟩ := exists_fitting s.toList limit
    have hpart := LongestPart.of_append hlist hfits hnext
    rwa [hpart.truncate_eq (Nat.not_le.1 hle)]

/-- A text that is cut loses at most three of the bytes that there is room for. -/
theorem le_size_truncate (h : limit < s.utf8ByteSize) :
    limit ≤ (truncate s limit).utf8ByteSize + 3 := by
  obtain ⟨front, back, hlist, hfits, hnext⟩ := exists_fitting s.toList limit
  have hsize := length_ofChars_toList s
  rw [(LongestPart.of_append hlist hfits hnext).truncate_eq h, ← length_ofText,
    Bytes.ofText_ofList]
  cases back with
  | nil =>
    rw [hlist, List.append_nil] at hsize
    omega
  | cons c back =>
    have hfour : c.utf8Size ≤ 4 := Char.utf8Size_le_four c
    have := hnext c rfl
    rw [String.length_utf8EncodeChar] at this
    omega

end Text

/-! ## Events that are handed on -/

namespace Log

/-- The entry for one key is replaced, and the others stay. -/
theorem Context.filter_insert (key value : String) (context : Context) :
    (context.insert key value).filter (fun entry => entry.1 != key) =
      context.filter fun entry => entry.1 != key := by
  induction context with
  | nil => simp [Context.insert]
  | cons entry context ih =>
    unfold Context.insert
    split
    · simp
    split
    · next heq =>
      rw [List.filter_cons_of_neg (by simp), List.filter_cons_of_neg (by simp [heq])]
    · next hne =>
      have hkeeps : entry.1 ≠ key := fun h => hne h.symm
      rw [List.filter_cons_of_pos (by simpa using hkeeps),
        List.filter_cons_of_pos (by simpa using hkeeps), ih]

/-- What is left of an event when it is handed on. -/
structure Event.Shortens (e e' : Event) : Prop where
  message : Text.LongestPart e.message 4096 e'.message
  /-- A message that fits is unchanged. -/
  fits : e.message.utf8ByteSize ≤ 4096 → e'.message = e.message
  /-- A longer one has all but three of the bytes that there is room for. -/
  long : 4096 < e.message.utf8ByteSize → 4093 ≤ e'.message.utf8ByteSize
  level : e'.level = e.level
  code : e'.code = e.code
  span : e'.span = e.span
  /-- The entries of the context are the same, apart from that for the source. -/
  context : e'.context.filter (fun entry => entry.1 != Event.sourceKey) =
    e.context.filter fun entry => entry.1 != Event.sourceKey

namespace Ambient

theorem shortens_prepare (a : Ambient) (e : Event) : e.Shortens (a.prepare e) := by
  have hlimit : Limits.built.maxMessage = 4096 := rfl
  have hmessage : (a.prepare e).message = Text.truncate e.message 4096 := by
    rw [message_prepare, hlimit]
  constructor
  case message =>
    rw [hmessage]
    exact Text.longestPart_truncate e.message 4096
  case fits =>
    intro hfits
    rw [hmessage, Text.truncate_of_le hfits]
  case long =>
    intro hlong
    rw [hmessage]
    have := Text.le_size_truncate hlong
    omega
  case level => exact level_prepare e
  case code => exact code_prepare a e
  case span => exact span_prepare a e
  case context =>
    rw [context_prepare]
    cases a.tag with
    | none => rfl
    | some name => exact Context.filter_insert Event.sourceKey name e.context

/-- An event goes to the service that receives events with as much of its message as the limit has
room for, and with all else that it had, but for its source. -/
theorem dispatch_shortens (a : Ambient) (e : Event) (s : Service) (hs : a.current = some s) :
    e.Shortens (a.prepare e) ∧
      (a.dispatch e).current = some (s.log (a.prepare e)).1 ∧
      (a.dispatch e).output = a.output ++ (s.log (a.prepare e)).2 := by
  refine ⟨shortens_prepare a e, ?_, ?_⟩
  · rw [dispatch_eq_hand, Service.log_eq, current_hand, hs, Option.map_some]
  · rw [dispatch_eq_hand, Service.log_eq, output_hand, hs, Option.map_some, Option.getD_some]

/-- A message of one and 2048 times two bytes. The limit is inside the last character, so that one
byte of the room stays free. -/
theorem dispatch_shortens_inside_character :
    let e := Event.info (String.ofList ('x' :: List.replicate 2048 'é'))
    let s := Service.ofMemory .info (.empty 1)
    let a : Ambient :=
      { start [] with services := #[s], scope := some 0, source := some "miner.txt" }
    a.current = some s ∧ e.Shortens (a.prepare e) ∧
      (a.prepare e).message = String.ofList ('x' :: List.replicate 2047 'é') := by
  intro e s a
  have hs : a.current = some s := rfl
  have hshortens := (dispatch_shortens a e s hs).1
  refine ⟨hs, hshortens, hshortens.message.unique ?_⟩
  have htwo (n : Nat) : (ofChars (List.replicate n 'é')).length = n * 2 := by
    have hchar : (String.utf8EncodeChar 'é').length = 2 := rfl
    induction n with
    | zero => rfl
    | succ n ih =>
      rw [List.replicate_succ, Text.length_ofChars_cons, hchar, ih]
      omega
  have hsize : (ofChars ('x' :: List.replicate 2047 'é')).length = 4095 := by
    rw [Text.length_ofChars_cons, htwo]
    rfl
  have hlist : e.message.toList = ('x' :: List.replicate 2047 'é') ++ ['é'] := by
    show (String.ofList ('x' :: List.replicate 2048 'é')).toList = _
    rw [String.toList_ofList, List.cons_append, ← List.replicate_succ']
  refine .of_append hlist ?_ ?_
  · rw [hsize]
    decide
  · intro c hc
    obtain rfl : 'é' = c := by simpa using hc
    rw [hsize]
    decide

end Ambient

end Log

end RobotScript
