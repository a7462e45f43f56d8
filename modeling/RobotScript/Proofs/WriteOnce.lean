import Mathlib.Data.List.Induction
import Mathlib.Data.List.Nodup
import RobotScript.Index

/-!
# Names that are bound once

Keywords and constants are lists of names with numbers, which maps find. Such a list takes a name
when the name is new and there is room, and from then on the name keeps its number. So whatever is
offered to an empty list, it ends up with the first offer for each name, as far as there is room.

Results:

* `Bindings.firsts_cons`, `Bindings.firsts_concat`: the first binding of each name, from both ends.
* `Bindings.map_fst_firsts`, `Bindings.nodup_map_fst_firsts`: each name is bound once.
* `Bindings.find?_firsts`: the first binding of a name is found among them.
* `Bindings.foldl_bind`: what an empty list holds after offers.
* `find?_eq_some_iff_of_nodup`, `find?_eq_none_iff_notMem_map`: finding an element by its key.
* `Indexes.getElem?_eq_some_iff`, `Indexes.filterMap_getElem?`: a map of such a list.
-/

namespace RobotScript

/-- An element is found by its key if no other element has that key. -/
theorem find?_eq_some_iff_of_nodup {α κ : Type} [BEq κ] [LawfulBEq κ] {f : α → κ} {l : List α}
    (h : (l.map f).Nodup) {k : κ} {a : α} :
    l.find? (fun x => f x == k) = some a ↔ a ∈ l ∧ f a = k := by
  constructor
  · intro hfind
    exact ⟨List.mem_of_find?_eq_some hfind, by simpa using List.find?_some hfind⟩
  · rintro ⟨ha, rfl⟩
    cases hfind : l.find? (fun x => f x == f a) with
    | none => simpa using List.find?_eq_none.1 hfind a ha
    | some b =>
      have hkey : f b = f a := by simpa using List.find?_some hfind
      rw [List.inj_on_of_nodup_map h (List.mem_of_find?_eq_some hfind) ha hkey]

/-- What is kept with a key is found by it if no other element has that key. -/
theorem map_find?_eq_some_iff_of_nodup {α β κ : Type} [BEq κ] [LawfulBEq κ] {f : α → κ}
    {l : List α} (h : (l.map f).Nodup) {g : α → β} {k : κ} {v : β} :
    (l.find? fun x => f x == k).map g = some v ↔ ∃ a ∈ l, f a = k ∧ g a = v := by
  rw [Option.map_eq_some_iff]
  simp only [find?_eq_some_iff_of_nodup h, and_assoc]

/-- No element is found if none has the key. -/
theorem find?_eq_none_iff_notMem_map {α κ : Type} [BEq κ] [LawfulBEq κ] {f : α → κ} {l : List α}
    {k : κ} : l.find? (fun x => f x == k) = none ↔ k ∉ l.map f := by
  rw [List.find?_eq_none, List.mem_map, not_exists]
  simp only [beq_iff_eq, not_and]

/-- Names with numbers, in the order in which they were bound. -/
abbrev Bindings := List (String × Int)

namespace Bindings

/-! ## The first binding of each name -/

/-- The bindings whose names do not occur before them. -/
def firsts (bs : Bindings) : Bindings := bs.eraseDupsBy fun a b => a.1 == b.1

@[simp]
theorem firsts_nil : firsts [] = [] := rfl

theorem firsts_cons_filter (b : String × Int) (bs : Bindings) :
    firsts (b :: bs) = b :: firsts (bs.filter fun x => x.1 != b.1) := by
  rw [firsts, List.eraseDupsBy_cons, firsts]
  congr 2
  exact List.filter_congr fun x _ => by cases h : x.1 == b.1 <;> simp [bne, h]

/-- Names may be dropped before or after the first bindings are picked. -/
theorem firsts_filter (p : String → Bool) (bs : Bindings) :
    firsts (bs.filter fun b => p b.1) = (firsts bs).filter fun b => p b.1 := by
  induction hn : bs.length using Nat.strongRecOn generalizing bs with
  | ind n ih =>
    cases bs with
    | nil => rfl
    | cons b bs =>
      rw [List.length_cons] at hn
      have shorter (q : String × Int → Bool) : (bs.filter q).length < n := by
        have := List.length_filter_le q bs
        omega
      rw [firsts_cons_filter, List.filter_cons, List.filter_cons,
        ← ih _ (shorter _) (bs.filter fun x => x.1 != b.1) rfl]
      by_cases hb : p b.1 = true
      · rw [if_pos hb, if_pos hb, firsts_cons_filter, List.filter_comm]
      · -- the bindings that are dropped with `b` are dropped by `p`, too
        rw [if_neg hb, if_neg hb, List.filter_filter]
        congr 1
        refine List.filter_congr fun x _ => ?_
        by_cases hx : x.1 = b.1
        · simp [hx, hb]
        · simp [hx]

/-- From the front: the first binding hides the later ones of its name. -/
theorem firsts_cons (b : String × Int) (bs : Bindings) :
    firsts (b :: bs) = b :: (firsts bs).filter fun x => x.1 != b.1 := by
  rw [firsts_cons_filter, firsts_filter (fun name => name != b.1)]

theorem firsts_sublist (bs : Bindings) : (firsts bs).Sublist bs := by
  induction bs with
  | nil => exact .slnil
  | cons b bs ih =>
    rw [firsts_cons]
    exact (List.filter_sublist.trans ih).cons_cons b

theorem map_fst_filter (p : String → Bool) (bs : Bindings) :
    (bs.filter fun b => p b.1).map Prod.fst = (bs.map Prod.fst).filter p := by
  rw [List.filter_map]
  rfl

/-- The names of the first bindings are all names, each of them once. -/
theorem map_fst_firsts (bs : Bindings) : (firsts bs).map Prod.fst = (bs.map Prod.fst).eraseDups := by
  induction hn : bs.length using Nat.strongRecOn generalizing bs with
  | ind n ih =>
    cases bs with
    | nil => rfl
    | cons b bs =>
      rw [List.length_cons] at hn
      have hlt : (bs.filter fun x => x.1 != b.1).length < n := by
        have := List.length_filter_le (fun x => x.1 != b.1) bs
        omega
      rw [firsts_cons_filter, List.map_cons, ih _ hlt _ rfl, List.map_cons, List.eraseDups_cons,
        map_fst_filter (fun name => name != b.1)]
      rfl

theorem mem_map_fst_firsts {bs : Bindings} {name : String} :
    name ∈ (firsts bs).map Prod.fst ↔ name ∈ bs.map Prod.fst := by
  rw [map_fst_firsts, List.mem_eraseDups]

/-- Each name is among the first bindings once. -/
theorem nodup_map_fst_firsts (bs : Bindings) : ((firsts bs).map Prod.fst).Nodup := by
  induction bs with
  | nil => exact List.nodup_nil
  | cons b bs ih =>
    rw [firsts_cons, List.map_cons, map_fst_filter (fun name => name != b.1), List.nodup_cons]
    exact ⟨by simp, ih.filter _⟩

/-- From the back: a binding is added if its name is new. -/
theorem firsts_concat (bs : Bindings) (b : String × Int) :
    firsts (bs ++ [b]) = if b.1 ∈ bs.map Prod.fst then firsts bs else firsts bs ++ [b] := by
  induction bs with
  | nil => rfl
  | cons a bs ih =>
    rw [List.cons_append, firsts_cons, ih, firsts_cons]
    by_cases hmem : b.1 ∈ bs.map Prod.fst
    · rw [if_pos hmem, if_pos (by rw [List.map_cons]; exact List.mem_cons_of_mem _ hmem)]
    · rw [if_neg hmem, List.filter_append]
      by_cases ha : b.1 = a.1
      · simp [ha]
      · rw [if_neg (by rw [List.map_cons, List.mem_cons]; exact not_or_intro ha hmem)]
        simp [ha]

/-- What comes later takes no first binding away. -/
theorem firsts_prefix_append (bs later : Bindings) : firsts bs <+: firsts (bs ++ later) := by
  induction later using List.reverseRecOn with
  | nil => simp
  | append_singleton later b ih =>
    rw [← List.append_assoc, firsts_concat]
    split
    · exact ih
    · exact ih.trans (List.prefix_append _ _)

theorem firsts_eq_self_of_nodup {bs : Bindings} (h : (bs.map Prod.fst).Nodup) : firsts bs = bs := by
  induction bs using List.reverseRecOn with
  | nil => rfl
  | append_singleton bs b ih =>
    rw [List.map_append, List.nodup_append] at h
    have hnew : b.1 ∉ bs.map Prod.fst := fun hmem => h.2.2 b.1 hmem b.1 List.mem_cons_self rfl
    rw [firsts_concat, if_neg hnew, ih h.1]

/-- The first binding of a name is the one that is found among all. -/
theorem find?_firsts (bs : Bindings) (name : String) :
    (firsts bs).find? (fun b => b.1 == name) = bs.find? fun b => b.1 == name := by
  induction bs with
  | nil => rfl
  | cons b bs ih =>
    rw [firsts_cons, List.find?_cons, List.find?_cons]
    by_cases hb : b.1 = name
    · simp [hb]
    · rw [beq_eq_false_iff_ne.2 hb, List.find?_filter, ← ih]
      refine congrArg (List.find? · _) (funext fun x => ?_)
      by_cases hx : x.1 = name
      · simp [hx, Ne.symm hb]
      · simp [hx]

/-! ## Room for some names -/

/-- The list after an offer: it is taken if there is room and its name is new. -/
def bind (limit : Nat) (bs : Bindings) (b : String × Int) : Bindings :=
  if bs.length < limit ∧ b.1 ∉ bs.map Prod.fst then bs ++ [b] else bs

/-- A list that was empty holds the first binding of each name, as far as there is room. -/
theorem foldl_bind (limit : Nat) (offers : Bindings) :
    offers.foldl (bind limit) [] = (firsts offers).take limit := by
  induction offers using List.reverseRecOn with
  | nil => simp
  | append_singleton offers b ih =>
    rw [List.foldl_append, ih, List.foldl_cons, List.foldl_nil, firsts_concat, bind]
    by_cases hroom : (firsts offers).length < limit
    · rw [List.take_of_length_le (Nat.le_of_lt hroom)]
      simp only [hroom, mem_map_fst_firsts, true_and]
      by_cases hmem : b.1 ∈ offers.map Prod.fst
      · rw [if_neg (not_not_intro hmem), if_pos hmem, List.take_of_length_le (Nat.le_of_lt hroom)]
      · rw [if_pos hmem, if_neg hmem, List.take_of_length_le]
        rwa [List.length_append, List.length_singleton]
    · have hfull : ¬((firsts offers).take limit).length < limit := by
        rw [List.length_take]
        omega
      rw [if_neg fun h => hfull h.1]
      split
      · rfl
      · rw [List.take_append_of_le_length (by omega)]

end Bindings

/-! ## Maps -/

namespace Indexes

variable {map : Std.TreeMap String Int} {listed : Bindings}

/-- A map tells the numbers of the listed words. -/
theorem getElem?_eq_some_iff (h : Indexes map listed) {word : String} {number : Int} :
    map[word]? = some number ↔ (word, number) ∈ listed := by
  rw [h.getElem?_eq, map_find?_eq_some_iff_of_nodup h.nodup]
  simp

/-- The list is the listed words with the numbers that the map tells. -/
theorem filterMap_getElem? (h : Indexes map listed) :
    ((listed.map Prod.fst).filterMap fun word => map[word]?.map fun number => (word, number)) =
      listed := by
  have htold (b : String × Int) (hb : b ∈ listed) :
      (map[b.1]?.map fun number => (b.1, number)) = some b := by
    rw [h.getElem?_eq_some_iff.2 hb, Option.map_some]
  rw [List.filterMap_map]
  exact (List.filterMap_congr htold).trans List.filterMap_some

end Indexes

end RobotScript
