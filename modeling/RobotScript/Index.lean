import Std.Data.TreeMap

/-!
# Words listed in order and found by a map

A table of words keeps two things in step: a map, which tells the number of a word, and a list,
which has the words in the order in which they came. Each word is in it once. Keyword tables are
such tables (`by_spelling` and `ordered`), and so are tables of constants (`values` and `order`).

The maps of the program hash words; those here are sorted by word. No function of the program shows
the order within a map.

Results:

* `Indexes.contains_iff`: the map has the words that are listed.
* `Indexes.insert`: a new word is added to both.
-/

namespace RobotScript

/-- A map tells of each word the number that it is listed with, and of no other words. -/
structure Indexes (map : Std.TreeMap String Int) (listed : List (String × Int)) : Prop where
  nodup : (listed.map Prod.fst).Nodup
  getElem?_eq (word : String) : map[word]? = (listed.find? fun b => b.1 == word).map Prod.snd
  size_eq : map.size = listed.length

namespace Indexes

theorem empty : Indexes ∅ [] where
  nodup := .nil
  getElem?_eq _ := Std.TreeMap.getElem?_emptyc
  size_eq := Std.TreeMap.size_emptyc

variable {map : Std.TreeMap String Int} {listed : List (String × Int)}

theorem contains_eq (h : Indexes map listed) (word : String) :
    map.contains word = (listed.find? fun b => b.1 == word).isSome := by
  rw [Std.TreeMap.contains_eq_isSome_getElem?, h.getElem?_eq, Option.isSome_map]

/-- The map has the words that are listed. -/
theorem contains_iff (h : Indexes map listed) {word : String} :
    map.contains word = true ↔ word ∈ listed.map Prod.fst := by
  rw [h.contains_eq, List.find?_isSome]
  simp

/-- A new word comes last. -/
theorem insert (h : Indexes map listed) {word : String} (hnew : ¬map.contains word = true)
    (number : Int) : Indexes (map.insert word number) (listed ++ [(word, number)]) where
  nodup := by
    rw [List.map_append, List.nodup_append]
    refine ⟨h.nodup, by simp, fun a ha b hb => ?_⟩
    obtain rfl : b = word := List.mem_singleton.1 hb
    rintro rfl
    exact hnew (h.contains_iff.2 ha)
  getElem?_eq other := by
    rw [Std.TreeMap.getElem?_insert, h.getElem?_eq, List.find?_append]
    by_cases heq : word = other
    · subst heq
      have hnone : listed.find? (fun b => b.1 == word) = none := by
        rw [← Option.isNone_iff_eq_none, ← Option.not_isSome, ← h.contains_eq,
          eq_false_of_ne_true hnew]
        rfl
      simp [hnone]
    · simp [heq]
  size_eq := by
    rw [Std.TreeMap.size_insert, if_neg hnew, h.size_eq, List.length_append]
    rfl

end Indexes

end RobotScript
