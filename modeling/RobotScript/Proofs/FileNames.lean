import RobotScript.Files.Tree
import RobotScript.Proofs.ListEnds

/-!
# The name of a file and the path to it

A path is followed name by name, and the last step of a path that leads to a file is the name of
that file: no step to the directory itself or to the one around it ends at a file. So without links
on the way, the absolute path of a file ends in the same name as the path that leads to it, and has
the same extension.

Results:

* `Path.exists_steps_eq`: the last step of a path.
* `Path.fileName_ofNames`: the name at the end of an absolute path.
* `FileTree.IsPlain.walk_file`: the steps that end at a file end in its name.
* `FileTree.IsPlain.extension?_of_file`: a file has the extension of the path that leads to it.
-/

namespace RobotScript

/-! ## The last name in a path -/

namespace Path

theorem fileName_eq (path : String) :
    fileName path = String.ofList (path.toList.rtakeWhile (· ≠ '/')) := rfl

theorem splitSlash_ne_nil (cs : List Char) : splitSlash cs ≠ [] := by
  cases cs with
  | nil => simp [splitSlash]
  | cons c cs =>
    rw [splitSlash]
    split
    · simp
    · split <;> simp

theorem splitSlash_of_notMem {cs : List Char} (h : '/' ∉ cs) : splitSlash cs = [cs] := by
  induction cs with
  | nil => rfl
  | cons c cs ih =>
    rw [List.mem_cons, not_or] at h
    rw [splitSlash, if_neg (Ne.symm h.1), ih h.2]

theorem splitSlash_append (cs ds : List Char) :
    splitSlash (cs ++ '/' :: ds) = splitSlash cs ++ splitSlash ds := by
  induction cs with
  | nil => rfl
  | cons c cs ih =>
    rw [List.cons_append, splitSlash, splitSlash, ih]
    split
    · rfl
    · cases hparts : splitSlash cs with
      | nil => exact absurd hparts (splitSlash_ne_nil cs)
      | cons part parts => rfl

/-- The last part of a path is what stands after its last slash. -/
theorem exists_splitSlash_eq (cs : List Char) :
    ∃ before, splitSlash cs = before ++ [cs.rtakeWhile (· ≠ '/')] := by
  have hname : '/' ∉ cs.rtakeWhile (· ≠ '/') := fun h => by
    simpa using List.mem_rtakeWhile_imp h
  rcases Text.rtakeWhile_eq_self_or_exists (· ≠ '/') cs with hwhole | ⟨front, c, hc, hcs⟩
  · rw [hwhole] at hname ⊢
    exact ⟨[], splitSlash_of_notMem hname⟩
  · obtain rfl : c = '/' := by simpa using hc
    refine ⟨splitSlash front, ?_⟩
    conv => lhs; rw [hcs]
    rw [splitSlash_append, splitSlash_of_notMem hname]

/-- A path ends in a slash just if no name stands after the last one. -/
theorem isDirectory_iff {path : String} (h : path ≠ "") :
    isDirectory path = true ↔ path.toList.rtakeWhile (· ≠ '/') = [] := by
  have hne : path.toList ≠ [] := by simpa using h
  rw [List.rtakeWhile_eq_nil_iff, isDirectory, decide_eq_true_eq,
    List.getLast?_eq_some_getLast hne, Option.some.injEq]
  simp [hne]

/-- The last step of a path is the name at its end, which is empty after a slash. -/
theorem exists_steps_eq {path : String} (h : path ≠ "") :
    ∃ before, steps path = before ++ [fileName path] := by
  obtain ⟨before, hbefore⟩ := exists_splitSlash_eq path.toList
  rw [steps, hbefore, fileName_eq, List.filter_append, List.map_append, List.append_assoc]
  by_cases hname : path.toList.rtakeWhile (· ≠ '/') = []
  · refine ⟨_, congrArg _ ?_⟩
    rw [if_pos ((isDirectory_iff h).2 hname), hname]
    rfl
  · refine ⟨_, congrArg _ ?_⟩
    have hkept : List.isEmpty (path.toList.rtakeWhile (· ≠ '/')) = false := by simpa using hname
    rw [if_neg (mt (isDirectory_iff h).1 hname), List.append_nil, List.filter_singleton, hkept]
    rfl

theorem slash_notMem_fileName (path : String) : '/' ∉ (fileName path).toList := by
  rw [fileName_eq, String.toList_ofList]
  exact fun h => by simpa using List.mem_rtakeWhile_imp h

/-- The name at the end of an absolute path is the last one. -/
theorem fileName_ofNames {name : String} (h : '/' ∉ name.toList) (names : List String) :
    fileName (ofNames (names ++ [name])) = name := by
  have hpath : ∃ front, (ofNames (names ++ [name])).toList = front ++ '/' :: name.toList := by
    by_cases hnames : names = []
    · exact ⟨[], by simp [hnames, ofNames]⟩
    · refine ⟨("/" ++ "/".intercalate names).toList, ?_⟩
      rw [ofNames, String.intercalate_append_of_ne_nil hnames (List.cons_ne_nil _ _)]
      simp
  obtain ⟨front, hfront⟩ := hpath
  have hname : ∀ c ∈ name.toList, decide (c ≠ '/') = true := by
    intro c hc
    rw [decide_eq_true_eq]
    rintro rfl
    exact h hc
  rw [fileName_eq, hfront, Text.rtakeWhile_append_cons (by simp) hname, String.ofList_toList]

/-- The extension of a path is that of the name at its end. -/
theorem extension?_congr {path path' : String} (h : fileName path = fileName path') :
    extension? path = extension? path' := by
  rw [extension?, extension?, h]

end Path

/-! ## Trees without links -/

namespace FileTree

variable {t : FileTree} {atFile : Bool} {links : Nat} {place : List String}

/-- A place is a directory, and so are all places around it. -/
def HasDirectories (t : FileTree) (place : List String) : Prop :=
  ∀ n ≤ place.length, t.get? (place.take n) = some .directory

namespace HasDirectories

theorem root : t.HasDirectories [] := by
  intro n _
  rw [List.take_nil, get?, if_pos rfl]

theorem get?_eq (h : t.HasDirectories place) : t.get? place = some .directory := by
  have hself := h place.length (Nat.le_refl _)
  rwa [List.take_length] at hself

theorem dropLast (h : t.HasDirectories place) : t.HasDirectories place.dropLast := by
  intro n hn
  rw [List.length_dropLast] at hn
  rw [List.dropLast_eq_take, List.take_take, Nat.min_eq_left hn]
  exact h n (by omega)

theorem concat (h : t.HasDirectories place) {name : String}
    (hname : t.get? (place ++ [name]) = some .directory) : t.HasDirectories (place ++ [name]) := by
  intro n hn
  rw [List.length_append, List.length_singleton] at hn
  rcases Nat.lt_or_eq_of_le hn with hlt | rfl
  · rw [List.take_append_of_le_length (by omega)]
    exact h n (by omega)
  · rwa [List.take_of_length_le (by simp)]

end HasDirectories

/-- A tree is a snapshot of files and directories: it has no links, and relative paths start in a
directory. -/
structure IsPlain (t : FileTree) : Prop where
  noLink : ∀ entry ∈ t.entries, ∀ target, entry.2 ≠ .link target
  workingPlace : t.HasDirectories t.workingPlace

/-- Steps are taken from directories only. -/
theorem get?_of_walk_cons {step : String} {rest : List String}
    {found : List String × Option Entry}
    (h : t.walk atFile links place (step :: rest) = .ok found) :
    t.get? place = some .directory := by
  rw [walk] at h
  split at h
  · assumption
  · cases h
  · cases h

namespace IsPlain

theorem get?_ne_link (h : t.IsPlain) (place : List String) (target : String) :
    t.get? place ≠ some (.link target) := by
  unfold get?
  split
  · simp
  · intro hlink
    obtain ⟨entry, hentry, htarget⟩ := Option.map_eq_some_iff.1 hlink
    exact h.noLink entry (List.mem_of_find?_eq_some hentry) target htarget

/-- Steps that end at a file end in its name. A step to the directory itself or to the one around it
ends at a directory, since the steps lead through directories. -/
theorem walk_file (h : t.IsPlain) {steps there : List String} {bytes : ByteArray}
    (hplace : t.HasDirectories place)
    (hwalk : t.walk atFile links place steps = .ok (there, some (.file bytes))) :
    ∃ before name front, steps = before ++ [name] ∧ there = front ++ [name] := by
  induction steps generalizing place with
  | nil =>
    rw [walk, hplace.get?_eq] at hwalk
    cases hwalk
  | cons step rest ih =>
    have hlonger {place' : List String} (hplace' : t.HasDirectories place')
        (hrest : t.walk atFile links place' rest = .ok (there, some (.file bytes))) :
        ∃ before name front, step :: rest = before ++ [name] ∧ there = front ++ [name] := by
      obtain ⟨before, name, front, rfl, hthere⟩ := ih hplace' hrest
      exact ⟨step :: before, name, front, rfl, hthere⟩
    rw [walk, hplace.get?_eq] at hwalk
    dsimp only at hwalk
    split at hwalk
    · exact hlonger hplace hwalk
    split at hwalk
    · exact hlonger hplace.dropLast hwalk
    split at hwalk
    · cases hwalk
    split at hwalk
    · cases hwalk
    split at hwalk
    · next target hlink => exact absurd hlink (h.get?_ne_link _ _)
    -- the step is a name, and there is a file with it or a directory to go on from
    cases rest with
    | nil =>
      rw [walk] at hwalk
      exact ⟨[], step, place, rfl, (Prod.mk.inj (Except.ok.inj hwalk)).1.symm⟩
    | cons _ _ => exact hlonger (hplace.concat (get?_of_walk_cons hwalk)) hwalk

/-- A path that leads to a file ends in its name. -/
theorem fileName_of_file (h : t.IsPlain) {path place : String} {bytes : ByteArray}
    (hfile : t.fileSystem path = .file place bytes) : Path.fileName place = Path.fileName path := by
  have hstart : t.HasDirectories (t.startOf path) := by
    unfold startOf
    split
    · exact .root
    · exact h.workingPlace
  unfold fileSystem at hfile
  split at hfile
  · cases hfile
  · cases hfile
  · next there found hlocate =>
    obtain ⟨rfl, rfl⟩ := Found.file.inj hfile
    unfold locate at hlocate
    split at hlocate
    · cases hlocate
    next hpath =>
    split at hlocate
    · cases hlocate
    split at hlocate
    · cases hlocate
    obtain ⟨before, name, front, hsteps, rfl⟩ := h.walk_file hstart hlocate
    obtain ⟨before', hsteps'⟩ := Path.exists_steps_eq hpath
    obtain rfl : name = Path.fileName path := by
      rw [hsteps'] at hsteps
      exact (List.singleton_inj.1 (List.append_inj_right' hsteps rfl)).symm
    exact Path.fileName_ofNames (Path.slash_notMem_fileName path) front
  · cases hfile

/-- A file has the extension of the path that leads to it. -/
theorem extension?_of_file (h : t.IsPlain) {path place : String} {bytes : ByteArray}
    (hfile : t.fileSystem path = .file place bytes) :
    Path.extension? place = Path.extension? path :=
  Path.extension?_congr (h.fileName_of_file hfile)

end IsPlain

end FileTree

end RobotScript
