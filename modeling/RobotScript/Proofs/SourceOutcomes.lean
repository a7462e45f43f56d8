import RobotScript.Proofs.FileNames
import RobotScript.Proofs.LogLevels
import RobotScript.Proofs.PositionOrder
import RobotScript.Proofs.TextLines

/-!
# How loading a script ends

Loading a script makes its checks in a fixed order, and the first one that fails decides: whether
there is a path, whether a regular file is there, the size of the file, its extension, and whether
its bytes are those of a text. What comes of it is told once, after details: by an error with the
code of what is wrong, or by one event about the script.

Results:

* `Text.length_countedLines`, `Source.lineCount_eq_length`: the lines of a text as they are counted.
* `Source.lineCount_map`: the lines of the source map are the same, or one more.
* `Source.of_locate_eq_error`, `Source.of_refusal?_eq_some`, `Source.exists_read_eq`: how loading
  ends in each of its parts.
* `Source.exists_load_eq`: how loading ends, with the events.
* `Source.Decides.fst_load`: nothing but the first check that fails decides.
* `Source.load_decides`: both for all paths, and what a logger is handed.
-/

namespace RobotScript

open Log (Event Level Ambient)

/-! ## Counting lines -/

namespace Text

/-- The lines of a text as they are counted: what stands after the last line feed is a line only if
it is not empty. -/
def countedLines (source : String) : List String :=
  (lines source).dropLast ++ (lines source).getLast?.toList.filter (· ≠ "")

/-- Nothing stands after the last line feed of a text. -/
def EndsLine (source : String) : Prop := source = "" ∨ source.toList.getLast? = some '\n'

instance (source : String) : Decidable (EndsLine source) :=
  inferInstanceAs (Decidable (source = "" ∨ source.toList.getLast? = some '\n'))

theorem endsLine_iff {source : String} : EndsLine source ↔ lastLine source.toList = [] := by
  rw [EndsLine, lastLine, List.rtakeWhile_eq_nil_iff]
  rcases List.eq_nil_or_concat source.toList with hnil | ⟨front, c, hconcat⟩
  · have hempty : source = "" := String.toList_eq_nil_iff.1 hnil
    simp [hempty]
  · have hne : source ≠ "" := by
      rintro rfl
      simp at hconcat
    simp [hconcat, hne]

theorem getLast?_lines (source : String) :
    (lines source).getLast? = some (String.ofList (lastLine source.toList)) := by
  have hcut : source.toList = source.toList ++ [] := (List.append_nil _).symm
  have hline := SourceMap.getElem?_lines hcut
  have hfirst : firstLine [] = [] := rfl
  rw [hfirst, List.append_nil] at hline
  rw [List.getLast?_eq_getElem?, SourceMap.length_lines, SourceMap.lineCount_ofText,
    Nat.add_sub_cancel_left, hline]

theorem length_countedLines (source : String) :
    (countedLines source).length =
      source.toList.count '\n' + if EndsLine source then 0 else 1 := by
  rw [countedLines, List.length_append, List.length_dropLast, SourceMap.length_lines,
    SourceMap.lineCount_ofText, Nat.add_sub_cancel_left, getLast?_lines]
  by_cases hends : EndsLine source
  · rw [if_pos hends, endsLine_iff.1 hends]
    rfl
  · rw [if_neg hends]
    have hline : String.ofList (lastLine source.toList) ≠ "" := by
      rw [endsLine_iff] at hends
      simpa using hends
    simp [hline]

end Text

/-! ## Files -/

namespace SourceFile

/-- A path has an extension that is, in small letters, one of scripts. -/
def IsScriptPath (path : String) : Prop :=
  ∃ extension, Path.extension? path = some extension ∧
    (Text.lower extension = "txt" ∨ Text.lower extension = "cbot")

theorem path_ofPath (path : String) (size : Nat) : (ofPath path size).path = path := rfl

theorem size_ofPath (path : String) (size : Nat) : (ofPath path size).size = size := rfl

theorem extension_ofPath (path : String) (size : Nat) :
    (ofPath path size).extension = (Path.extension? path).map Text.lower := by
  rw [ofPath]

theorem isScript_ofPath_iff {path : String} {size : Nat} :
    (ofPath path size).isScript = true ↔ IsScriptPath path := by
  rw [isScript, extension_ofPath, IsScriptPath]
  cases Path.extension? path with
  | none => simp
  | some extension => simp [scriptExtensions]

end SourceFile

namespace Source

open SourceFile (IsScriptPath)

variable {files : FileSystem} {preferences : SourcePreferences} {elapsed : Nat} {path : String}

theorem lineCount_eq_length (s : Source) :
    s.lineCount = (Text.countedLines s.text).length := by
  have hcount : Bytes.countIn 0x0A s.text = s.text.toList.count '\n' := by
    rw [← Bytes.count_ofChars, ← Bytes.ofText_eq_ofChars, Bytes.ofText, Array.count_toList]
    rfl
  have hends : (s.text = "" ∨ s.text.toUTF8.data.back? = some 0x0A) ↔ Text.EndsLine s.text := by
    have hlast := @Bytes.getLast?_ofChars_eq_iff s.text.toList '\n' (by decide)
    rw [← Bytes.ofText_eq_ofChars, Bytes.ofText, Array.getLast?_toList] at hlast
    exact or_congr_right hlast
  rw [Text.length_countedLines, lineCount, hcount]
  simp only [Bool.or_eq_true, decide_eq_true_eq, hends]

/-- The source map has one line more than are counted if nothing stands after the last line feed. -/
theorem lineCount_map (s : Source) :
    s.map.lineCount = if Text.EndsLine s.text then s.lineCount + 1 else s.lineCount := by
  rw [lineCount_eq_length, Text.length_countedLines, map, SourceMap.lineCount_ofText]
  split <;> omega

/-! ## What decides -/

/-- A source holds what is in a file. -/
structure Holds (place : String) (bytes : ByteArray) (s : Source) : Prop where
  text : s.text.toUTF8 = bytes
  path : s.file.path = place
  size : s.file.size = bytes.size
  extension : s.file.extension = (Path.extension? place).map Text.lower
  lineCount : s.lineCount = (Text.countedLines s.text).length
  lineCount_map : s.map.lineCount =
    if Text.EndsLine s.text then s.lineCount + 1 else s.lineCount

/-- How loading the script at a path ends. The checks are made in this order, and the first one that
fails decides. -/
inductive Decides (files : FileSystem) (preferences : SourcePreferences) (path : String) :
    Except SourceError Source → Prop
  | noPath : path = "" → Decides files preferences path (.error (.invalidPath path))
  | missing {cause : FileFailure} : path ≠ "" → files path = .missing cause →
      Decides files preferences path (.error (.notFound path))
  | noFile : path ≠ "" → files path = .directory →
      Decides files preferences path (.error (.invalidPath path))
  | tooLarge {place : String} {bytes : ByteArray} : path ≠ "" → files path = .file place bytes →
      Limits.built.maxSourceSize < bytes.size →
      Decides files preferences path (.error (.tooLarge bytes.size Limits.built.maxSourceSize))
  | wrongExtension {place : String} {bytes : ByteArray} : path ≠ "" →
      files path = .file place bytes → bytes.size ≤ Limits.built.maxSourceSize →
      preferences.requireExtension = true → ¬IsScriptPath place →
      Decides files preferences path
        (.error (.wrongExtension ((Path.extension? place).map Text.lower)))
  | notText {place : String} {bytes : ByteArray} : path ≠ "" → files path = .file place bytes →
      bytes.size ≤ Limits.built.maxSourceSize →
      (preferences.requireExtension = true → IsScriptPath place) →
      (∀ text : String, text.toUTF8 ≠ bytes) →
      Decides files preferences path (.error (.notText place))
  | loaded {place : String} {bytes : ByteArray} {s : Source} : path ≠ "" →
      files path = .file place bytes → bytes.size ≤ Limits.built.maxSourceSize →
      (preferences.requireExtension = true → IsScriptPath place) → s.Holds place bytes →
      Decides files preferences path (.ok s)

/-- An event tells what came of loading: an error with its code, or that a script was loaded. -/
def Tells (event : Event) : Except SourceError Source → Prop
  | .error e => event.level = .error ∧ event.code = e.code
  | .ok _ => event.level = .info ∧ event.code = .sourceLoaded

/-- An event is a detail without a code of its own. -/
def IsDetail (event : Event) : Prop := event.level = .debug ∧ event.code = .plainDebug

theorem isDetail_debug (message : String) (entries : List (String × String)) :
    IsDetail ((Event.debug message).withEntries entries) :=
  ⟨Event.level_withEntries _ _, Event.code_withEntries _ _⟩

theorem tells_event (e : SourceError) (message : String) (context : List (String × String)) :
    Tells (e.event message context) (.error e) :=
  ⟨Event.level_withEntries _ _, Event.code_withEntries _ _⟩

theorem tells_loadedEvent (s : Source) : Tells (loadedEvent preferences elapsed path s) (.ok s) := by
  unfold loadedEvent
  split
  · exact ⟨Event.level_withEntries _ _, Event.code_withEntries _ _⟩
  · exact ⟨Event.level_withEntries _ _, Event.code_withEntries _ _⟩

/-! ## The checks -/

/-- A path that leads to no regular file fails one of the first checks. -/
theorem of_locate_eq_error {e : SourceError} {event : Event}
    (h : locate files path = .error (e, event)) :
    Decides files preferences path (.error e) ∧ Tells event (.error e) := by
  unfold locate at h
  split at h
  · next hpath =>
    obtain ⟨rfl, rfl⟩ := Prod.mk.inj (Except.error.inj h)
    exact ⟨.noPath hpath, tells_event _ _ _⟩
  · next hpath =>
    split at h
    · next cause hmissing =>
      obtain ⟨rfl, rfl⟩ := Prod.mk.inj (Except.error.inj h)
      exact ⟨.missing hpath hmissing, tells_event _ _ _⟩
    · next hdirectory =>
      obtain ⟨rfl, rfl⟩ := Prod.mk.inj (Except.error.inj h)
      exact ⟨.noFile hpath hdirectory, tells_event _ _ _⟩
    · cases h

theorem locate_eq_ok_iff {place : String} {bytes : ByteArray} :
    locate files path = .ok (place, bytes) ↔ path ≠ "" ∧ files path = .file place bytes := by
  unfold locate
  split
  · next hpath => simp [hpath]
  · next hpath => split <;> simp_all

section

variable {place : String} {bytes : ByteArray}

/-- A file is refused for its size or its extension, in this order. -/
theorem of_refusal?_eq_some (hpath : path ≠ "") (hfile : files path = .file place bytes)
    {e : SourceError} {event : Event}
    (h : refusal? preferences path (.ofPath place bytes.size) = some (e, event)) :
    Decides files preferences path (.error e) ∧ Tells event (.error e) := by
  unfold refusal? at h
  rw [SourceFile.size_ofPath, SourceFile.extension_ofPath] at h
  split at h
  · next hsize =>
    obtain ⟨rfl, rfl⟩ := Prod.mk.inj (Option.some.inj h)
    exact ⟨.tooLarge hpath hfile hsize, tells_event _ _ _⟩
  · next hsize =>
    rw [Nat.not_lt] at hsize
    split at h
    · next hextension =>
      obtain ⟨rfl, rfl⟩ := Prod.mk.inj (Option.some.inj h)
      simp only [Bool.and_eq_true, Bool.not_eq_true', ← Bool.not_eq_true,
        SourceFile.isScript_ofPath_iff] at hextension
      have hdecides := Decides.wrongExtension hpath hfile hsize hextension.1 hextension.2
      exact ⟨hdecides, tells_event _ _ _⟩
    · cases h

theorem refusal?_eq_none_iff :
    refusal? preferences path (.ofPath place bytes.size) = none ↔
      bytes.size ≤ Limits.built.maxSourceSize ∧
        (preferences.requireExtension = true → IsScriptPath place) := by
  unfold refusal?
  rw [SourceFile.size_ofPath]
  split
  · next hlarge => simp [Nat.not_le.2 hlarge]
  · next hlarge =>
    rw [Nat.not_lt] at hlarge
    rw [← @SourceFile.isScript_ofPath_iff place bytes.size]
    split
    · next hextension => simpa [hlarge] using hextension
    · next hextension => simpa [hlarge] using hextension

/-- A source holds what is in a file if its text and what it knows about the file do. -/
theorem holds_iff {s : Source} :
    s.Holds place bytes ↔
      s.text.toUTF8 = bytes ∧ s.file = SourceFile.ofPath place bytes.size := by
  constructor
  · intro h
    obtain ⟨⟨path, size, extension⟩, text⟩ := s
    exact ⟨h.text, SourceFile.mk.injEq .. ▸ ⟨h.path, h.size, h.extension⟩⟩
  · rintro ⟨htext, hfile⟩
    constructor
    case text => exact htext
    case path => rw [hfile, SourceFile.path_ofPath]
    case size => rw [hfile, SourceFile.size_ofPath]
    case extension => rw [hfile, SourceFile.extension_ofPath]
    case lineCount => exact lineCount_eq_length s
    case lineCount_map => exact lineCount_map s

/-- The bytes of a file that is accepted are those of a text, or loading fails after all. What comes
of it is told after details. -/
theorem exists_read_eq (elapsed : Nat) (hpath : path ≠ "") (hfile : files path = .file place bytes)
    (hsize : bytes.size ≤ Limits.built.maxSourceSize)
    (hextension : preferences.requireExtension = true → IsScriptPath place) :
    ∃ outcome details event, read preferences elapsed path (.ofPath place bytes.size) bytes =
        (outcome, details ++ [event]) ∧
      Decides files preferences path outcome ∧ (∀ detail ∈ details, IsDetail detail) ∧
      Tells event outcome := by
  unfold read
  -- an empty file is told about first
  generalize hempty : (if (SourceFile.ofPath place bytes.size).size = 0 then
    [(Event.debug "Script is empty").withContext "file" path] else []) = empty
  have hdetails : ∀ detail ∈ empty, IsDetail detail := by
    rw [← hempty]
    split
    · exact List.forall_mem_singleton.2 ⟨rfl, rfl⟩
    · exact List.forall_mem_nil _
  dsimp only
  split
  · next hnone =>
    have htext := Bytes.fromUTF8?_eq_none_iff.1 hnone
    exact ⟨_, _, _, rfl, .notText hpath hfile hsize hextension htext, hdetails,
      tells_event _ _ _⟩
  · next text hsome =>
    have hholds : Holds place bytes ⟨.ofPath place bytes.size, text⟩ :=
      holds_iff.2 ⟨Bytes.fromUTF8?_eq_some_iff.1 hsome, rfl⟩
    refine ⟨_, empty ++ [_], _, congrArg _ (List.append_cons _ _ _),
      .loaded hpath hfile hsize hextension hholds, ?_, tells_loadedEvent _⟩
    rw [List.forall_mem_append, List.forall_mem_singleton]
    exact ⟨hdetails, isDetail_debug _ _⟩

end

/-! ## Loading -/

/-- How loading ends, and what is told about it: details, and then the outcome. -/
theorem exists_load_eq (files : FileSystem) (preferences : SourcePreferences) (elapsed : Nat)
    (path : String) :
    ∃ outcome details event, load files preferences elapsed path = (outcome, details ++ [event]) ∧
      Decides files preferences path outcome ∧ (∀ detail ∈ details, IsDetail detail) ∧
      Tells event outcome := by
  have hopening := isDetail_debug "Loading script" [("file", path)]
  unfold load
  cases hlocate : locate files path with
  | error failure =>
    have hfailure : Decides files preferences path (.error failure.1) ∧
        Tells failure.2 (.error failure.1) := of_locate_eq_error hlocate
    obtain ⟨hdecides, htells⟩ := hfailure
    refine ⟨_, [_], _, rfl, hdecides, ?_, htells⟩
    exact List.forall_mem_singleton.2 hopening
  | ok found =>
    obtain ⟨place, bytes⟩ := found
    obtain ⟨hpath, hfile⟩ := locate_eq_ok_iff.1 hlocate
    dsimp only
    have hfound : IsDetail (fileEvent (.ofPath place bytes.size)) := isDetail_debug _ _
    cases hrefusal : refusal? preferences path (.ofPath place bytes.size) with
    | some refusal =>
      obtain ⟨hdecides, htells⟩ := of_refusal?_eq_some hpath hfile hrefusal
      refine ⟨_, [_, _], _, rfl, hdecides, ?_, htells⟩
      simpa using ⟨hopening, hfound⟩
    | none =>
      obtain ⟨hsize, hextension⟩ := refusal?_eq_none_iff.1 hrefusal
      obtain ⟨outcome, details, event, hread, hdecides, hdetails, htells⟩ :=
        exists_read_eq elapsed hpath hfile hsize hextension
      rw [hread]
      refine ⟨outcome, _ :: _ :: details, event, rfl, hdecides, ?_, htells⟩
      rw [List.forall_mem_cons, List.forall_mem_cons]
      exact ⟨hopening, hfound, hdetails⟩

/-- Nothing but the first check that fails decides. -/
theorem Decides.fst_load {outcome : Except SourceError Source}
    (h : Decides files preferences path outcome) :
    (load files preferences elapsed path).1 = outcome := by
  cases h with
  | noPath hpath => rw [load, locate, if_pos hpath]
  | missing hpath hfound => rw [load, locate, if_neg hpath, hfound]
  | noFile hpath hfound => rw [load, locate, if_neg hpath, hfound]
  | tooLarge hpath hfile hsize =>
    rw [load, locate_eq_ok_iff.2 ⟨hpath, hfile⟩]
    dsimp only
    rw [refusal?, SourceFile.size_ofPath, if_pos hsize]
  | @wrongExtension place bytes hpath hfile hsize hrequired hother =>
    have hscript : (SourceFile.ofPath place bytes.size).isScript = false := by
      rwa [← Bool.not_eq_true, SourceFile.isScript_ofPath_iff]
    rw [load, locate_eq_ok_iff.2 ⟨hpath, hfile⟩]
    dsimp only
    rw [refusal?, SourceFile.size_ofPath, if_neg (Nat.not_lt.2 hsize), hrequired, hscript,
      SourceFile.extension_ofPath]
    rfl
  | notText hpath hfile hsize hextension htext =>
    rw [load, locate_eq_ok_iff.2 ⟨hpath, hfile⟩]
    dsimp only
    rw [refusal?_eq_none_iff.2 ⟨hsize, hextension⟩, read, Bytes.fromUTF8?_eq_none_iff.2 htext]
    rfl
  | @loaded place bytes s hpath hfile hsize hextension hholds =>
    obtain ⟨file, text⟩ := s
    obtain ⟨htext, rfl⟩ := holds_iff.1 hholds
    rw [load, locate_eq_ok_iff.2 ⟨hpath, hfile⟩]
    dsimp only
    rw [refusal?_eq_none_iff.2 ⟨hsize, hextension⟩, read, Bytes.fromUTF8?_eq_some_iff.2 htext]

/-! ## What is told -/

/-- The codes of the errors that there are to tell. -/
def errorCodes : Except SourceError Source → List Log.Code
  | .error e => [e.code]
  | .ok _ => []

/-- Events tell an outcome once, as far as they pass a level: there is one error for one that is to
be told, with its code, and none otherwise. That a script was loaded is told once as information,
and not if none was. -/
structure Recounts (level : Level) (outcome : Except SourceError Source) (es : List Event) :
    Prop where
  errors : (es.filter fun e => e.level = .error).map Event.code = errorCodes outcome
  loaded : (es.filter fun e => e.code = .sourceLoaded).length =
    if outcome.isOk ∧ .info ≤ level then 1 else 0

theorem IsDetail.prepare {event : Event} (h : IsDetail event) (a : Ambient) :
    IsDetail (a.prepare event) := by
  rwa [IsDetail, Ambient.level_prepare, Ambient.code_prepare]

theorem Tells.prepare {event : Event} {outcome : Except SourceError Source}
    (h : Tells event outcome) (a : Ambient) : Tells (a.prepare event) outcome := by
  cases outcome with
  | error e => rwa [Tells, Ambient.level_prepare, Ambient.code_prepare]
  | ok s => rwa [Tells, Ambient.level_prepare, Ambient.code_prepare]

theorem code_ne_sourceLoaded (e : SourceError) : e.code ≠ .sourceLoaded := by
  cases e <;> simp only [SourceError.code] <;> decide

/-- Of details and the event that tells an outcome, the last one alone tells something. -/
theorem recounts_of_tells {outcome : Except SourceError Source} {details : List Event}
    {event : Event} (hdetails : ∀ detail ∈ details, IsDetail detail) (htells : Tells event outcome)
    (level : Level) :
    Recounts level outcome ((details ++ [event]).filter fun e => e.level ≤ level) := by
  have hlast (p : Event → Bool) (hp : ∀ detail ∈ details, p detail = false) :
      ((details ++ [event]).filter fun e => e.level ≤ level).filter p =
        ([event].filter fun e => e.level ≤ level).filter p := by
    have hnone : (details.filter fun e => e.level ≤ level).filter p = [] := by
      rw [List.filter_eq_nil_iff]
      intro detail hdetail
      simp [hp detail (List.mem_of_mem_filter hdetail)]
    rw [List.filter_append, List.filter_append, hnone, List.nil_append]
  have herrors := hlast (fun e => e.level = .error) fun detail hdetail => by
    rw [(hdetails detail hdetail).1]
    rfl
  have hloaded := hlast (fun e => e.code = .sourceLoaded) fun detail hdetail => by
    rw [(hdetails detail hdetail).2]
    rfl
  cases outcome with
  | error e =>
    obtain ⟨hlevel, hcode⟩ := htells
    have hpasses : Level.error ≤ level := Nat.zero_le _
    constructor
    · rw [herrors]
      simp [hlevel, hcode, hpasses, errorCodes]
    · rw [hloaded]
      simp [hlevel, hcode, hpasses, code_ne_sourceLoaded, Except.isOk, Except.toBool]
  | ok s =>
    obtain ⟨hlevel, hcode⟩ := htells
    constructor
    · rw [herrors]
      by_cases hpasses : Level.info ≤ level <;> simp [hlevel, hpasses, errorCodes]
    · rw [hloaded]
      by_cases hpasses : Level.info ≤ level <;>
        simp [hlevel, hcode, hpasses, Except.isOk, Except.toBool]

/-- Loading makes its checks in a fixed order and ends as the first one that fails decides, or with
the script that the file has. What comes of it is told once to any logger, at any level: by an error
with the code of what is wrong, or by one event about the script. Without links, the extension that
is checked is that of the path. -/
theorem load_decides (files : FileSystem) (preferences : SourcePreferences) (elapsed : Nat)
    (path : String) :
    (∀ outcome, (load files preferences elapsed path).1 = outcome ↔
      Decides files preferences path outcome) ∧
    (∀ (a : Ambient) (level : Level), ∃ es,
      a.Hands level (fun b => ((), b.reportAll (load files preferences elapsed path).2)) es ∧
        Recounts level (load files preferences elapsed path).1 es) ∧
    ∀ t : FileTree, t.IsPlain → files = t.fileSystem → ∀ place bytes,
      files path = .file place bytes → Path.extension? place = Path.extension? path := by
  obtain ⟨outcome, details, event, hload, hdecides, hdetails, htells⟩ :=
    exists_load_eq files preferences elapsed path
  refine ⟨fun outcome' => ⟨?_, fun h => h.fst_load⟩, fun a level => ?_, ?_⟩
  · rintro rfl
    rwa [hload]
  · refine ⟨_, Ambient.hands_reportAll a level _, ?_⟩
    rw [hload, List.map_append, List.map_singleton]
    refine recounts_of_tells (fun e he => ?_) (htells.prepare a) level
    obtain ⟨detail, hdetail, rfl⟩ := List.mem_map.1 he
    exact (hdetails detail hdetail).prepare a
  · rintro t ht rfl place bytes hfile
    exact ht.extension?_of_file hfile

/-- A file with an extension in capital letters, a path that leaves the directory it starts in, and
a text that ends with a line feed. -/
theorem load_decides_roundabout :
    let bytes := "a;\n".toUTF8
    let t : FileTree :=
      ⟨["work"], [(["work"], .directory), (["work", "Go.CBOT"], .file bytes)]⟩
    let preferences : SourcePreferences := ⟨true, false⟩
    let s : Source := ⟨⟨"/work/Go.CBOT", 3, some "cbot"⟩, "a;\n"⟩
    t.IsPlain ∧ t.fileSystem "./..//work/Go.CBOT" = .file "/work/Go.CBOT" bytes ∧
      Path.extension? "/work/Go.CBOT" = Path.extension? "./..//work/Go.CBOT" ∧
      (load t.fileSystem preferences 0 "./..//work/Go.CBOT").1 = .ok s ∧
      s.lineCount = 1 ∧ s.map.lineCount = 2 := by
  intro bytes t preferences s
  have hplain : t.IsPlain := by
    refine ⟨by simp [t], fun n hn => ?_⟩
    obtain rfl | rfl : n = 0 ∨ n = 1 := by
      have hlength : t.workingPlace.length = 1 := rfl
      omega
    · rfl
    · rfl
  have hfile : t.fileSystem "./..//work/Go.CBOT" = .file "/work/Go.CBOT" bytes := by
    have hsteps : Path.steps "./..//work/Go.CBOT" = [".", "..", "work", "Go.CBOT"] := by
      decide +kernel
    have hstart : t.startOf "./..//work/Go.CBOT" = ["work"] := rfl
    have hwalk : t.walk false FileTree.maxLinks ["work"] [".", "..", "work", "Go.CBOT"] =
        .ok (["work", "Go.CBOT"], some (.file bytes)) := by
      simp only [FileTree.walk]
      rfl
    have hlocate : t.locate false "./..//work/Go.CBOT" =
        .ok (["work", "Go.CBOT"], some (.file bytes)) := by
      rw [FileTree.locate, hsteps, hstart, hwalk]
      rfl
    rw [FileTree.fileSystem, hlocate]
    rfl
  have hdecides := load_decides t.fileSystem preferences 0 "./..//work/Go.CBOT"
  have hholds : s.Holds "/work/Go.CBOT" bytes := by
    refine holds_iff.2 ⟨rfl, ?_⟩
    rw [SourceFile.ofPath]
    decide +kernel
  have hscript : IsScriptPath "/work/Go.CBOT" := by
    refine ⟨"CBOT", by decide +kernel, .inr ?_⟩
    decide +kernel
  refine ⟨hplain, hfile, hdecides.2.2 t hplain rfl _ _ hfile, ?_, ?_, ?_⟩
  · exact (hdecides.1 _).2 (.loaded (by decide) hfile (by decide +kernel) (fun _ => hscript) hholds)
  · decide +kernel
  · decide +kernel

end Source

end RobotScript
