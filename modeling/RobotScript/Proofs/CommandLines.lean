import Mathlib.Data.List.Forall2
import RobotScript.CommandLine.Options
import RobotScript.Proofs.Decimals

/-!
# Command lines in any order

The words of a command line are read from left to right as parts: one word, or an option with the
word after it as its value, whatever that looks like. What a command line asks for does not depend
on the order of its parts, but for constants, which are defined in order, and for files that are
named more than once, of which the last one counts.

Results:

* `CommandLine.Reads`: how words are read as parts; `CommandLine.exists_reads`: all words are read.
* `CommandLine.parseConstant_written`: a constant that is written down is read back.
* `CommandLine.readWords_of_reads`: words are read part by part.
* `CommandLine.parseOptions_eq_ok_iff`: the command lines that are accepted, and what they ask for.
* `CommandLine.parseOptions_eq_error_iff`: those that are refused.
* `CommandLine.parseOptions_arranged`: both, for options that are asked for in any order.
-/

namespace RobotScript.CommandLine

/-! ## Constants -/

/-- A name that stands for itself before an equals sign. -/
structure IsPlainName (name : String) : Prop where
  notMem : '=' ∉ name.toList
  /-- There is no white space at the ends. -/
  first : ∀ c ∈ name.toList.head?, Text.isBlank c = false
  last : ∀ c ∈ name.toList.getLast?, Text.isBlank c = false

/-- A constant as it is written on a command line. -/
def written (constant : String × Int) : String := constant.1 ++ "=" ++ toString constant.2

theorem splitEquals_append {name : List Char} (h : '=' ∉ name) (value : List Char) :
    splitEquals (name ++ '=' :: value) = some (name, value) := by
  have hname : ∀ c ∈ name, decide (c ≠ '=') = true := by
    intro c hc
    rw [decide_eq_true_eq]
    rintro rfl
    exact h hc
  unfold splitEquals
  rw [List.dropWhile_append_of_pos hname, List.takeWhile_append_of_pos hname]
  simp

/-- A constant that is written down is read back. -/
theorem parseConstant_written {constant : String × Int} (hname : IsPlainName constant.1)
    (hvalue : fitsInt64 constant.2 = true) :
    parseConstant (written constant) = .ok constant := by
  have hlist : (written constant).toList =
      constant.1.toList ++ '=' :: (toString constant.2).toList := by
    simp [written]
  have htrim : Text.trim constant.1 = constant.1 := by
    rw [Text.trim, Text.trimChars_eq_self hname.first hname.last, String.ofList_toList]
  rw [parseConstant, hlist, splitEquals_append hname.notMem]
  simp only [String.ofList_toList, Text.int64?_trim_toString hvalue, htrim]

/-! ## Parts of command lines -/

/-- A part of a command line: the path of the script, or an option. One that takes a value has none
if it is the last word. -/
inductive Part where
  | script (path : String)
  | json
  /-- A constant, by the word that defines it. -/
  | constant (word : Option String)
  | keywords (path : Option String)
  | configuration (path : Option String)
  /-- An option that is not known. -/
  | unknown (word : String)
  deriving Repr, DecidableEq

namespace Part

/-- The words of a part. -/
def words : Part → List String
  | script path => [path]
  | json => ["--json"]
  | constant word => "--define" :: word.toList
  | keywords path => "--keywords" :: path.toList
  | configuration path => "--config" :: path.toList
  | unknown word => [word]

/-- Whether a part is more than an option that lacks its value. -/
def isComplete : Part → Bool
  | constant none | keywords none | configuration none => false
  | _ => true

/-- The options that are known. -/
def known : List String := ["--json", "--define", "--keywords", "--config"]

/-- A script does not look like an option, and an option that is not known does. -/
def IsProper : Part → Prop
  | script path => isOption path = false
  | unknown word => isOption word = true ∧ word ∉ known
  | json | constant _ | keywords _ | configuration _ => True

instance (p : Part) : Decidable p.IsProper :=
  match p with
  | script path => inferInstanceAs (Decidable (isOption path = false))
  | unknown word => inferInstanceAs (Decidable (isOption word = true ∧ word ∉ known))
  | json | constant _ | keywords _ | configuration _ => inferInstanceAs (Decidable True)

/-- The warnings about a part. -/
def warnings : Part → List String
  | unknown word => [unknownOption word]
  | _ => []

/-! ### What a part holds -/

def script? : Part → Option String
  | script path => some path
  | _ => none

def constant? : Part → Option String
  | constant word => word
  | _ => none

def keywords? : Part → Option String
  | keywords path => path
  | _ => none

def configuration? : Part → Option String
  | configuration path => path
  | _ => none

end Part

/-- How words are read from left to right: an option that takes a value takes the next word, and at
the end of the words it has none. -/
inductive Reads : List String → List Part → Prop
  | nil : Reads [] []
  | part {p : Part} {words : List String} {ps : List Part} : p.IsProper → p.isComplete = true →
      Reads words ps → Reads (p.words ++ words) (p :: ps)
  | last {p : Part} : p.isComplete = false → Reads p.words [p]

/-- Known options start with two hyphens. -/
theorem notMem_known {word : String} (h : isOption word = false) : word ∉ Part.known := by
  have hknown : ∀ w ∈ Part.known, isOption w = true := by decide
  intro hmem
  rw [hknown word hmem] at h
  cases h

/-- An option that takes a value is read with the next word, if there is one. -/
theorem exists_reads_option {option : String} {rest : List String} (f : Option String → Part)
    (hwords : ∀ value, (f value).words = option :: value.toList)
    (hproper : ∀ value, (f value).IsProper)
    (hcomplete : ∀ value, (f value).isComplete = value.isSome)
    (hrest : ∃ ps, Reads rest.tail ps) : ∃ ps, Reads (option :: rest) ps := by
  cases rest with
  | nil =>
    have hlast := Reads.last (hcomplete none)
    rw [hwords] at hlast
    exact ⟨_, hlast⟩
  | cons value rest =>
    obtain ⟨ps, hps⟩ := hrest
    have hpart := Reads.part (hproper (some value)) (hcomplete (some value)) hps
    rw [hwords] at hpart
    exact ⟨_, hpart⟩

/-- All words are read. -/
theorem exists_reads (words : List String) : ∃ ps, Reads words ps := by
  match words with
  | [] => exact ⟨[], .nil⟩
  | word :: rest =>
    have hrest := exists_reads rest
    have htail := exists_reads rest.tail
    by_cases hknown : word ∈ Part.known
    · simp only [Part.known, List.mem_cons, List.not_mem_nil, or_false] at hknown
      rcases hknown with rfl | rfl | rfl | rfl
      · obtain ⟨ps, hps⟩ := hrest
        have hproper : Part.json.IsProper := trivial
        exact ⟨_, .part hproper rfl hps⟩
      · exact exists_reads_option .constant (fun _ => rfl) (fun _ => trivial)
          (fun value => by cases value <;> rfl) htail
      · exact exists_reads_option .keywords (fun _ => rfl) (fun _ => trivial)
          (fun value => by cases value <;> rfl) htail
      · exact exists_reads_option .configuration (fun _ => rfl) (fun _ => trivial)
          (fun value => by cases value <;> rfl) htail
    · obtain ⟨ps, hps⟩ := hrest
      cases hoption : isOption word with
      | false =>
        have hproper : (Part.script word).IsProper := hoption
        exact ⟨_, .part hproper rfl hps⟩
      | true =>
        have hproper : (Part.unknown word).IsProper := ⟨hoption, hknown⟩
        exact ⟨_, .part hproper rfl hps⟩
termination_by words.length
decreasing_by
  · exact Nat.lt_succ_self _
  · rw [List.length_tail, List.length_cons]
    omega

/-- Complete parts in a row are read as what they are. -/
theorem reads_flatMap {ps : List Part} (hproper : ∀ p ∈ ps, p.IsProper)
    (hcomplete : ∀ p ∈ ps, p.isComplete = true) : Reads (ps.flatMap Part.words) ps := by
  induction ps with
  | nil => exact .nil
  | cons p ps ih =>
    rw [List.forall_mem_cons] at hproper hcomplete
    exact .part hproper.1 hcomplete.1 (ih hproper.2 hcomplete.2)

/-! ## Reading part by part -/

/-- What is known after one more part. -/
def Draft.note (d : Draft) : Part → Except OptionError Draft
  | .script path =>
    if d.input.isSome then .error (.extraWord path) else .ok { d with input := some path }
  | .json => .ok { d with json := true }
  | .constant none => .error (.noValue "--define" "NAME=VALUE")
  | .constant (some word) =>
    (parseConstant word).map fun constant => { d with constants := d.constants ++ [constant] }
  | .keywords none => .error (.noValue "--keywords" "a file")
  | .keywords (some path) => .ok { d with keywords := some path }
  | .configuration none => .error (.noValue "--config" "a file")
  | .configuration (some path) => .ok { d with configuration := some path }
  | .unknown _ => .ok d

/-- What parts come to, one after the other: the warnings, and the options or what is wrong. -/
def Draft.readParts (d : Draft) : List Part → List String × Except OptionError Options
  | [] => ([], d.finish)
  | p :: ps =>
    match d.note p with
    | .error e => ([], .error e)
    | .ok d' => (p.warnings ++ (d'.readParts ps).1, (d'.readParts ps).2)

theorem readWords_of_notMem_known {word : String} (h : word ∉ Part.known) (d : Draft)
    (rest : List String) : readWords d (word :: rest) =
      if isOption word then warn word (readWords d rest)
      else if d.input.isSome then ([], .error (.extraWord word))
      else readWords { d with input := some word } rest := by
  simp only [Part.known, List.mem_cons, List.not_mem_nil, or_false, not_or] at h
  obtain ⟨hjson, hdefine, hkeywords, hconfig⟩ := h
  rw [readWords]
  · exact hjson
  · exact fun hword _ => hdefine hword
  · exact fun _ _ hword _ => hdefine hword
  · exact fun hword _ => hkeywords hword
  · exact fun _ _ hword _ => hkeywords hword
  · exact fun hword _ => hconfig hword
  · exact fun _ _ hword _ => hconfig hword

/-- Words are read part by part. -/
theorem readWords_of_reads {words : List String} {ps : List Part} (h : Reads words ps)
    (d : Draft) : readWords d words = d.readParts ps := by
  induction h generalizing d with
  | nil => rfl
  | @last p hp =>
    cases p with
    | constant word =>
      cases word with
      | none => rfl
      | some word => cases hp
    | keywords path =>
      cases path with
      | none => rfl
      | some path => cases hp
    | configuration path =>
      cases path with
      | none => rfl
      | some path => cases hp
    | script path => cases hp
    | json => cases hp
    | unknown word => cases hp
  | @part p words ps hproper hcomplete _ ih =>
    cases p with
    | script path =>
      have hoption : isOption path = false := hproper
      show readWords d (path :: words) = _
      rw [readWords_of_notMem_known (notMem_known hoption), if_neg (by simp [hoption]),
        Draft.readParts, Draft.note]
      split
      · rfl
      · rw [ih]
        rfl
    | unknown word =>
      show readWords d (word :: words) = _
      rw [readWords_of_notMem_known hproper.2, if_pos hproper.1, ih]
      rfl
    | json =>
      show readWords d ("--json" :: words) = _
      rw [readWords, ih]
      rfl
    | constant word =>
      cases word with
      | none => cases hcomplete
      | some word =>
        show readWords d ("--define" :: word :: words) = _
        rw [readWords, Draft.readParts, Draft.note]
        cases parseConstant word with
        | error e => rfl
        | ok constant => exact ih _
    | keywords path =>
      cases path with
      | none => cases hcomplete
      | some path =>
        show readWords d ("--keywords" :: path :: words) = _
        rw [readWords, ih]
        rfl
    | configuration path =>
      cases path with
      | none => cases hcomplete
      | some path =>
        show readWords d ("--config" :: path :: words) = _
        rw [readWords, ih]
        rfl

/-! ## What parts ask for -/

/-- The constants of parts are defined in order. -/
def Defines (words : List String) (constants : List (String × Int)) : Prop :=
  List.Forall₂ (fun word constant => parseConstant word = .ok constant) words constants

theorem Defines.exists_of_mem {words : List String} {constants : List (String × Int)}
    (h : Defines words constants) {word : String} (hmem : word ∈ words) :
    ∃ constant, parseConstant word = .ok constant := by
  induction h with
  | nil => cases hmem
  | cons hword _ ih =>
    rcases List.mem_cons.1 hmem with rfl | hmem
    · exact ⟨_, hword⟩
    · exact ih hmem

theorem Defines.unique {words : List String} {constants constants' : List (String × Int)}
    (h : Defines words constants) (h' : Defines words constants') : constants = constants' := by
  refine List.right_unique_forall₂' (fun word constant constant' hc hc' => ?_) h h'
  exact Except.ok.inj (hc.symm.trans hc')

/-- A draft holds what is asked for by the parts before it. The last file that is named counts, and
all constants do. -/
structure Draft.Holds (d : Draft) (ps : List Part) : Prop where
  complete : ∀ p ∈ ps, p.isComplete = true
  input : ps.filterMap Part.script? = d.input.toList
  json : d.json = true ↔ Part.json ∈ ps
  constants : Defines (ps.filterMap Part.constant?) d.constants
  keywords : d.keywords = (ps.filterMap Part.keywords?).getLast?
  configuration : d.configuration = (ps.filterMap Part.configuration?).getLast?

/-- What is wrong with a command line. -/
inductive Faulty (ps : List Part) : Prop
  | noScript : ps.filterMap Part.script? = [] → Faulty ps
  | extraWord : 1 < (ps.filterMap Part.script?).length → Faulty ps
  | noValue {p : Part} : p ∈ ps → p.isComplete = false → Faulty ps
  | noConstant {word : String} {e : OptionError} : .constant (some word) ∈ ps →
      parseConstant word = .error e → Faulty ps

/-- The draft of a whole command line. -/
def Options.draft (o : Options) : Draft :=
  ⟨some o.input, o.json, o.constants, o.keywords, o.configuration⟩

theorem Options.draft_injective {o o' : Options} (h : o.draft = o'.draft) : o = o' := by
  cases o
  cases o'
  simpa [draft] using h

theorem filterMap_concat (f : Part → Option String) (ps : List Part) (p : Part) :
    (ps ++ [p]).filterMap f = ps.filterMap f ++ (f p).toList := by
  rw [List.filterMap_append]
  cases hp : f p <;> simp [hp]

theorem getLast?_append_toList {α : Type} (l : List α) (o : Option α) :
    (l ++ o.toList).getLast? = o.or l.getLast? := by
  cases o <;> simp

namespace Draft.Holds

variable {d d' : Draft} {ps : List Part} {p : Part}

theorem empty : Draft.empty.Holds [] :=
  ⟨by simp, rfl, by simp [Draft.empty], .nil, rfl, rfl⟩

/-- A draft holds one more part if it has what the part holds. -/
theorem concat (h : d.Holds ps) (hcomplete : p.isComplete = true)
    (hinput : d'.input.toList = d.input.toList ++ p.script?.toList)
    (hjson : d'.json = true ↔ d.json = true ∨ p = .json)
    (hconstants : ∃ constants, d'.constants = d.constants ++ constants ∧
      Defines p.constant?.toList constants)
    (hkeywords : d'.keywords = p.keywords?.or d.keywords)
    (hconfiguration : d'.configuration = p.configuration?.or d.configuration) :
    d'.Holds (ps ++ [p]) := by
  constructor
  case complete =>
    intro q hq
    rcases List.mem_append.1 hq with hq | hq
    · exact h.complete q hq
    · obtain rfl := List.mem_singleton.1 hq
      exact hcomplete
  case input => rw [filterMap_concat, h.input, hinput]
  case json =>
    rw [hjson, h.json, List.mem_append, List.mem_singleton]
    exact or_congr_right eq_comm
  case constants =>
    obtain ⟨constants, heq, hdefines⟩ := hconstants
    rw [filterMap_concat, heq]
    exact List.rel_append h.constants hdefines
  case keywords => rw [filterMap_concat, getLast?_append_toList, hkeywords, h.keywords]
  case configuration =>
    rw [filterMap_concat, getLast?_append_toList, hconfiguration, h.configuration]

/-- A part that is noted is held. -/
theorem note (h : d.Holds ps) (hn : d.note p = .ok d') : d'.Holds (ps ++ [p]) := by
  have hnone : ∃ constants, d.constants = d.constants ++ constants ∧ Defines [] constants :=
    ⟨[], (List.append_nil _).symm, .nil⟩
  cases p with
  | script path =>
    rw [Draft.note] at hn
    split at hn
    · cases hn
    · next hinput =>
      obtain rfl := Except.ok.inj hn
      have hinput : d.input = none := Option.not_isSome_iff_eq_none.1 hinput
      exact h.concat rfl (by simp [hinput, Part.script?]) (by simp) hnone rfl rfl
  | json =>
    obtain rfl := Except.ok.inj hn
    exact h.concat rfl (by simp [Part.script?]) (by simp) hnone rfl rfl
  | constant word =>
    cases word with
    | none => cases hn
    | some word =>
      rw [Draft.note] at hn
      cases hword : parseConstant word with
      | error e =>
        rw [hword] at hn
        cases hn
      | ok constant =>
        rw [hword] at hn
        obtain rfl := Except.ok.inj hn
        exact h.concat rfl (by simp [Part.script?]) (by simp) ⟨[constant], rfl, .cons hword .nil⟩
          rfl rfl
  | keywords path =>
    cases path with
    | none => cases hn
    | some path =>
      obtain rfl := Except.ok.inj hn
      exact h.concat rfl (by simp [Part.script?]) (by simp) hnone rfl rfl
  | configuration path =>
    cases path with
    | none => cases hn
    | some path =>
      obtain rfl := Except.ok.inj hn
      exact h.concat rfl (by simp [Part.script?]) (by simp) hnone rfl rfl
  | unknown word =>
    obtain rfl := Except.ok.inj hn
    exact h.concat rfl (by simp [Part.script?]) (by simp) hnone rfl rfl

/-- A part that is not noted makes a command line faulty, whatever follows it. -/
theorem faulty (h : d.Holds ps) {e : OptionError} (hn : d.note p = .error e)
    (after : List Part) : Faulty (ps ++ p :: after) := by
  have hmem : p ∈ ps ++ p :: after := by simp
  cases p with
  | script path =>
    rw [Draft.note] at hn
    split at hn
    · next hinput =>
      obtain ⟨input, hinput⟩ := Option.isSome_iff_exists.1 hinput
      refine .extraWord ?_
      rw [List.filterMap_append, h.input, hinput, List.filterMap_cons]
      simp [Part.script?]
    · cases hn
  | constant word =>
    cases word with
    | none => exact .noValue hmem rfl
    | some word =>
      rw [Draft.note] at hn
      cases hword : parseConstant word with
      | error e => exact .noConstant hmem hword
      | ok constant =>
        rw [hword] at hn
        cases hn
  | keywords path =>
    cases path with
    | none => exact .noValue hmem rfl
    | some path => cases hn
  | configuration path =>
    cases path with
    | none => exact .noValue hmem rfl
    | some path => cases hn
  | json => cases hn
  | unknown word => cases hn

/-- Parts of a whole command line are not faulty. -/
theorem not_faulty {o : Options} (h : o.draft.Holds ps) : ¬Faulty ps := by
  have hscript : ps.filterMap Part.script? = [o.input] := h.input
  rintro (hnone | hmore | ⟨hp, hvalue⟩ | ⟨hp, hword⟩)
  · rw [hscript] at hnone
    cases hnone
  · rw [hscript] at hmore
    simp at hmore
  · rw [h.complete _ hp] at hvalue
    cases hvalue
  · obtain ⟨constant, hconstant⟩ := h.constants.exists_of_mem (List.mem_filterMap.2 ⟨_, hp, rfl⟩)
    rw [hword] at hconstant
    cases hconstant

/-- Parts are held by one draft. -/
theorem unique (h : d.Holds ps) (h' : d'.Holds ps) : d = d' := by
  have hinput : d.input = d'.input := by
    have htoList := h.input.symm.trans h'.input
    rw [← Option.head?_toList (o := d.input), htoList, Option.head?_toList]
  have hjson : d.json = d'.json := Bool.eq_iff_iff.2 (h.json.trans h'.json.symm)
  have hconstants : d.constants = d'.constants := h.constants.unique h'.constants
  have hkeywords := h.keywords.trans h'.keywords.symm
  have hconfiguration := h.configuration.trans h'.configuration.symm
  cases d
  cases d'
  congr

end Draft.Holds

/-! ## Whole command lines -/

/-- Parts after a draft come to options that hold all parts, with the warnings about the parts that
are read, or to an error if there is a fault among all parts. -/
theorem readParts_cases {d : Draft} {before : List Part} (h : d.Holds before) (ps : List Part) :
    (∃ o, d.readParts ps = (ps.flatMap Part.warnings, .ok o) ∧ o.draft.Holds (before ++ ps)) ∨
      ∃ e, (d.readParts ps).2 = .error e ∧ Faulty (before ++ ps) := by
  induction ps generalizing d before with
  | nil =>
    rw [List.append_nil]
    obtain ⟨input, json, constants, keywords, configuration⟩ := d
    cases input with
    | none => exact Or.inr ⟨_, rfl, .noScript h.input⟩
    | some input => exact Or.inl ⟨_, rfl, h⟩
  | cons p ps ih =>
    cases hn : d.note p with
    | error e => exact Or.inr ⟨e, by rw [Draft.readParts, hn], h.faulty hn ps⟩
    | ok d' =>
      -- the draft after the part holds the part too, so the induction goes on from there
      have hlist : before ++ p :: ps = (before ++ [p]) ++ ps := by simp
      have hparts : d.readParts (p :: ps) =
          (p.warnings ++ (d'.readParts ps).1, (d'.readParts ps).2) := by
        rw [Draft.readParts, hn]
      rw [hlist, hparts]
      rcases ih (h.note hn) with ⟨o, hread, hholds⟩ | ⟨e, hread, hfaulty⟩
      · refine Or.inl ⟨o, ?_, hholds⟩
        rw [hread, List.flatMap_cons]
      · exact Or.inr ⟨e, hread, hfaulty⟩

/-- The options of a command line are the ones that hold all its parts. -/
theorem parseOptions_eq_ok_iff {words : List String} {ps : List Part} (h : Reads words ps)
    (o : Options) :
    parseOptions words = (ps.flatMap Part.warnings, .ok o) ↔ o.draft.Holds ps := by
  have hparts : parseOptions words = Draft.empty.readParts ps := readWords_of_reads h .empty
  rw [hparts]
  rcases readParts_cases .empty ps with ⟨o', hread, hholds⟩ | ⟨e, hread, hfaulty⟩
  · rw [hread]
    constructor
    · intro heq
      obtain rfl : o' = o := Except.ok.inj (Prod.mk.inj heq).2
      exact hholds
    · intro hheld
      rw [Options.draft_injective (hholds.unique hheld)]
  · constructor
    · intro heq
      rw [heq] at hread
      cases hread
    · exact fun hheld => absurd hfaulty hheld.not_faulty

/-- A command line is refused if there is a fault among its parts. -/
theorem parseOptions_eq_error_iff {words : List String} {ps : List Part} (h : Reads words ps) :
    (∃ e, (parseOptions words).2 = .error e) ↔ Faulty ps := by
  have hparts : parseOptions words = Draft.empty.readParts ps := readWords_of_reads h .empty
  rw [hparts]
  rcases readParts_cases .empty ps with ⟨o, hread, hholds⟩ | ⟨e, hread, hfaulty⟩
  · refine iff_of_false ?_ hholds.not_faulty
    rintro ⟨e, herror⟩
    rw [hread] at herror
    cases herror
  · exact iff_of_true ⟨e, hread⟩ hfaulty

/-- A command line asks for options in some order: it has one part for each thing that is asked for,
and any options that are not known among them. -/
structure Options.Arranged (o : Options) (ps : List Part) : Prop where
  proper : ∀ p ∈ ps, p.IsProper
  complete : ∀ p ∈ ps, p.isComplete = true
  script : ps.filterMap Part.script? = [o.input]
  json : o.json = true ↔ Part.json ∈ ps
  constants : ps.filterMap Part.constant? = o.constants.map written
  keywords : ps.filterMap Part.keywords? = o.keywords.toList
  configuration : ps.filterMap Part.configuration? = o.configuration.toList
  plain : ∀ constant ∈ o.constants, IsPlainName constant.1 ∧ fitsInt64 constant.2 = true

theorem Options.Arranged.holds {o : Options} {ps : List Part} (h : o.Arranged ps) :
    o.draft.Holds ps := by
  have hfile (file : Option String) : file = file.toList.getLast? := by cases file <;> rfl
  constructor
  case complete => exact h.complete
  case input => exact h.script
  case json => exact h.json
  case constants =>
    rw [h.constants]
    refine List.forall₂_map_left_iff.2 (List.forall₂_same.2 fun constant hconstant => ?_)
    obtain ⟨hname, hvalue⟩ := h.plain constant hconstant
    exact parseConstant_written hname hvalue
  case keywords =>
    rw [h.keywords]
    exact hfile o.keywords
  case configuration =>
    rw [h.configuration]
    exact hfile o.configuration

/-- Options are read from their parts in any order, with warnings about the options that are not
known. A command line is refused just if it is faulty, read from left to right. -/
theorem parseOptions_arranged :
    (∀ (o : Options) (ps : List Part), o.Arranged ps →
      parseOptions (ps.flatMap Part.words) = (ps.flatMap Part.warnings, .ok o)) ∧
    ∀ words : List String, (∃ ps, Reads words ps) ∧ ∀ ps, Reads words ps →
      ((∃ e, (parseOptions words).2 = .error e) ↔ Faulty ps) := by
  refine ⟨fun o ps h => ?_, fun words => ⟨exists_reads words, fun ps h => ?_⟩⟩
  · exact (parseOptions_eq_ok_iff (reads_flatMap h.proper h.complete) o).2 h.holds
  · exact parseOptions_eq_error_iff h

/-- A file whose name looks like an option, options that are not known, and constants on both sides
of the script. Without the script, the same file is all that a command line has. -/
theorem parseOptions_arranged_mixed :
    let o : Options := ⟨"miner.txt", true, [("Max", -20), ("Ore", 1)], some "--json", none⟩
    let ps : List Part :=
      [.unknown "--verbose", .constant (some "Max=-20"), .keywords (some "--json"),
        .script "miner.txt", .json, .constant (some "Ore=1"), .unknown "--"]
    (o.Arranged ps ∧
      parseOptions ["--verbose", "--define", "Max=-20", "--keywords", "--json", "miner.txt",
          "--json", "--define", "Ore=1", "--"] =
        (["Warning: Unknown option '--verbose'", "Warning: Unknown option '--'"], .ok o)) ∧
    Reads ["--keywords", "--json"] [.keywords (some "--json")] ∧
      ∃ e, (parseOptions ["--keywords", "--json"]).2 = .error e := by
  intro o ps
  have harranged : o.Arranged ps := by
    have hmax : IsPlainName "Max" := by
      refine ⟨by decide, ?_, ?_⟩ <;>
      · rintro c ⟨⟩
        rfl
    have hore : IsPlainName "Ore" := by
      refine ⟨by decide, ?_, ?_⟩ <;>
      · rintro c ⟨⟩
        rfl
    refine ⟨by decide, by decide, rfl, by decide, by decide, rfl, rfl, ?_⟩
    rw [List.forall_mem_cons, List.forall_mem_singleton]
    exact ⟨⟨hmax, by decide⟩, hore, by decide⟩
  have hreads : Reads ["--keywords", "--json"] [.keywords (some "--json")] := by
    refine @reads_flatMap [.keywords (some "--json")] ?_ ?_
    · decide
    · decide
  refine ⟨⟨harranged, parseOptions_arranged.1 o ps harranged⟩, hreads, ?_⟩
  exact ((parseOptions_arranged.2 _).2 _ hreads).2 (.noScript rfl)

end RobotScript.CommandLine
