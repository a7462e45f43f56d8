import RobotScript.Environment
import RobotScript.Files.Tree
import RobotScript.Limits
import RobotScript.Toml.Parser

/-!
# Building with limits

Models of `CompileTimeConfig`, `validate_constraints`, `generate_constants` and of the build that
calls them. The limits come from a profile, a file that the build reads. The build checks the limits
of the profile, and writes them down as constants that are compiled into the program. What it tells
the build tool, and the constants, are texts in the language of that tool.

A build is a function of a file tree and the environment. Where the program panics, the result is an
error with the text of the panic.
-/

namespace RobotScript

namespace Limits

/-! ## Profiles -/

/-- The limits in a table; one of them, the level, is a small number. -/
def ofToml (v : Toml.Value) : Except Toml.Error Limits := do
  let word := Toml.Value.asNat wordCount
  let (maxSourceSize, largeSource) ← v.required "source" 0 fun t => do
    return (← t.required "max_source_size" 0 word, ← t.required "large_source_threshold" 1 word)
  let (maxConstants, maxKeywords, maxTypeCandidates) ← v.required "lexical" 1 fun t => do
    return (← t.required "max_define_count" 0 word, ← t.required "max_keyword_count" 1 word,
      ← t.required "max_type_list_candidates" 2 word)
  let (logBuffer, maxMessage, minLogLevel) ← v.required "logging" 2 fun t => do
    return (← t.required "log_buffer_size" 0 word, ← t.required "max_log_message_length" 1 word,
      ← t.required "security_min_log_level" 2 (Toml.Value.asNat 256))
  return ⟨maxSourceSize, largeSource, maxConstants, maxKeywords, maxTypeCandidates, logBuffer,
    maxMessage, minLogLevel⟩

/-- The limits in the text of a profile. -/
def ofText (text : String) : Except Toml.Error Limits := do ofToml (← Toml.parse text)

/-! ## Checks -/

/-- What is wrong with limits. -/
inductive Fault where
  | sourceSize
  | largeSource
  | keywords
  | constants
  | typeCandidates
  | logLevel
  | productionSourceSize
  deriving Repr, DecidableEq

/-- The wording of a fault. -/
def Fault.message : Fault → String
  | .sourceSize => "SECURITY: max_source_size exceeds absolute maximum"
  | .largeSource => "large_source_threshold must not exceed max_source_size"
  | .keywords => "max_keyword_count must be between 1 and 400"
  | .constants => "max_define_count must be at least 1"
  | .typeCandidates => "max_type_list_candidates must be at least 1"
  | .logLevel => "SECURITY: security_min_log_level too high (max: 2)"
  | .productionSourceSize => "PRODUCTION: max_source_size too high for production"

/-- The first fault of limits for a profile, if there is one. -/
def fault? (profile : String) (l : Limits) : Option Fault :=
  if 1000000000 < l.maxSourceSize then some .sourceSize
  else if l.maxSourceSize < l.largeSource then some .largeSource
  else if l.maxKeywords = 0 ∨ 400 < l.maxKeywords then some .keywords
  else if l.maxConstants = 0 then some .constants
  else if l.maxTypeCandidates = 0 then some .typeCandidates
  else if 2 < l.minLogLevel then some .logLevel
  else if profile = "production" ∧ 50000000 < l.maxSourceSize then some .productionSourceSize
  else none

/-! ## Constants -/

/-- The definition of a constant with a type. -/
def constantLine (name type : String) (value : Nat) : String :=
  "        pub const " ++ name ++ ": " ++ type ++ " = " ++ toString value ++ ";\n"

/-- Definitions in a group. -/
def constantGroup (name : String) (lines : List String) : String :=
  "    pub mod " ++ name ++ " \x7b\n" ++ String.join lines ++ "    \x7d\n"

/-- The limits of a profile as constants. -/
def constants (profile : String) (l : Limits) : String :=
  "\n// Generated compile-time constants from TOML configuration\n// Profile: " ++ profile ++
    "\n// DO NOT EDIT - Generated by build.rs\n\npub mod compile_time \x7b\n" ++
    constantGroup "source"
      [ constantLine "MAX_SOURCE_SIZE" "u64" l.maxSourceSize,
        constantLine "LARGE_SOURCE_THRESHOLD" "u64" l.largeSource ] ++ "\n" ++
    constantGroup "lexical"
      [ constantLine "MAX_DEFINE_COUNT" "usize" l.maxConstants,
        constantLine "MAX_KEYWORD_COUNT" "usize" l.maxKeywords,
        constantLine "MAX_TYPE_LIST_CANDIDATES" "usize" l.maxTypeCandidates ] ++ "\n" ++
    constantGroup "logging"
      [ constantLine "LOG_BUFFER_SIZE" "usize" l.logBuffer,
        constantLine "MAX_LOG_MESSAGE_LENGTH" "usize" l.maxMessage,
        constantLine "SECURITY_MIN_LOG_LEVEL" "u8" l.minLogLevel ] ++ "\x7d\n"

/-! ## Builds -/

/-- Where a build looks for a profile. -/
structure ProfilePlace where
  root : String
  directory : String
  profile : String
  deriving Repr, DecidableEq

namespace ProfilePlace

/-- The place that the environment states, below the root of the project. -/
def ofEnvironment (env : Environment) (root : String) : ProfilePlace where
  root := root
  directory := (env.get? "CBOT_CONFIG_DIR").getD builtDirectory
  profile := (env.get? "CBOT_BUILD_PROFILE").getD builtProfile

/-- The name of the file. -/
def fileName (p : ProfilePlace) : String := p.profile ++ ".toml"

/-- The path of the file. -/
def path (p : ProfilePlace) : String := Path.join (Path.join p.root p.directory) p.fileName

end ProfilePlace

/-- Why a build stopped. -/
inductive BuildError where
  | noProfile (place : ProfilePlace)
  | unreadable (path : String) (cause : FileFailure)
  | unparsable (path : String) (reason : Toml.Error)
  | faulty (fault : Fault)
  | unwritable (cause : FileFailure)
  deriving Repr, DecidableEq

/-- The wording of an error. -/
def BuildError.message : BuildError → String
  | .noProfile p =>
    "Configuration file not found: " ++ p.path ++ "\nWorkspace root: " ++ p.root ++
      "\nLooking for: " ++ p.root ++ "/" ++ p.directory ++ "/" ++ p.fileName
  | .unreadable path cause => "Failed to read " ++ path ++ ": " ++ cause.message
  | .unparsable path reason => "Invalid TOML in " ++ path ++ ": " ++ reason.message
  | .faulty fault => fault.message
  | .unwritable cause => "called `Result::unwrap()` on an `Err` value: " ++ cause.describe

/-- What the build tool is told: when the build has to be done again. -/
def buildNotes (p : ProfilePlace) : String :=
  "cargo:rerun-if-changed=build.rs\n" ++ "cargo:rerun-if-env-changed=CBOT_BUILD_PROFILE\n" ++
    "cargo:rerun-if-env-changed=CBOT_CONFIG_DIR\n" ++ "cargo:rerun-if-changed=" ++ p.path ++ "\n"

/-- The limits of a profile, if they have no fault. -/
def load (files : FileSystem) (p : ProfilePlace) : Except BuildError Limits :=
  match files p.path with
  | .missing _ => .error (.noProfile p)
  | _ =>
    match files.readText p.path with
    | .error cause => .error (.unreadable p.path cause)
    | .ok text =>
      match ofText text with
      | .error reason => .error (.unparsable p.path reason)
      | .ok l =>
        match l.fault? p.profile with
        | some fault => .error (.faulty fault)
        | none => .ok l

/-- The files after a build, which writes the constants to a file in the directory `target`. -/
def build (files : FileTree) (p : ProfilePlace) (target : String) :
    Except BuildError FileTree := do
  let l ← load files.fileSystem p
  match files.write (Path.join target "constants.rs") (l.constants p.profile).toUTF8 with
  | .ok files => return files
  | .error cause => throw (.unwritable cause)

end Limits

end RobotScript
