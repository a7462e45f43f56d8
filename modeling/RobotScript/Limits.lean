/-!
# Limits

The constants that the build writes down, for the profile for development, and models of `profile`,
`config_dir` and `source_info`. The limits are fixed when the program is built, and no preference
can change them.
-/

namespace RobotScript

/-- Limits on what is read and recorded. -/
structure Limits where
  /-- The size in bytes up to which a source is loaded. -/
  maxSourceSize : Nat
  /-- The size in bytes above which a source is called large. -/
  largeSource : Nat
  /-- How many constants can be defined. -/
  maxConstants : Nat
  /-- How many keywords are loaded. -/
  maxKeywords : Nat
  /-- How many entries of a list of types a cursor looks at. -/
  maxTypeCandidates : Nat
  /-- How many events a memory holds. -/
  logBuffer : Nat
  /-- How many bytes of the message of an event are kept. -/
  maxMessage : Nat
  /-- The number of the level below which logging cannot be made quieter. -/
  minLogLevel : Nat
  deriving Repr, DecidableEq

namespace Limits

/-- The limits of the profile for development. -/
def development : Limits where
  maxSourceSize := 10485760
  largeSource := 1048576
  maxConstants := 1000
  maxKeywords := 200
  maxTypeCandidates := 20
  logBuffer := 10000
  maxMessage := 4096
  minLogLevel := 2

/-- The limits that this program is built with. -/
def built : Limits := development

/-- The profile that this program is built with. -/
def builtProfile : String := "development"

/-- The directory that the limits of a profile are read from. -/
def builtDirectory : String := "config"

/-- Where the limits come from. -/
def builtFrom : String := "Generated from " ++ builtDirectory ++ "/" ++ builtProfile ++ ".toml"

end Limits

end RobotScript
