/-!
# Event codes

Models of `Code`, `Severity`, `ErrorMetadata`, the registry, and `get_error_metadata`,
`get_severity`, `is_recoverable`, `requires_halt`, `get_description`, `get_action` and
`get_category`. Every kind of event that the tokenizer reports has a code, and the registry says
what the code means: its category and severity, whether work can go on, and what to do about it.

The registry is a list, where the program fills a map when it is first asked.
-/

namespace RobotScript.Log

/-- How bad an event is, the worst first. -/
inductive Severity where
  | critical
  | high
  | medium
  | low
  deriving Repr, DecidableEq, Inhabited

namespace Severity

/-- All severities, the worst first. -/
def all : List Severity := [.critical, .high, .medium, .low]

/-- The place of a severity in the order, from 0 for the worst. -/
def rank : Severity → Nat
  | .critical => 0
  | .high => 1
  | .medium => 2
  | .low => 3

/-- The name of a severity. -/
def name : Severity → String
  | .critical => "Critical"
  | .high => "High"
  | .medium => "Medium"
  | .low => "Low"

/-- The severity with a name. -/
def ofName? (s : String) : Option Severity := all.find? fun severity => severity.name == s

end Severity

/-- The code of an event. -/
structure Code where
  name : String
  deriving Repr, DecidableEq, Inhabited

namespace Code

/-- Critical internal system error. -/
def internalError : Code := ⟨"ERR001"⟩

/-- System initialization failure. -/
def initializationFailure : Code := ⟨"ERR002"⟩

/-- Script file not found at specified path. -/
def fileNotFound : Code := ⟨"E005"⟩

/-- Script file does not have a .txt or .cbot extension. -/
def invalidExtension : Code := ⟨"E006"⟩

/-- Script file exceeds the maximum source size. -/
def fileTooLarge : Code := ⟨"E007"⟩

/-- Permission denied while reading script file. -/
def permissionDenied : Code := ⟨"E009"⟩

/-- Script file is not valid UTF-8. -/
def invalidEncoding : Code := ⟨"E010"⟩

/-- I/O error while reading script file. -/
def readFailure : Code := ⟨"E011"⟩

/-- Path does not refer to a regular file. -/
def invalidPath : Code := ⟨"E012"⟩

/-- Runtime configuration file could not be read. -/
def configRead : Code := ⟨"E015"⟩

/-- Runtime configuration file is not valid TOML. -/
def configParse : Code := ⟨"E016"⟩

/-- String literal is missing its closing quote. -/
def unterminatedString : Code := ⟨"E020"⟩

/-- Block comment runs to the end of the script. -/
def unterminatedComment : Code := ⟨"E021"⟩

/-- Keyword table capacity reached, remaining keywords dropped. -/
def keywordTableFull : Code := ⟨"E030"⟩

/-- Keyword table file could not be parsed. -/
def keywordFileInvalid : Code := ⟨"E031"⟩

/-- Keyword category holds more entries than its id range. -/
def keywordRangeExceeded : Code := ⟨"E032"⟩

/-- Constant name already defined. -/
def duplicateConstant : Code := ⟨"E035"⟩

/-- Constant table is full. -/
def constantTableFull : Code := ⟨"E036"⟩

/-- Constant name is empty. -/
def emptyConstantName : Code := ⟨"E037"⟩

/-- Operation completed successfully. -/
def completed : Code := ⟨"I001"⟩

/-- System initialization completed. -/
def initialized : Code := ⟨"I004"⟩

/-- Script source loaded. -/
def sourceLoaded : Code := ⟨"I006"⟩

/-- Script source passed validation. -/
def sourceValidated : Code := ⟨"I007"⟩

/-- Tokenization completed. -/
def tokenized : Code := ⟨"I020"⟩

/-- Keyword table populated. -/
def keywordsLoaded : Code := ⟨"I030"⟩

/-- Numeric constant defined. -/
def constantDefined : Code := ⟨"I035"⟩

/-- Numeric constant table cleared. -/
def constantsCleared : Code := ⟨"I036"⟩

/-- A warning without a code of its own. -/
def plainWarning : Code := ⟨"W000"⟩

/-- Information without a code of its own. -/
def plainInfo : Code := ⟨"I000"⟩

/-- A debug event. -/
def plainDebug : Code := ⟨"D000"⟩

end Code

/-- What the registry says about a code. -/
structure CodeInfo where
  code : Code
  category : String
  severity : Severity
  recoverable : Bool
  requiresHalt : Bool
  description : String
  recommendedAction : String
  deriving Repr, DecidableEq, Inhabited

/-- All registered codes. -/
def registry : List CodeInfo :=
  [ ⟨.internalError, "System", .critical, false, true,
      "Critical internal system error",
      "File a bug report with the failing script"⟩,
    ⟨.initializationFailure, "System", .critical, false, true,
      "System initialization failure",
      "Check logging and runtime configuration"⟩,
    ⟨.fileNotFound, "Source", .medium, false, true,
      "Script file not found at specified path",
      "Check file path and ensure file exists"⟩,
    ⟨.invalidExtension, "Source", .low, true, false,
      "Script file does not have a .txt or .cbot extension",
      "Rename the file or disable the extension requirement"⟩,
    ⟨.fileTooLarge, "Source", .high, false, true,
      "Script file exceeds the maximum source size",
      "Split the script or raise max_source_size in the build profile"⟩,
    ⟨.permissionDenied, "Source", .high, false, true,
      "Permission denied while reading script file",
      "Check file permissions"⟩,
    ⟨.invalidEncoding, "Source", .medium, false, true,
      "Script file is not valid UTF-8",
      "Re-save the script with UTF-8 encoding"⟩,
    ⟨.readFailure, "Source", .high, false, true,
      "I/O error while reading script file",
      "Check disk and file system health"⟩,
    ⟨.invalidPath, "Source", .medium, false, true,
      "Path does not refer to a regular file",
      "Pass a path to a script file, not a directory"⟩,
    ⟨.configRead, "Configuration", .medium, true, false,
      "Runtime configuration file could not be read",
      "Check the configuration path; defaults are used otherwise"⟩,
    ⟨.configParse, "Configuration", .medium, true, false,
      "Runtime configuration file is not valid TOML",
      "Fix the TOML syntax in the configuration file"⟩,
    ⟨.unterminatedString, "Lexical", .low, true, false,
      "String literal is missing its closing quote",
      "Close the string before the end of the line"⟩,
    ⟨.unterminatedComment, "Lexical", .low, true, false,
      "Block comment runs to the end of the script",
      "Close the comment with */"⟩,
    ⟨.keywordTableFull, "Keywords", .low, true, false,
      "Keyword table capacity reached, remaining keywords dropped",
      "Raise max_keyword_count in the build profile"⟩,
    ⟨.keywordFileInvalid, "Keywords", .medium, false, true,
      "Keyword table file could not be parsed",
      "Check the [keywords] tables in the keyword file"⟩,
    ⟨.keywordRangeExceeded, "Keywords", .low, true, false,
      "Keyword category holds more entries than its id range",
      "Move extra keywords into another category"⟩,
    ⟨.duplicateConstant, "Defines", .low, true, false,
      "Constant name already defined",
      "Use a unique name or reset the table between compilation units"⟩,
    ⟨.constantTableFull, "Defines", .medium, true, false,
      "Constant table is full",
      "Raise max_define_count in the build profile"⟩,
    ⟨.emptyConstantName, "Defines", .low, true, false,
      "Constant name is empty",
      "Provide a non-empty constant name"⟩,
    ⟨.completed, "Success", .low, true, false,
      "Operation completed successfully",
      "No action required"⟩,
    ⟨.initialized, "Success", .low, true, false,
      "System initialization completed",
      "No action required"⟩,
    ⟨.sourceLoaded, "Success", .low, true, false,
      "Script source loaded",
      "No action required"⟩,
    ⟨.sourceValidated, "Success", .low, true, false,
      "Script source passed validation",
      "No action required"⟩,
    ⟨.tokenized, "Success", .low, true, false,
      "Tokenization completed",
      "Token stream ready for parsing"⟩,
    ⟨.keywordsLoaded, "Success", .low, true, false,
      "Keyword table populated",
      "No action required"⟩,
    ⟨.constantDefined, "Success", .low, true, false,
      "Numeric constant defined",
      "No action required"⟩,
    ⟨.constantsCleared, "Success", .low, true, false,
      "Numeric constant table cleared",
      "No action required"⟩ ]

namespace Code

/-- What the registry says about a code, if it is registered. -/
def info? (c : Code) : Option CodeInfo := registry.find? fun info => info.code = c

/-- The severity of a code; medium if it is not registered. -/
def severity (c : Code) : Severity := (c.info?.map CodeInfo.severity).getD .medium

/-- Whether work can go on after an event with the code. It can if the code is not registered. -/
def isRecoverable (c : Code) : Bool := (c.info?.map CodeInfo.recoverable).getD true

/-- Whether an event with the code ends the work. It does not if the code is not registered. -/
def requiresHalt (c : Code) : Bool := (c.info?.map CodeInfo.requiresHalt).getD false

/-- What a code means. -/
def description (c : Code) : String := (c.info?.map CodeInfo.description).getD "Unknown error"

/-- What to do about an event with the code. -/
def recommendedAction (c : Code) : String :=
  (c.info?.map CodeInfo.recommendedAction).getD "No specific action available"

/-- The part of the program that the code belongs to. -/
def category (c : Code) : String := (c.info?.map CodeInfo.category).getD "Unknown"

end Code

end RobotScript.Log
