import RobotScript.Files.Basic
import RobotScript.Limits
import RobotScript.Log.Event
import RobotScript.Preferences
import RobotScript.SourceMap
import RobotScript.Text.Blank
import RobotScript.Text.Case
import RobotScript.Text.Decimal
import RobotScript.Text.Size

/-!
# Sources

Models of `SourceError`, `SourceMetadata`, `SourceText` and `SourceLoader`: `load`, with
`validate_path`, `read_metadata`, `validate`, `read` and `log_loaded`. A source is the text of a
script with what is known about its file. Loading one checks, in this order: the path, the size, the
extension, and the text. Each outcome is reported.

* The files are a parameter: what is found at a path is the same throughout, and there are no
  permissions. So `PermissionDenied` and `IoError` do not occur, and there is no `SourceError` for
  them. The time at which a file was modified is left out.
* Names of files are texts.
* The events of a call are returned as a list, and the time that it takes is a parameter.
-/

namespace RobotScript

open Log (Event)

/-! ## Sources -/

/-- What is known about a script before it is read. -/
structure SourceFile where
  /-- The absolute path without links. -/
  path : String
  /-- The number of bytes. -/
  size : Nat
  /-- The extension in small letters, if there is one. -/
  extension : Option String
  deriving Repr, DecidableEq, Inhabited

/-- A script that has been read. -/
structure Source where
  file : SourceFile
  text : String
  deriving Repr, DecidableEq, Inhabited

/-- The extensions of scripts. -/
def scriptExtensions : List String := ["txt", "cbot"]

namespace SourceFile

/-- What is known about the file at a path with a number of bytes. -/
def ofPath (path : String) (size : Nat) : SourceFile :=
  ⟨path, size, (Path.extension? path).map Text.lower⟩

/-- Whether the file has an extension of scripts. -/
def isScript (f : SourceFile) : Bool :=
  match f.extension with
  | some e => scriptExtensions.contains e
  | none => false

/-- The extension, or a word for there being none. -/
def extensionName (f : SourceFile) : String := f.extension.getD "none"

/-- Whether the file is called large. -/
def isLarge (f : SourceFile) : Bool := Limits.built.largeSource < f.size

end SourceFile

namespace Source

/-- The name of the script. -/
def name (s : Source) : String := Path.fileName s.file.path

/-- Whether the text is white space only. -/
def isBlank (s : Source) : Bool := Text.isBlankText s.text

/-- The number of lines: that of the line feeds, and one more for a last line without one. -/
def lineCount (s : Source) : Nat :=
  Bytes.countIn 0x0A s.text +
    if s.text = "" || s.text.toUTF8.data.back? = some 0x0A then 0 else 1

/-- The source map of the text. -/
def map (s : Source) : SourceMap := .ofText s.text

end Source

/-! ## Errors -/

/-- Why a script was not loaded. -/
inductive SourceError where
  | notFound (path : String)
  | wrongExtension (extension : Option String)
  | tooLarge (size limit : Nat)
  | notText (path : String)
  | invalidPath (path : String)
  deriving Repr, DecidableEq

namespace SourceError

/-- An extension that may be absent. -/
def describeExtension : Option String → String
  | some e => "Some(" ++ Text.quoted e ++ ")"
  | none => "None"

/-- The wording of an error. -/
def message : SourceError → String
  | .notFound path => "Script not found: " ++ path
  | .wrongExtension extension =>
    "Invalid script extension: expected .txt or .cbot, found " ++ describeExtension extension
  | .tooLarge size limit => s!"Script too large: {size} bytes (max: {limit})"
  | .notText path => "Invalid UTF-8 encoding in script: " ++ path
  | .invalidPath path => "Invalid script path: " ++ path

/-- The name of the kind of an error. -/
def kind : SourceError → String
  | .notFound _ => "FileNotFound"
  | .wrongExtension _ => "InvalidExtension"
  | .tooLarge _ _ => "FileTooLarge"
  | .notText _ => "InvalidEncoding"
  | .invalidPath _ => "InvalidPath"

/-- The code of an error. -/
def code : SourceError → Log.Code
  | .notFound _ => .fileNotFound
  | .wrongExtension _ => .invalidExtension
  | .tooLarge _ _ => .fileTooLarge
  | .notText _ => .invalidEncoding
  | .invalidPath _ => .invalidPath

/-- The event about an error. -/
def event (e : SourceError) (message : String) (context : List (String × String)) : Event :=
  (Event.error e.code message).withEntries context

end SourceError

/-! ## Loading -/

namespace Source

/-- The regular file that a path leads to, or the error with its event. -/
def locate (files : FileSystem) (path : String) :
    Except (SourceError × Event) (String × ByteArray) :=
  if path = "" then
    let e := SourceError.invalidPath path
    .error (e, e.event "Empty script path provided" [])
  else
    match files path with
    | .missing _ =>
      let e := SourceError.notFound path
      .error (e, e.event "Script not found" [("path", path)])
    | .directory =>
      let e := SourceError.invalidPath path
      .error (e, e.event "Path is not a file" [("path", path)])
    | .file place bytes => .ok (place, bytes)

/-- What is wrong with a file, if anything, with the event: its size, or its extension if one of a
script is required. -/
def refusal? (preferences : SourcePreferences) (path : String) (f : SourceFile) :
    Option (SourceError × Event) :=
  if Limits.built.maxSourceSize < f.size then
    let e := SourceError.tooLarge f.size Limits.built.maxSourceSize
    some (e, e.event "Script exceeds maximum source size"
      [ ("file", path), ("size_human", Text.size f.size),
        ("limit_human", Text.size Limits.built.maxSourceSize) ])
  else if preferences.requireExtension && !f.isScript then
    let e := SourceError.wrongExtension f.extension
    some (e, e.event "Script does not have a required extension"
      [("file", path), ("extension", f.extensionName)])
  else none

/-- The detail about a file that was found. -/
def fileEvent (f : SourceFile) : Event :=
  (Event.debug "Script metadata collected").withEntries
    [ ("size_bytes", toString f.size), ("extension", f.extensionName),
      ("is_script", toString f.isScript),
      ("max_size_bytes", toString Limits.built.maxSourceSize) ]

/-- The event about a script that was loaded in `elapsed` nanoseconds. -/
def loadedEvent (preferences : SourcePreferences) (elapsed : Nat) (path : String) (s : Source) :
    Event :=
  if preferences.logPerformance then
    (Event.success .sourceLoaded "Script loaded with performance metrics").withEntries
      [ ("file", path), ("size_bytes", toString s.file.size),
        ("size_human", Text.size s.file.size), ("lines", toString s.lineCount),
        ("duration_ms", Text.milliseconds 2 elapsed), ("is_large", toString s.file.isLarge) ]
  else
    (Event.success .sourceLoaded "Script loaded").withEntries
      [("file", path), ("lines", toString s.lineCount)]

/-- The text of a script that was found, or why there is none, with the events. -/
def read (preferences : SourcePreferences) (elapsed : Nat) (path : String) (f : SourceFile)
    (bytes : ByteArray) : Except SourceError Source × List Event :=
  let empty := if f.size = 0 then [(Event.debug "Script is empty").withContext "file" path] else []
  match String.fromUTF8? bytes with
  | none =>
    let e := SourceError.notText f.path
    (.error e, empty ++ [e.event "Invalid UTF-8 encoding in script" [("file", path)]])
  | some text =>
    let s : Source := ⟨f, text⟩
    let content := (Event.debug "Script content read").withEntries
      [("file", path), ("bytes", toString text.utf8ByteSize)]
    (.ok s, empty ++ [content, loadedEvent preferences elapsed path s])

/-- Loads the script at a path in `elapsed` nanoseconds: the source or the reason why there is none,
and the events. -/
def load (files : FileSystem) (preferences : SourcePreferences) (elapsed : Nat) (path : String) :
    Except SourceError Source × List Event :=
  let opening := (Event.debug "Loading script").withContext "file" path
  match locate files path with
  | .error (e, event) => (.error e, [opening, event])
  | .ok (place, bytes) =>
    let f := SourceFile.ofPath place bytes.size
    match refusal? preferences path f with
    | some (e, event) => (.error e, [opening, fileEvent f, event])
    | none =>
      let (outcome, events) := read preferences elapsed path f bytes
      (outcome, [opening, fileEvent f] ++ events)

end Source

end RobotScript
