import RobotScript.Files.Path
import RobotScript.Text.Quoted

/-!
# Files

What can be found at a path. The rest of the library takes a file system to be a function from paths
to what is found there, so that programs which read files are functions. The failures are those of
the operating system that can occur without permissions and devices, in its words.
-/

namespace RobotScript

/-- Why a file cannot be read or written. -/
inductive FileFailure where
  | notFound
  | alreadyExists
  | notDirectory
  | isDirectory
  | nameTooLong
  | tooManyLinks
  /-- The path has a character with the code point 0. -/
  | zeroInPath
  /-- The bytes of the file are not the bytes of a text. -/
  | notText
  deriving Repr, DecidableEq, Inhabited

namespace FileFailure

/-- The number of a failure that the operating system reports. -/
def number? : FileFailure → Option Nat
  | .notFound => some 2
  | .alreadyExists => some 17
  | .notDirectory => some 20
  | .isDirectory => some 21
  | .nameTooLong => some 36
  | .tooManyLinks => some 40
  | .zeroInPath | .notText => none

/-- A failure in words. -/
def words : FileFailure → String
  | .notFound => "No such file or directory"
  | .alreadyExists => "File exists"
  | .notDirectory => "Not a directory"
  | .isDirectory => "Is a directory"
  | .nameTooLong => "File name too long"
  | .tooManyLinks => "Too many levels of symbolic links"
  | .zeroInPath => "file name contained an unexpected NUL byte"
  | .notText => "stream did not contain valid UTF-8"

/-- The name of the kind of a failure. -/
def kind : FileFailure → String
  | .notFound => "NotFound"
  | .alreadyExists => "AlreadyExists"
  | .notDirectory => "NotADirectory"
  | .isDirectory => "IsADirectory"
  | .nameTooLong => "InvalidFilename"
  | .tooManyLinks => "FilesystemLoop"
  | .zeroInPath => "InvalidInput"
  | .notText => "InvalidData"

/-- The wording of a failure. -/
def message (f : FileFailure) : String :=
  match f.number? with
  | some n => f.words ++ s!" (os error {n})"
  | none => f.words

/-- A failure with its kind and the values it holds. -/
def describe (f : FileFailure) : String :=
  match f.number? with
  | some n =>
    "Os \x7b code: " ++ toString n ++ ", kind: " ++ f.kind ++ ", message: " ++
      Text.quoted f.words ++ " \x7d"
  | none =>
    "Error \x7b kind: " ++ f.kind ++ ", message: " ++ Text.quoted f.words ++ " \x7d"

end FileFailure

/-- What is found at a path. -/
inductive Found where
  | missing (cause : FileFailure)
  /-- Something that is no regular file. -/
  | directory
  /-- A regular file; `path` is its absolute path without links. -/
  | file (path : String) (bytes : ByteArray)
  deriving Inhabited

/-- What is found at each path. -/
abbrev FileSystem := String → Found

/-- The text of the file at a path. -/
def FileSystem.readText (files : FileSystem) (path : String) : Except FileFailure String :=
  match files path with
  | .missing cause => .error cause
  | .directory => .error .isDirectory
  | .file _ bytes =>
    match String.fromUTF8? bytes with
    | some text => .ok text
    | none => .error .notText

end RobotScript
