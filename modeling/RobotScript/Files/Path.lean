/-!
# Paths

A path is a text of names with slashes between them. This module takes paths apart and puts them
together; it does not look at files.
-/

namespace RobotScript.Path

/-- A list of characters cut at its slashes: one part more than there are slashes. -/
def splitSlash : List Char → List (List Char)
  | [] => [[]]
  | c :: cs =>
    if c = '/' then [] :: splitSlash cs
    else
      match splitSlash cs with
      | [] => [[c]]
      | part :: parts => (c :: part) :: parts

/-- Whether a path starts at the root. -/
def isAbsolute (path : String) : Bool := path.toList.head? = some '/'

/-- Whether a path ends in a slash, and so can only be a directory. -/
def isDirectory (path : String) : Bool := path.toList.getLast? = some '/'

/-- The steps that a path prescribes, one after the other. A slash at the end is an empty step: it
prescribes to stay in what has to be a directory. -/
def steps (path : String) : List String :=
  (((splitSlash path.toList).filter fun part => !part.isEmpty).map String.ofList) ++
    if isDirectory path then [""] else []

/-- The absolute path of a list of names. -/
def ofNames (names : List String) : String := "/" ++ "/".intercalate names

/-- The path of `inner` as seen from the directory `outer`. -/
def join (outer inner : String) : String :=
  if isAbsolute inner then inner
  else if outer = "" || isDirectory outer then outer ++ inner
  else outer ++ "/" ++ inner

/-- The part of a path after its last slash. -/
def fileName (path : String) : String :=
  String.ofList (path.toList.reverse.takeWhile (· ≠ '/')).reverse

/-- The extension of a file name, given the name backwards: what stands after its last point, if
something stands before that point. -/
def extensionOfReversed (name : List Char) : Option (List Char) :=
  match name.dropWhile (· ≠ '.') with
  | _ :: _ :: _ => some (name.takeWhile (· ≠ '.')).reverse
  | _ => none

/-- The extension of the file name at the end of a path, if there is one. -/
def extension? (path : String) : Option String :=
  (extensionOfReversed (fileName path).toList.reverse).map String.ofList

example : extension? "/a/b.txt.bak" = some "bak" := by decide +kernel
example : extension? "/a.b/.txt" = none := by decide +kernel
example : extension? "/a.b/c." = some "" := by decide +kernel

end RobotScript.Path
