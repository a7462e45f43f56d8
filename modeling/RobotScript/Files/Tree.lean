import RobotScript.Files.Basic
import RobotScript.Files.Path

/-!
# File trees

A file tree is a file system that is written down: files, directories and symbolic links with their
places. A path is followed name by name, and a link on the way is replaced by its target. Reading
and writing follow paths alike, but writing may end at a file that is not there yet.
-/

namespace RobotScript

/-- Something in a file tree. -/
inductive FileTree.Entry where
  | file (bytes : ByteArray)
  | directory
  | link (target : String)
  deriving Inhabited

/-- Entries with their places, which are the names on the way from the root, and the place from
which relative paths start. -/
structure FileTree where
  workingPlace : List String
  entries : List (List String × FileTree.Entry)

namespace FileTree

/-- The entry at a place. The root is a directory. -/
def get? (t : FileTree) (place : List String) : Option Entry :=
  if place = [] then some .directory
  else (t.entries.find? fun entry => entry.1 = place).map Prod.snd

/-- The place where a path starts. -/
def startOf (t : FileTree) (path : String) : List String :=
  if Path.isAbsolute path then [] else t.workingPlace

/-- The tree with an entry at a place, in place of the one that was there. -/
def put (t : FileTree) (place : List String) (e : Entry) : FileTree :=
  { t with entries := (place, e) :: t.entries }

/-- A tree without entries but for the directory from which relative paths start. -/
def empty (workingPlace : List String) : FileTree where
  workingPlace := workingPlace
  entries := (List.range (workingPlace.length + 1)).map fun n => (workingPlace.take n, .directory)

/-! ## Following paths -/

/-- The number of links that are followed on one path. -/
def maxLinks : Nat := 40

/-- The number of bytes that a name may have. -/
def maxName : Nat := 255

/-- The number of bytes that a path may have. -/
def maxPath : Nat := 4095

/-- Follows steps from a place: the place where they end, and what is there, which is no link. The
last step may end where nothing is. At most `links` links are followed. If the steps are to end at
a file, which may still have to be made, no slash may follow its name. -/
def walk (t : FileTree) (atFile : Bool) (links : Nat) (place : List String) :
    List String → Except FileFailure (List String × Option Entry)
  | [] => .ok (place, t.get? place)
  | step :: rest =>
    match t.get? place with
    | some .directory =>
      if step = "" ∨ step = "." then walk t atFile links place rest
      else if step = ".." then walk t atFile links place.dropLast rest
      else if atFile ∧ rest = [""] then .error .isDirectory
      else if maxName < step.utf8ByteSize then .error .nameTooLong
      else
        match t.get? (place ++ [step]) with
        | some (.link target) =>
          match links with
          | 0 => .error .tooManyLinks
          | links + 1 =>
            let place := if Path.isAbsolute target then [] else place
            walk t atFile links place (Path.steps target ++ rest)
        | _ => walk t atFile links (place ++ [step]) rest
    | some _ => .error .notDirectory
    | none => .error .notFound
termination_by steps => (links, steps.length)

/-- Where a path leads, and what is there. -/
def locate (t : FileTree) (atFile : Bool) (path : String) :
    Except FileFailure (List String × Option Entry) :=
  if path = "" then .error .notFound
  else if path.toList.contains '\x00' then .error .zeroInPath
  else if maxPath < path.utf8ByteSize then .error .nameTooLong
  else t.walk atFile maxLinks (t.startOf path) (Path.steps path)

/-- The file system that a tree describes. -/
def fileSystem (t : FileTree) : FileSystem := fun path =>
  match t.locate false path with
  | .error cause => .missing cause
  | .ok (_, none) => .missing .notFound
  | .ok (place, some (.file bytes)) => .file (Path.ofNames place) bytes
  | .ok _ => .directory

/-! ## Writing -/

/-- The tree with bytes in the file at a path. The file is made if it is not there; the directory it
is in has to be there. -/
def write (t : FileTree) (path : String) (bytes : ByteArray) : Except FileFailure FileTree :=
  match t.locate true path with
  | .error cause => .error cause
  | .ok (place, none) => .ok (t.put place (.file bytes))
  | .ok (place, some (.file _)) => .ok (t.put place (.file bytes))
  | .ok _ => .error .isDirectory

/-- Follows steps from a place and makes the directories that are not there: the tree with them, and
the place where the steps end. -/
def makeDirectories (t : FileTree) (place : List String) :
    List String → Except FileFailure (FileTree × List String)
  | [] => .ok (t, place)
  | step :: rest =>
    match t.walk false maxLinks place [step] with
    | .error cause => .error cause
    | .ok (there, some .directory) => makeDirectories t there rest
    | .ok (_, some _) => .error .alreadyExists
    | .ok (there, none) =>
      if there = place ++ [step] then makeDirectories (t.put there .directory) there rest
      else .error .alreadyExists

/-- The tree with an entry at a path and with all directories on the way. What is there already is
kept, but for a file that a file replaces. -/
def add (t : FileTree) (path : String) (e : Entry) : Except FileFailure FileTree := do
  let steps := Path.steps path
  match e with
  | .directory => return (← t.makeDirectories (t.startOf path) steps).1
  | .file bytes => (← t.makeDirectories (t.startOf path) steps.dropLast).1.write path bytes
  | .link target =>
    let (t, place) ← t.makeDirectories (t.startOf path) steps.dropLast
    let place := place ++ steps.getLast?.toList
    match t.get? place with
    | none => return t.put place (.link target)
    | some _ => .error .alreadyExists

end FileTree

end RobotScript
