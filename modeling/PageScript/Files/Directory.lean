import PageScript.Bytes
import PageScript.Path

/-!
# Files in a directory

A tree of files on disk that is served from one directory down. Writing a file makes every directory
that its path goes through. A path is looked up segment by segment, and the first segment that leads
nowhere says why the file cannot be read.
-/

namespace PageScript

structure Directory where
  root : String
  /-- Directories other than the root, by their segments below it. -/
  directories : List (List Path.Segment) := []
  /-- Files by their segments below the root; of several entries for one place the first counts. -/
  files : List (List Path.Segment × Bytes) := []
  deriving Repr, Inhabited

namespace Directory

inductive Node where
  | file (content : Bytes)
  | directory
  deriving DecidableEq, Repr, Inhabited

/-- Why a path leads nowhere. -/
inductive Obstacle where
  | missing
  /-- A file stands where the path needs a directory. -/
  | notDirectory
  | nameTooLong
  /-- No path on disk can hold the character with code zero. -/
  | nullCharacter
  deriving DecidableEq, Repr, Inhabited

def Obstacle.error (path : String) : Obstacle → FileError
  | missing => .notFound path
  | notDirectory => .io path "Not a directory (os error 20)"
  | nameTooLong => .io path "File name too long (os error 36)"
  | nullCharacter => .io path "file name contained an unexpected NUL byte"

/-- The most bytes that a segment can have. -/
def nameLimit : Nat := 255

/-- A path on disk has fewer bytes than this. -/
def pathLimit : Nat := 4096

def byteCount (text : List Char) : Nat := (String.ofList text).utf8ByteSize

/-! ## Looking up -/

def node? (tree : Directory) (place : List Path.Segment) : Option Node :=
  match tree.files.lookup place with
  | some content => some (.file content)
  | none => if place = [] ∨ place ∈ tree.directories then some .directory else none

/-- Walks from `place` on along the given segments. -/
def walk (tree : Directory) : List Path.Segment → List Path.Segment → Except Obstacle Node
  | place, segments =>
    match tree.node? place, segments with
    | none, _ => .error .missing
    | some node, [] => .ok node
    | some (.file _), _ :: _ => .error .notDirectory
    | some .directory, segment :: rest =>
      if nameLimit < byteCount segment then .error .nameTooLong
      else walk tree (place ++ [segment]) rest

/-- What stands at the segments below the root. A path that cannot be one is refused before anything
is looked up. -/
def find (tree : Directory) (segments : List Path.Segment) : Except Obstacle Node :=
  if segments.any fun segment ↦ segment.any fun c ↦ c.toNat = 0 then .error .nullCharacter
  else if pathLimit ≤ byteCount (Path.below tree.root.toList segments) then
    .error .nameTooLong
  else tree.walk [] segments

/-! ## Serving files -/

def read (tree : Directory) (path : String) : Except FileError Bytes := do
  let segments := Path.segments (← Path.normalize path)
  match tree.find segments with
  | .ok (.file content) => return content
  | .ok .directory => throw (.invalidPath path "is a directory")
  | .error obstacle => throw (obstacle.error path)

/-- What a path leads to, if it leads somewhere. -/
def get? (tree : Directory) (path : String) : Option Node :=
  match Path.normalize path with
  | .ok normal => (tree.find (Path.segments normal)).toOption
  | .error _ => none

def contains (tree : Directory) (path : String) : Bool := (tree.get? path).isSome

def isFile (tree : Directory) (path : String) : Bool :=
  match tree.get? path with
  | some (.file _) => true
  | _ => false

/-! ## Writing files

Paths are here those of the disk, on which only the slash and the segments `.` and `..` are
special. -/

/-- Whether a segment says where to go and names nothing itself. -/
def isStep (segment : Path.Segment) : Bool :=
  segment = [] || segment = ['.'] || segment = ['.', '.']

/-- Goes from `place` on along the given segments and makes the directories that are missing. The
place at the end is missing if the way leaves the root. -/
def descend (tree : Directory) (place : List Path.Segment) :
    List Path.Segment → Directory × Option (List Path.Segment)
  | [] => (tree, some place)
  | segment :: rest =>
    if !isStep segment then
      let place := place ++ [segment]
      descend { tree with directories := place :: tree.directories } place rest
    else if segment ≠ ['.', '.'] then descend tree place rest
    else if place = [] then (tree, none)
    else descend tree place.dropLast rest

/-- The tree with a file in place of any old one. A path that leaves the root or ends in no name
adds no file. -/
def write (tree : Directory) (path : String) (content : Bytes) : Directory :=
  let segments := Path.cut path.toList
  let name := segments.getLastD []
  match tree.descend [] segments.dropLast with
  | (tree, some place) =>
    if isStep name then tree
    else { tree with files := (place ++ [name], content) :: tree.files }
  | (tree, none) => tree

/-- The tree below `root` with the given files, written one after the other. -/
def ofFiles (root : String) (files : List (String × Bytes)) : Directory :=
  files.foldl (fun tree (path, content) ↦ tree.write path content) { root }

end Directory

end PageScript
