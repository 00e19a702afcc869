import PageScript.Files.Error
import PageScript.Text.Blank

/-!
# Virtual paths

A path names a file below the root of a site. It is read as segments between slashes, where a
backslash is a slash, one leading tilde stands for the root, empty segments and `.` say nothing, and
`..` takes back the segment before it. The normal form is a slash in front of every segment that
still stands.
-/

namespace PageScript.Path

abbrev Segment := List Char

def slash (c : Char) : Char := if c = '\\' then '/' else c

/-- The path with slashes only. -/
def unify (path : List Char) : List Char := path.map slash

def dropTilde : List Char → List Char
  | '~' :: rest => rest
  | path => path

/-- The pieces between slashes; a path without slash is one piece. -/
def cut : List Char → List Segment
  | [] => [[]]
  | c :: rest =>
    if c = '/' then [] :: cut rest
    else match cut rest with
      | [] => [[c]]
      | piece :: pieces => (c :: piece) :: pieces

/-- Walks over the segments with those that stand on a stack, the last one on top. It fails where
`..` finds the stack empty. -/
def stand : List Segment → List Segment → Option (List Segment)
  | stack, [] => some stack
  | stack, segment :: rest =>
    if segment = [] ∨ segment = ['.'] then stand stack rest
    else if segment = ['.', '.'] then
      match stack with
      | [] => none
      | _ :: stack => stand stack rest
    else stand (segment :: stack) rest

/-- The segments that stand at the end, first one first. -/
def standing (path : List Char) : Option (List Segment) :=
  (stand [] (cut (dropTilde (unify path)))).map List.reverse

def join (segments : List Segment) : List Char := segments.flatMap ('/' :: ·)

def normalize (path : String) : Except FileError String :=
  match standing path.toList with
  | none => .error (.invalidPath path "escapes the provider root")
  | some [] => .error (.invalidPath path "does not name a file")
  | some segments => .ok (String.ofList (join segments))

/-! ## Parts of a path -/

/-- The path up to its last slash, and the root for a file that lies there. -/
def parentOf (path : List Char) : List Char :=
  match path.reverse.dropWhile (· ≠ '/') with
  | _ :: before :: more => (before :: more).reverse
  | _ => ['/']

def parent (path : String) : String := String.ofList (parentOf path.toList)

/-- What stands behind the last slash. -/
def fileName (path : String) : String :=
  String.ofList (path.toList.reverse.takeWhile (· ≠ '/')).reverse

/-! ## References between files -/

def isRooted : List Char → Bool
  | '/' :: _ => true
  | '~' :: _ => true
  | '\\' :: _ => true
  | _ => false

/-- The path that `reference` means inside the file `source`: a rooted one is taken from the root,
any other from the directory of the file. -/
def resolve (source reference : String) : Except FileError String :=
  let reference := Text.trim reference.toList
  if isRooted reference then normalize (String.ofList reference)
  else normalize (String.ofList (parentOf source.toList ++ '/' :: reference))

/-! ## Paths on disk -/

/-- A path of segments below a directory, whose name may end in a slash. -/
def below (directory : List Char) : List Segment → List Char
  | [] => directory
  | segment :: rest =>
    match directory.getLast? with
    | none | some '/' => directory ++ segment ++ join rest
    | some _ => directory ++ join (segment :: rest)

/-- The segments of a path in normal form. -/
def segments (normal : String) : List Segment := (cut normal.toList).filter (· ≠ [])

/-- Where a virtual path lies below the directory `root`. -/
def physical (root path : String) : Except FileError String := do
  let normal ← normalize path
  return String.ofList (below root.toList (segments normal))

end PageScript.Path
