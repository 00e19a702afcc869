import PageScript.Bytes
import PageScript.Path
import PageScript.Table

/-!
# Files in memory

A store of files in which every spelling of a path reaches the same file. A path without normal form
is a name of its own, read with slashes for backslashes.
-/

namespace PageScript

structure FileStore where
  files : Table Bytes := {}
  deriving Repr, Inhabited

namespace FileStore

def empty : FileStore := {}

/-- The name under which a path is kept. -/
def key (path : String) : String :=
  match Path.normalize path with
  | .ok normal => normal
  | .error _ => String.ofList (Path.unify path.toList)

def insert (store : FileStore) (path : String) (content : Bytes) : FileStore :=
  ⟨store.files.insert (key path) content⟩

def remove (store : FileStore) (path : String) : FileStore := ⟨store.files.erase (key path)⟩

def get? (store : FileStore) (path : String) : Option Bytes := store.files.get? (key path)

/-- Removes a file and tells what it held. -/
def take (store : FileStore) (path : String) : Option Bytes × FileStore :=
  (store.get? path, store.remove path)

def contains (store : FileStore) (path : String) : Bool := (store.get? path).isSome

def size (store : FileStore) : Nat := store.files.size

def read (store : FileStore) (path : String) : Except FileError Bytes :=
  match store.get? path with
  | some content => .ok content
  | none => .error (.notFound (key path))

def ofList (files : List (String × Bytes)) : FileStore :=
  files.foldl (fun store (path, content) ↦ store.insert path content) empty

end FileStore

end PageScript
