import PageScript.Files.Store

/-!
# Shared files

A store in memory can have several holders. Each of them has a handle, and a copy of a handle leads
to the same store, so that all its holders see what one of them changes.
-/

namespace PageScript

namespace FileStore

inductive Edit where
  | insert (path : String) (content : Bytes)
  | remove (path : String)
  deriving DecidableEq, Repr, Inhabited

/-- The path as it was given. -/
def Edit.path : Edit → String
  | insert path _ => path
  | remove path => path

def apply (store : FileStore) : Edit → FileStore
  | .insert path content => store.insert path content
  | .remove path => (store.take path).2

end FileStore

/-- Stores, and for each handle the number of the store that it leads to. -/
structure SharedFiles where
  stores : List FileStore
  handles : List Nat
  handles_lt : ∀ number ∈ handles, number < stores.length

namespace SharedFiles

/-- No store, and nobody who holds one. -/
def fresh : SharedFiles := ⟨[], [], List.forall_mem_nil _⟩

inductive Call where
  /-- Makes an empty store, with a handle. -/
  | create
  | copy (handle : Nat)
  | change (handle : Nat) (edit : FileStore.Edit)
  deriving DecidableEq, Repr, Inhabited

/-- The store that a handle leads to. -/
def store? (shared : SharedFiles) (handle : Nat) : Option FileStore :=
  shared.handles[handle]?.bind (shared.stores[·]?)

/-- A new handle gets the next number; a call through a handle that nobody has does nothing. -/
def call (shared : SharedFiles) : Call → SharedFiles
  | .create => {
      stores := shared.stores ++ [.empty]
      handles := shared.handles ++ [shared.stores.length]
      handles_lt := by
        intro number hnumber
        rw [List.length_append, List.length_singleton]
        obtain hnumber | hnumber := List.mem_append.mp hnumber
        · exact Nat.lt_succ_of_lt (shared.handles_lt number hnumber)
        · exact Nat.lt_succ_of_le (Nat.le_of_eq (List.mem_singleton.mp hnumber)) }
  | .copy handle => {
      stores := shared.stores
      handles := shared.handles ++ shared.handles[handle]?.toList
      handles_lt := by
        intro number hnumber
        obtain hnumber | hnumber := List.mem_append.mp hnumber
        · exact shared.handles_lt number hnumber
        · exact shared.handles_lt number (List.mem_of_getElem? (Option.mem_toList.mp hnumber)) }
  | .change handle edit => {
      stores :=
        match shared.handles[handle]? with
        | some number => shared.stores.modify number (·.apply edit)
        | none => shared.stores
      handles := shared.handles
      handles_lt := by
        intro number hnumber
        split
        · rw [List.length_modify]
          exact shared.handles_lt number hnumber
        · exact shared.handles_lt number hnumber }

def run (calls : List Call) : SharedFiles := calls.foldl call fresh

end SharedFiles

end PageScript
