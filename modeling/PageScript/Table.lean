/-!
# Tables

Finite maps from names to values, kept in increasing order of the names. A name has at most one
entry: writing it again replaces its value.
-/

namespace PageScript

structure Table (α : Type) where
  entries : List (String × α) := []
  deriving BEq, DecidableEq, Repr

namespace Table

variable {α : Type}

def empty : Table α := {}

def insertEntry (name : String) (value : α) : List (String × α) → List (String × α)
  | [] => [(name, value)]
  | (n, v) :: rest =>
    if name = n then (name, value) :: rest
    else if name < n then (name, value) :: (n, v) :: rest
    else (n, v) :: insertEntry name value rest

def insert (table : Table α) (name : String) (value : α) : Table α :=
  ⟨insertEntry name value table.entries⟩

def erase (table : Table α) (name : String) : Table α :=
  ⟨table.entries.filter fun entry ↦ entry.1 ≠ name⟩

def get? (table : Table α) (name : String) : Option α := table.entries.lookup name

def contains (table : Table α) (name : String) : Bool := (table.get? name).isSome

def size (table : Table α) : Nat := table.entries.length

def names (table : Table α) : List String := table.entries.map Prod.fst

/-- Later entries replace earlier ones of the same name. -/
def ofList (entries : List (String × α)) : Table α :=
  entries.foldl (fun table (name, value) ↦ table.insert name value) empty

end Table

end PageScript
