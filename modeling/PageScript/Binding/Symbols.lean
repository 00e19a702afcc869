import PageScript.Table

/-!
# Symbols of referenced modules

What the compiler knows of a module that a script may use: the names of its types, which of them are
components, and which properties of these a script may set.
-/

namespace PageScript

/-- A type of a module. -/
structure TypeName where
  module : String
  name : String
  deriving DecidableEq, Repr, Inhabited

def TypeName.display (type : TypeName) : String := s!"{type.module}.{type.name}"

structure TypeSymbol where
  /-- Whether instances can be created. -/
  isComponent : Bool
  /-- Properties that can be set, as a set of names. -/
  assignable : Table Unit := {}
  deriving DecidableEq, Repr

structure ModuleSymbols where
  name : String
  types : Table TypeSymbol := {}
  deriving DecidableEq, Repr

/-- Names as a set. -/
def Table.ofNames (names : List String) : Table Unit := Table.ofList (names.map (·, ()))

namespace ModuleSymbols

def ofTypes (name : String) (types : List (String × TypeSymbol)) : ModuleSymbols :=
  { name, types := Table.ofList types }

end ModuleSymbols

/-- The modules that a compilation may refer to. -/
abbrev References := List ModuleSymbols

namespace References

/-- The first module of a name counts. -/
def find (references : References) (name : String) : Option ModuleSymbols :=
  references.find? fun module ↦ module.name = name

end References

end PageScript
