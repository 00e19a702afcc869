import PageScript.Binding.Symbols
import PageScript.Diagnostic

/-!
# Bound modules

Classes in which every name has been replaced by what it stands for: types by the module that holds
them, locals by numbered slots.
-/

namespace PageScript

inductive BoundStatement.Op where
  | write (text : String)
  | create (type : TypeName) (slot : Nat)
  | assign (slot : Nat) (property value : String)
  | render (slot : Nat)
  | embed (className : String)
  deriving DecidableEq, Repr, Inhabited

structure BoundStatement where
  op : BoundStatement.Op
  /-- Where the statement stands, by the line map of its script. -/
  location : Location
  deriving DecidableEq, Repr, Inhabited

structure BoundClass where
  name : String
  base : TypeName
  slotCount : Nat
  body : List BoundStatement
  /-- Number of the script that declares the class. -/
  unit : Nat
  deriving DecidableEq, Repr, Inhabited

structure BoundModule where
  classes : List BoundClass
  warnings : List Diagnostic := []
  deriving DecidableEq, Repr, Inhabited

end PageScript
