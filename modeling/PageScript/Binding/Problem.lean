import PageScript.Binding.Symbols
import PageScript.Diagnostic

/-!
# Problems of binding

What can be wrong with the names in a script. All problems but one are errors: a local that is never
rendered only deserves a warning.
-/

namespace PageScript.Binding

inductive Problem where
  | duplicateClass (name : String)
  | unknownName (name : String)
  | unknownType (name module : String)
  | ambiguousType (name first second : String)
  | notComponent (type : TypeName)
  | duplicateLocal (name : String)
  | notSettable (type : TypeName) (property : String)
  | notDeclared (name : String)
  | neverRendered (name : String)
  deriving DecidableEq, Repr, Inhabited

namespace Problem

def id : Problem → String
  | duplicateClass _ => "KP0101"
  | unknownName _ => "KP0246"
  | unknownType _ _ => "KP0234"
  | ambiguousType _ _ _ => "KP0104"
  | notComponent _ => "KP0144"
  | duplicateLocal _ => "KP0128"
  | notSettable _ _ => "KP0117"
  | notDeclared _ => "KP0103"
  | neverRendered _ => "KP0168"

def severity : Problem → Severity
  | neverRendered _ => .warning
  | _ => .error

def message : Problem → String
  | duplicateClass name => s!"The module already contains a definition for '{name}'"
  | unknownName name =>
    s!"The type or namespace name '{name}' could not be found (are you missing a reference?)"
  | unknownType name module =>
    s!"The type name '{name}' does not exist in the namespace '{module}' " ++
      "(are you missing a reference?)"
  | ambiguousType name first second =>
    s!"'{name}' is an ambiguous reference between '{first}.{name}' and '{second}.{name}'"
  | notComponent type =>
    s!"Cannot create an instance of the non-component type '{type.display}'"
  | duplicateLocal name =>
    s!"A local variable named '{name}' is already defined in this scope"
  | notSettable type property =>
    s!"'{type.display}' does not contain a settable property named '{property}'"
  | notDeclared name => s!"The name '{name}' does not exist in the current context"
  | neverRendered name => s!"The variable '{name}' is declared but never rendered"

end Problem

structure Finding where
  problem : Problem
  location : Location
  deriving DecidableEq, Repr, Inhabited

namespace Finding

def diagnostic (finding : Finding) : Diagnostic :=
  { id := finding.problem.id
    message := finding.problem.message
    severity := finding.problem.severity
    location := some finding.location }

def isError (finding : Finding) : Bool := finding.problem.severity = .error

end Finding

end PageScript.Binding
