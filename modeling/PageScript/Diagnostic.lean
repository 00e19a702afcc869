import PageScript.Json.Reader

/-!
# Diagnostics

A reported problem: a stable identifier, a message, and the place it was found at. A list of
diagnostics travels as JSON, its payload.
-/

namespace PageScript

inductive Severity where
  | error
  | warning
  deriving DecidableEq, Repr, Inhabited

/-- A place in a file; lines and columns count from one. -/
structure Location where
  path : String
  line : Nat
  column : Nat
  deriving DecidableEq, Repr, Inhabited

structure Diagnostic where
  id : String
  message : String
  severity : Severity
  location : Option Location := none
  deriving DecidableEq, Repr, Inhabited

namespace Severity

def name : Severity → String
  | error => "error"
  | warning => "warning"

def ofName? : String → Option Severity
  | "error" => some error
  | "warning" => some warning
  | _ => none

end Severity

namespace Location

def display (location : Location) : String :=
  s!"{location.path}({location.line},{location.column})"

def toJson (location : Location) : Json :=
  .object [
    ("path", .text location.path),
    ("line", .natural location.line),
    ("column", .natural location.column)]

def ofJson? (json : Json) : Option Location := do
  let fields ← json.record? ["path", "line", "column"]
  return {
    path := ← (← fields.lookup "path").text?
    line := ← (← fields.lookup "line").naturalBelow? UInt32.size
    column := ← (← fields.lookup "column").naturalBelow? UInt32.size }

end Location

namespace Diagnostic

def error (id message : String) : Diagnostic := { id, message, severity := .error }

def warning (id message : String) : Diagnostic := { id, message, severity := .warning }

def locatedAt (diagnostic : Diagnostic) (location : Location) : Diagnostic :=
  { diagnostic with location := some location }

def isError (diagnostic : Diagnostic) : Bool := diagnostic.severity = .error

def display (diagnostic : Diagnostic) : String :=
  let body := s!"{diagnostic.severity.name} {diagnostic.id}: {diagnostic.message}"
  match diagnostic.location with
  | some location => s!"{location.display}: {body}"
  | none => body

/-- A missing place is left out. -/
def toJson (diagnostic : Diagnostic) : Json :=
  .object ([
    ("id", .text diagnostic.id),
    ("message", .text diagnostic.message),
    ("severity", .text diagnostic.severity.name)] ++
    diagnostic.location.toList.map fun location ↦ ("location", location.toJson))

def locationOfJson? : Json → Option (Option Location)
  | .null => some none
  | json => (Location.ofJson? json).map some

def ofJson? (json : Json) : Option Diagnostic := do
  let fields ← json.record? ["id", "message", "severity", "location"]
  let location ← match fields.lookup "location" with
    | none => some none
    | some value => locationOfJson? value
  return {
    id := ← (← fields.lookup "id").text?
    message := ← (← fields.lookup "message").text?
    severity := ← (← fields.lookup "severity").alternative?.bind Severity.ofName?
    location }

end Diagnostic

namespace Diagnostics

def hasErrors (diagnostics : List Diagnostic) : Bool := diagnostics.any Diagnostic.isError

def payload (diagnostics : List Diagnostic) : String :=
  (Json.array (diagnostics.map Diagnostic.toJson)).render

def ofJson? : Json → Option (List Diagnostic)
  | .array items => items.mapM Diagnostic.ofJson?
  | _ => none

def ofPayload? (bytes : Bytes) : Option (List Diagnostic) := (Json.read? bytes).bind ofJson?

end Diagnostics

end PageScript
