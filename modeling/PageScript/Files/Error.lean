/-!
# File errors

Why a file could not be read. Only an input or output failure may pass by itself, so only that one
is worth another attempt.
-/

namespace PageScript

inductive FileError where
  | notFound (path : String)
  | permissionDenied (path : String)
  | invalidPath (path reason : String)
  | io (path message : String)
  deriving DecidableEq, Repr, Inhabited

namespace FileError

def message : FileError → String
  | notFound path => s!"Path not found: {path}"
  | permissionDenied path => s!"Permission denied: {path}"
  | invalidPath path reason => s!"Invalid path '{path}': {reason}"
  | io path text => s!"IO error on '{path}': {text}"

/-- The name of the cause. -/
def kind : FileError → String
  | notFound _ => "NotFound"
  | permissionDenied _ => "PermissionDenied"
  | invalidPath _ _ => "InvalidPath"
  | io _ _ => "Io"

def isTransient : FileError → Bool
  | io _ _ => true
  | _ => false

/-- The error for a failure of the named kind; the kinds without an error of their own are failures
of input or output. -/
def ofKind (kind path text : String) : FileError :=
  match kind with
  | "NotFound" => notFound path
  | "PermissionDenied" => permissionDenied path
  | _ => io path text

end FileError

end PageScript
