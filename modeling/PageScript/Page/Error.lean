import PageScript.Files.Error
import PageScript.LoadedModule
import PageScript.Rendering

/-!
# Page errors

What ends a request for a page at once. Mistakes in a page itself are no errors in this sense: they
are reported by the handle of the page.
-/

namespace PageScript

inductive PageError where
  | cancelled
  | file (path : String) (cause : FileError)
  | fileUnavailable (path : String) (attempts : Nat) (cause : FileError)
  | invalidEncoding (path : String)
  | compilationInProgress
  | foreignModule (unit entryUnit : String)
  | load (error : LoadError)
  | unloaded (unit : String)
  | rendering (error : RenderError)
  /-- More files than the site said it serves. -/
  | tooManyFiles (limit : Nat)
  deriving DecidableEq

namespace PageError

def message : PageError → String
  | cancelled => "operation was cancelled"
  | file path cause => s!"could not read '{path}': {cause.message}"
  | fileUnavailable path attempts cause =>
    s!"could not open file '{path}' after {attempts} attempts: {cause.message}"
  | invalidEncoding path => s!"'{path}' is not valid UTF-8"
  | compilationInProgress => "compilation cannot be parallel"
  | foreignModule unit entryUnit =>
    s!"entry point belongs to execution unit '{entryUnit}', not to '{unit}'"
  | load error => s!"could not load compiled page: {error.message}"
  | unloaded unit => s!"execution unit '{unit}' has been unloaded"
  | rendering error => s!"page rendering failed: {error.message}"
  | tooManyFiles limit => s!"more than {limit} files"

/-- The name of the cause, after that of the part it lies in. -/
def kind : PageError → String
  | cancelled => "Cancelled"
  | file _ cause => "File." ++ cause.kind
  | fileUnavailable _ _ _ => "FileUnavailable"
  | invalidEncoding _ => "InvalidEncoding"
  | compilationInProgress => "CompilationInProgress"
  | foreignModule _ _ => "ForeignModule"
  | load error => "Load." ++ error.kind
  | unloaded _ => "Unloaded"
  | rendering error => "Runtime." ++ error.kind
  | tooManyFiles _ => "TooManyFiles"

end PageError

end PageScript
