import PageScript.Page.Unit

/-!
# Page handles

What a request for a page gives: an entry point, or the reason why there is none. In both cases the
handle knows the files that were looked at, so that these can be watched, and it owns the unit that
was loaded, if any.
-/

namespace PageScript

inductive PageFailure where
  /-- The generator found problems in the markup. -/
  | markup (diagnostics : List Diagnostic)
  | fatal (message : String)
  /-- The generated scripts did not compile. -/
  | compilation (diagnostics : List Diagnostic)
  | typeNotFound (className : String)
  deriving DecidableEq, Repr, Inhabited

namespace PageFailure

def diagnostics? : PageFailure → Option (List Diagnostic)
  | markup diagnostics => some diagnostics
  | compilation diagnostics => some diagnostics
  | _ => none

/-- What a client is sent: diagnostics as JSON, anything else as plain text. -/
def payload : PageFailure → String
  | markup diagnostics => Diagnostics.payload diagnostics
  | compilation diagnostics => Diagnostics.payload diagnostics
  | fatal message => message
  | typeNotFound _ => "type not found"

end PageFailure

inductive PageHandle.Outcome where
  | loaded (entry : EntryPoint)
  | failed (failure : PageFailure)
  deriving DecidableEq, Repr, Inhabited

structure PageHandle where
  path : String
  dependencies : List String
  outcome : PageHandle.Outcome
  warnings : List Diagnostic := []
  loader : Option Loader := none
  deriving DecidableEq, Repr, Inhabited

namespace PageHandle

variable {κ : Type}

def entry? (handle : PageHandle) : Option EntryPoint :=
  match handle.outcome with
  | .loaded entry => some entry
  | .failed _ => none

def failure? (handle : PageHandle) : Option PageFailure :=
  match handle.outcome with
  | .loaded _ => none
  | .failed failure => some failure

def isSuccess (handle : PageHandle) : Bool := handle.entry?.isSome

/-- Unloads the unit of a handle. Doing it again does nothing. -/
def dispose (handle : PageHandle) (deployment : Deployment κ) :
    Except PageError Unit × PageHandle × Deployment κ :=
  match handle.loader with
  | none => (.ok (), handle, deployment)
  | some loader =>
    match loader.unload deployment handle.entry? with
    | (.ok _, _, deployment) => (.ok (), { handle with loader := none }, deployment)
    | (.error error, _, _) => (.error error, handle, deployment)

/-- The deployment without the unit of a handle that is given up. -/
def discard (handle : PageHandle) (deployment : Deployment κ) : Deployment κ :=
  match handle.loader with
  | none => deployment
  | some loader => loader.discard deployment

end PageHandle

end PageScript
