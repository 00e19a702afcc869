import PageScript.Settings

/-!
# Compile gates

A gate keeps compilations apart. Under the exclusive policy one caller at a time gets through and
others are refused; under the other policy callers for different pages pass freely and a caller for
a page that is being compiled has to wait.
-/

namespace PageScript

structure Gate where
  policy : Concurrency
  /-- Someone holds an exclusive gate. -/
  isHeld : Bool := false
  /-- Pages that are being compiled. -/
  paths : List String := []
  deriving DecidableEq, Repr, Inhabited

namespace Gate

/-- What a caller who got through holds: the whole gate or one page. -/
inductive Claim where
  | all
  | path (path : String)
  deriving DecidableEq, Repr, Inhabited

/-- The answer to a caller. -/
inductive Attempt where
  | granted (claim : Claim) (gate : Gate)
  | refused
  | wait
  deriving DecidableEq, Repr, Inhabited

def ofPolicy (policy : Concurrency) : Gate := { policy }

def attempt (gate : Gate) (path : String) : Attempt :=
  match gate.policy with
  | .exclusive => if gate.isHeld then .refused else .granted .all { gate with isHeld := true }
  | .perPath =>
    if gate.paths.contains path then .wait
    else .granted (.path path) { gate with paths := path :: gate.paths }

def release (gate : Gate) : Claim → Gate
  | .all => { gate with isHeld := false }
  | .path path => { gate with paths := gate.paths.filter (· ≠ path) }

def isBusy (gate : Gate) : Bool := gate.isHeld || !gate.paths.isEmpty

end Gate

end PageScript
