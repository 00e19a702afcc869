import PageScript.Bytes
import PageScript.Cancellation
import PageScript.Diagnostic
import PageScript.Page.Catalog
import PageScript.Page.Error
import PageScript.Text.Blank

/-!
# Sites

What the page compiler needs from outside: files, a generator that turns markup into scripts, time,
and word of cancellation. Every request may change the world `ω` behind the site. Files are read
with as many attempts as the settings allow while failures may pass by themselves.
-/

namespace PageScript

/-- What the generator makes of one file. -/
structure GeneratedFile where
  source : String
  /-- Whether the file says that it is a page. -/
  hasDirective : Bool
  /-- Files it refers to, as written. -/
  dependencies : List String := []
  diagnostics : List Diagnostic := []
  deriving DecidableEq, Repr, Inhabited

structure Site (ω : Type) where
  read : String → StateM ω (Except FileError Bytes)
  /-- Whether the running request has been cancelled. -/
  cancelled : CancelCheck ω
  /-- Lets a number of milliseconds pass. -/
  pause : Nat → StateM ω Unit
  /-- Makes a script of the markup of a file. -/
  generate : String → String → List ComponentMetadata → StateM ω GeneratedFile
  /-- A bound on the number of different files that can be read. -/
  fileBound : ω → Nat

namespace Site

variable {ω : Type}

abbrev Action (ω : Type) := ExceptT PageError (StateM ω)

def check (site : Site ω) : Action ω Unit := stopIfCancelled site.cancelled .cancelled

def sleep (site : Site ω) (duration : Nat) : Action ω Unit := do
  site.pause duration
  site.check

def decode (path : String) (bytes : Bytes) : Except PageError String :=
  match Text.Utf8.decode? bytes with
  | some text => .ok text
  | none => .error (.invalidEncoding path)

/-- One attempt to read a file and `more` further ones, of `attempts` in all. -/
def readWithin (site : Site ω) (path : String) (backoff attempts : Nat) : Nat → Action ω String
  | 0 => do
    site.check
    match ← site.read path with
    | .ok bytes => decode path bytes
    | .error cause =>
      if cause.isTransient then throw (.fileUnavailable path attempts cause)
      else throw (.file path cause)
  | more + 1 => do
    site.check
    match ← site.read path with
    | .ok bytes => decode path bytes
    | .error cause =>
      if cause.isTransient then do
        site.sleep backoff
        site.readWithin path backoff attempts more
      else throw (.file path cause)

/-- The text of a file. -/
def readText (site : Site ω) (retry : RetrySettings) (path : String) : Action ω String :=
  let attempts := max 1 retry.maxAttempts
  site.readWithin path retry.backoff attempts (attempts - 1)

/-- The text of a file without blanks around it. -/
def readMarkup (site : Site ω) (retry : RetrySettings) (path : String) : Action ω String := do
  return Text.trimmed (← site.readText retry path)

end Site

end PageScript
