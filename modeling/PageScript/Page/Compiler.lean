import PageScript.Page.Gate
import PageScript.Page.Handle

/-!
# Compiling pages

A request for a page goes through the gate, takes a snapshot of the catalog, projects the page,
compiles it and loads it. Whatever the outcome, the gate is as before afterwards, and the host has
changed only if a unit was loaded.
-/

namespace PageScript

/-- What requests for pages share. -/
structure Session (κ : Type) where
  deployment : Deployment κ := {}
  catalog : Catalog := {}
  gate : Gate

/-- What is known of a page before it is loaded. -/
inductive Draft where
  | failed (dependencies : List String) (failure : PageFailure)
  | compiled (dependencies : List String) (page : GeneratedPage) (artifact : Artifact)

namespace Draft

variable {κ ω : Type}

/-- Projects and compiles a page against a snapshot. -/
def ofPage (site : Site ω) (settings : PageSettings) (snapshot : Snapshot) (path : String) :
    Site.Action ω Draft := do
  let projection ← site.project settings.retry path snapshot.components
  match projection.result with
  | .fatal message => return .failed projection.dependencies (.fatal message)
  | .diagnostics list => return .failed projection.dependencies (.markup list)
  | .success page =>
    let compiled : StateM ω (Except CompileError Artifact) :=
      page.compile site.cancelled settings.compiler snapshot.references
    match ← compiled with
    | .error .cancelled => throw .cancelled
    | .error (.diagnostics list) => return .failed projection.dependencies (.compilation list)
    | .ok artifact =>
      site.check
      return .compiled projection.dependencies page artifact

/-- Loads a page that has been compiled. -/
def finish (deployment : Deployment κ) (settings : PageSettings) (path : String) :
    Draft → Except PageError PageHandle × Deployment κ
  | failed dependencies failure =>
    (.ok { path, dependencies, outcome := .failed failure }, deployment)
  | compiled dependencies page artifact =>
    let fresh : Loader := { limits := settings.limits }
    match fresh.load deployment page.path artifact page.className with
    | (.error error, _, deployment) => (.error error, deployment)
    | (.ok entry, loader, deployment) =>
      let outcome := match entry with
        | some entry => .loaded entry
        | none => .failed (.typeNotFound page.className)
      (.ok { path, dependencies, outcome, warnings := artifact.warnings, loader := some loader },
        deployment)

end Draft

namespace Session

variable {κ ω : Type}

/-- A request that got through the gate. -/
def produce (site : Site ω) (settings : PageSettings) (session : Session κ) (path : String) :
    StateM ω (Except PageError PageHandle × Session κ) := do
  let (snapshot, catalog) := session.catalog.snapshot session.deployment.host
  let session := { session with catalog }
  match ← (Draft.ofPage site settings snapshot path).run with
  | .error error => return (.error error, session)
  | .ok draft =>
    let (result, deployment) := draft.finish session.deployment settings path
    return (result, { session with deployment })

/-- A request for the page at `path`. There is no answer yet if the request has to wait for another
one; it can then be made again. -/
def compile (site : Site ω) (settings : PageSettings) (session : Session κ) (path : String) :
    StateM ω (Option (Except PageError PageHandle) × Session κ) := do
  if ← site.cancelled then return (some (.error .cancelled), session)
  match Path.normalize path with
  | .error cause => return (some (.error (.file path cause)), session)
  | .ok path =>
    match session.gate.attempt path with
    | .refused => return (some (.error .compilationInProgress), session)
    | .wait =>
      if ← site.cancelled then return (some (.error .cancelled), session)
      else return (none, session)
    | .granted claim gate =>
      let (result, session) ← produce site settings { session with gate } path
      return (some result, { session with gate := session.gate.release claim })

end Session

end PageScript
