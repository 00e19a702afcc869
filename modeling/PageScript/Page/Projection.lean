import PageScript.Emission
import PageScript.Naming
import PageScript.Page.Site
import PageScript.Path

/-!
# Projections

A page and all files it refers to, directly or not, are turned into scripts. Files are taken in
breadth-first order, each once; the first file with diagnostics ends the walk.
-/

namespace PageScript

/-- The scripts of a page. -/
structure GeneratedPage where
  path : String
  className : String
  generated : List SourceText
  markup : List SourceText
  deriving DecidableEq, Repr, Inhabited

inductive Projection.Result where
  | fatal (message : String)
  | diagnostics (list : List Diagnostic)
  | success (page : GeneratedPage)
  deriving DecidableEq, Repr, Inhabited

structure Projection where
  /-- The page and the files found so far, in the order in which they were found. -/
  dependencies : List String
  result : Projection.Result
  deriving DecidableEq, Repr, Inhabited

namespace Projection

variable {ω : Type}

def missingDirective : String := "the page does not contain a page directive"

/-- How far a walk has come. -/
structure Walk where
  queue : List String
  dependencies : List String
  generated : List SourceText := []
  markup : List SourceText := []
  deriving DecidableEq, Repr, Inhabited

namespace Walk

def start (root : String) : Walk := { queue := [root], dependencies := [root] }

/-- A file that is referred to; a new one joins the queue. -/
def discover (walk : Walk) (path : String) : Walk :=
  if walk.dependencies.contains path then walk
  else { walk with
    queue := walk.queue ++ [path]
    dependencies := walk.dependencies ++ [path] }

def discoverAll (walk : Walk) (source : String) : List String → Except PageError Walk
  | [] => .ok walk
  | reference :: rest =>
    match Path.resolve source reference with
    | .ok path => discoverAll (walk.discover path) source rest
    | .error cause => .error (.file reference cause)

def record (walk : Walk) (path content script : String) : Walk :=
  { walk with
    generated := walk.generated ++ [⟨Naming.generatedPath path, script⟩]
    markup := walk.markup ++ [⟨path, content⟩] }

def page (walk : Walk) (root : String) : GeneratedPage :=
  { path := root
    className := Naming.className root
    generated := walk.generated
    markup := walk.markup }

end Walk

/-- What one file does to a walk: it ends it or leads on. -/
def visit (root path content : String) (file : GeneratedFile) (walk : Walk) :
    Except PageError (Projection ⊕ Walk) :=
  if !file.diagnostics.isEmpty then .ok (.inl ⟨walk.dependencies, .diagnostics file.diagnostics⟩)
  else do
    let walk ← walk.discoverAll path file.dependencies
    if path = root && !file.hasDirective then
      return .inl ⟨walk.dependencies, .fatal missingDirective⟩
    else return .inr (walk.record path content file.source)

/-- Goes on with a walk that may read `budget` more files. -/
def walkOn (site : Site ω) (retry : RetrySettings) (components : List ComponentMetadata)
    (root : String) (limit : Nat) : Nat → Walk → Site.Action ω Projection
  | budget, walk =>
    match walk.queue, budget with
    | [], _ => return ⟨walk.dependencies, .success (walk.page root)⟩
    | _ :: _, 0 => throw (.tooManyFiles limit)
    | path :: queue, budget + 1 => do
      let content ← site.readMarkup retry path
      let file ← site.generate path content components
      match ← (visit root path content file { walk with queue } : Except _ _) with
      | .inl projection => return projection
      | .inr walk => walkOn site retry components root limit budget walk

end Projection

/-- The projection of the page at `root`. -/
def Site.project {ω : Type} (site : Site ω) (retry : RetrySettings) (root : String)
    (components : List ComponentMetadata) : Site.Action ω Projection := do
  match Path.normalize root with
  | .error cause => throw (.file root cause)
  | .ok root =>
    let limit := site.fileBound (← get)
    Projection.walkOn site retry components root limit (limit + 1) (.start root)

end PageScript
