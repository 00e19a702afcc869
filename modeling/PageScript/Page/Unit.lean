import PageScript.Compilation
import PageScript.Naming
import PageScript.Page.Error
import PageScript.Page.Projection

/-!
# Execution units

A compiled page is loaded into a unit of its own, which is registered with the host as a dynamic
module for as long as it is loaded. A loader owns at most one unit. An entry point names a class in
a unit and stops working when the unit is gone.
-/

namespace PageScript

/-- A compiled page. -/
structure Artifact where
  moduleName : String
  image : Bytes
  symbols : Option Bytes
  buildId : BuildId
  warnings : List Diagnostic

namespace GeneratedPage

def input (page : GeneratedPage) (settings : CompilerSettings) (references : References) :
    CompileInput :=
  { moduleName := Naming.moduleName page.className
    generated := page.generated
    markup := page.markup
    references, settings }

/-- Compiles all scripts of a page into one module. -/
def compile {ω : Type} (page : GeneratedPage) (check : CancelCheck ω) (settings : CompilerSettings)
    (references : References) : ExceptT CompileError (StateM ω) Artifact := do
  let compiled ← PageScript.compile check (page.input settings references)
  return {
    moduleName := Naming.moduleName page.className
    image := compiled.image
    symbols := compiled.symbols
    buildId := compiled.buildId
    warnings := compiled.warnings }

end GeneratedPage

structure ExecutionUnit where
  id : Nat
  name : String
  module : LoadedModule
  /-- Id of the unit as a module of the host. -/
  registration : Nat
  limits : LimitSettings

structure EntryPoint where
  unitId : Nat
  unitName : String
  classIndex : Nat
  className : String
  deriving DecidableEq, Repr, Inhabited

/-- A host with the units that are loaded on it. -/
structure Deployment (κ : Type) where
  host : Host κ := {}
  units : List ExecutionUnit := []
  lastUnit : Nat := 0

structure Loader where
  limits : LimitSettings
  /-- Id of the unit that the loader owns. -/
  owned : Option Nat := none
  deriving DecidableEq, Repr, Inhabited

namespace Deployment

variable {κ : Type}

def unit? (deployment : Deployment κ) (id : Nat) : Option ExecutionUnit :=
  deployment.units.find? fun unit ↦ unit.id = id

def isLoaded (deployment : Deployment κ) (entry : EntryPoint) : Bool :=
  (deployment.unit? entry.unitId).isSome

def render [Component κ] (deployment : Deployment κ) (entry : EntryPoint) :
    Except PageError String :=
  match deployment.unit? entry.unitId with
  | some unit =>
    (PageScript.render unit.module deployment.host unit.limits entry.classIndex).mapError .rendering
  | none => .error (.unloaded entry.unitName)

def removeUnit (deployment : Deployment κ) (unit : ExecutionUnit) : Deployment κ :=
  { deployment with
    host := (deployment.host.unregister unit.registration).2
    units := deployment.units.filter fun other ↦ other.id ≠ unit.id }

end Deployment

/-- A unit as a module of the host: its classes are plain types. -/
def LoadedModule.registration {κ : Type} (module : LoadedModule) (name : String) :
    Except Image.ReadError (ModuleSpec κ) := do
  let types ← (List.range module.classCount).mapM module.className
  return { name, isDynamic := true, types }

namespace Loader

variable {κ : Type}

def unit? (loader : Loader) (deployment : Deployment κ) : Option ExecutionUnit :=
  loader.owned.bind deployment.unit?

/-- Unloads the unit of a loader, and tells whether there was one. An entry point that is given must
belong to the unit. -/
def unload (loader : Loader) (deployment : Deployment κ) (entry : Option EntryPoint) :
    Except PageError Bool × Loader × Deployment κ :=
  match loader.unit? deployment with
  | none => (.ok false, loader, deployment)
  | some unit =>
    match entry.filter fun entry ↦ entry.unitId ≠ unit.id with
    | some foreign => (.error (.foreignModule unit.name foreign.unitName), loader, deployment)
    | none => (.ok true, { loader with owned := none }, deployment.removeUnit unit)

/-- The deployment without the unit of a loader that is given up. -/
def discard (loader : Loader) (deployment : Deployment κ) : Deployment κ :=
  (loader.unload deployment none).2.2

def entryPoint? (unit : ExecutionUnit) (className : String) : Option EntryPoint :=
  (unit.module.findClass className).map fun classIndex ↦
    { unitId := unit.id, unitName := unit.name, classIndex, className }

/-- A unit made of a loaded module. -/
def deploy (loader : Loader) (deployment : Deployment κ) (name : String) (module : LoadedModule)
    (spec : ModuleSpec κ) : ExecutionUnit × Loader × Deployment κ :=
  let (registration, host) := deployment.host.register spec
  let unit : ExecutionUnit := {
    id := deployment.lastUnit, name, module, registration, limits := loader.limits }
  (unit, { loader with owned := some unit.id },
    { deployment with host, units := deployment.units ++ [unit] })

/-- Loads an artifact into a new unit and looks for a class in it. The unit that the loader had is
unloaded first, and every attempt takes a new number. -/
def load (loader : Loader) (deployment : Deployment κ) (path : String) (artifact : Artifact)
    (className : String) : Except PageError (Option EntryPoint) × Loader × Deployment κ :=
  let (_, loader, deployment) := loader.unload deployment none
  let number := deployment.lastUnit + 1
  let deployment := { deployment with lastUnit := number }
  let name := s!"{path}:{number}"
  let loaded : Except LoadError (LoadedModule × ModuleSpec κ) := do
    let module ← LoadedModule.ofBytes artifact.image artifact.symbols
    let spec ← (module.registration name).mapError .image
    return (module, spec)
  match loaded with
  | .error error => (.error (.load error), loader, deployment)
  | .ok (module, spec) =>
    let (unit, loader, deployment) := loader.deploy deployment name module spec
    (.ok (entryPoint? unit className), loader, deployment)

end Loader

end PageScript
