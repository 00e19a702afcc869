import PageScript.Binding.Symbols
import PageScript.Host.Component

/-!
# Module hosts

A host is a registry of modules. A module has component types, of which instances can be created,
and plain types. Registering a module under a name that is taken replaces the module that had it.
Ids are never used twice, and the generation of a host grows with every change.
-/

namespace PageScript

structure RegisteredComponent (κ : Type) where
  descriptor : ComponentDescriptor
  /-- A fresh instance. -/
  fresh : κ

/-- A module before it is registered. -/
structure ModuleSpec (κ : Type) where
  name : String
  /-- Dynamic modules are made while a site runs and are no references for compilation. -/
  isDynamic : Bool := false
  components : List (RegisteredComponent κ) := []
  types : List String := []

structure HostModule (κ : Type) extends ModuleSpec κ where
  id : Nat
  /-- Generation of the host that registering the module gave. -/
  generation : Nat

/-- Modules stand in the order of their registration. -/
structure Host (κ : Type) where
  modules : List (HostModule κ) := []
  lastId : Nat := 0
  generation : Nat := 0

namespace ModuleSpec

variable {κ : Type}

def findComponent (module : ModuleSpec κ) (name : String) : Option (RegisteredComponent κ) :=
  module.components.find? fun component ↦ component.descriptor.name = name

def componentSymbol (descriptor : ComponentDescriptor) : String × TypeSymbol :=
  (descriptor.name,
    { isComponent := true
      assignable := Table.ofNames
        ((descriptor.properties.filter PropertyDescriptor.isAssignable).map
          PropertyDescriptor.name) })

/-- What the compiler knows of a module. -/
def symbols (module : ModuleSpec κ) : ModuleSymbols :=
  .ofTypes module.name (module.components.map (fun component ↦ componentSymbol component.descriptor)
    ++ module.types.map (·, { isComponent := false }))

end ModuleSpec

namespace Host

variable {κ : Type}

def empty : Host κ := {}

/-- The host with one more module, and the module's id. -/
def register (host : Host κ) (spec : ModuleSpec κ) : Nat × Host κ :=
  let id := host.lastId + 1
  let generation := host.generation + 1
  (id, {
    modules := host.modules.filter (fun module ↦ module.name ≠ spec.name) ++
      [{ spec with id, generation }]
    lastId := id
    generation })

def contains (host : Host κ) (id : Nat) : Bool := host.modules.any fun module ↦ module.id = id

/-- The host without a module, and whether it was there. -/
def unregister (host : Host κ) (id : Nat) : Bool × Host κ :=
  if host.contains id then
    (true, { host with
      modules := host.modules.filter fun module ↦ module.id ≠ id
      generation := host.generation + 1 })
  else (false, host)

def get? (host : Host κ) (id : Nat) : Option (HostModule κ) :=
  host.modules.find? fun module ↦ module.id = id

def find (host : Host κ) (name : String) : Option (HostModule κ) :=
  host.modules.find? fun module ↦ module.name = name

/-- A fresh instance of a component type. -/
def instantiate (host : Host κ) (module type : String) : Option κ := do
  let module ← host.find module
  let component ← module.findComponent type
  return component.fresh

end Host

end PageScript
