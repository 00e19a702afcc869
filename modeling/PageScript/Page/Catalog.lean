import PageScript.Host

/-!
# Catalogs

A catalog looks through a host for what a page can refer to: the symbols of every static module and
the facts about its components. Symbols are kept from one look to the next for modules that are
still registered under the same id and generation.
-/

namespace PageScript

/-- Facts about a component type. Only properties that a script may set and that have a default are
listed. -/
structure ComponentMetadata where
  /-- Name of the module. -/
  namespaceName : String
  name : String
  defaultProperty : Option String
  validationProperty : Option String
  defaultEvent : Option String
  supportsEventValidation : Bool
  eventProperties : List String
  textProperties : List String
  otherProperties : List String
  deriving DecidableEq, Repr, Inhabited

namespace ComponentMetadata

def isListed (kind : PropertyKind) (property : PropertyDescriptor) : Bool :=
  property.isAssignable && property.default.isSome && property.kind = kind

def listed (descriptor : ComponentDescriptor) (kind : PropertyKind) : List String :=
  (descriptor.properties.filter (isListed kind)).map PropertyDescriptor.name

def ofDescriptor (namespaceName : String) (descriptor : ComponentDescriptor) : ComponentMetadata :=
  { namespaceName
    name := descriptor.name
    defaultProperty := descriptor.defaultProperty
    validationProperty := descriptor.validationProperty
    defaultEvent := descriptor.defaultEvent
    supportsEventValidation := descriptor.supportsEventValidation
    eventProperties := listed descriptor .event
    textProperties := listed descriptor .text
    otherProperties := listed descriptor .other }

def qualifiedName (metadata : ComponentMetadata) : String :=
  s!"{metadata.namespaceName}.{metadata.name}"

end ComponentMetadata

structure Snapshot where
  references : References
  components : List ComponentMetadata

namespace Catalog

/-- What is kept of one module. The serial number tells entries apart that were made anew. -/
structure Entry where
  generation : Nat
  symbols : ModuleSymbols
  serial : Nat

end Catalog

structure Catalog where
  /-- Entries by module id. -/
  entries : List (Nat × Catalog.Entry) := []
  lastSerial : Nat := 0

namespace Catalog

variable {κ : Type}

def empty : Catalog := {}

def size (catalog : Catalog) : Nat := catalog.entries.length

def entry? (catalog : Catalog) (id : Nat) : Option Entry := catalog.entries.lookup id

def invalidate (catalog : Catalog) : Catalog := { catalog with entries := [] }

/-- The static modules of a host. -/
def staticModules (host : Host κ) : List (HostModule κ) :=
  host.modules.filter fun module ↦ !module.isDynamic

/-- Forgets what is no longer registered. -/
def evict (catalog : Catalog) (live : List Nat) : Catalog :=
  { catalog with entries := catalog.entries.filter fun entry ↦ live.contains entry.1 }

/-- A new entry in place of any old one for the module. -/
def renew (catalog : Catalog) (module : HostModule κ) : Catalog :=
  let entry : Entry := {
    generation := module.generation
    symbols := module.symbols
    serial := catalog.lastSerial + 1 }
  { entries := catalog.entries.filter (fun old ↦ old.1 ≠ module.id) ++ [(module.id, entry)]
    lastSerial := catalog.lastSerial + 1 }

/-- The symbols of a module, from the catalog if it has them. -/
def symbolsOf (catalog : Catalog) (module : HostModule κ) : ModuleSymbols × Catalog :=
  match catalog.entry? module.id with
  | some entry =>
    if entry.generation = module.generation then (entry.symbols, catalog)
    else (module.symbols, catalog.renew module)
  | none => (module.symbols, catalog.renew module)

def symbolsOfAll (catalog : Catalog) : List (HostModule κ) → References × Catalog
  | [] => ([], catalog)
  | module :: rest =>
    let (symbols, catalog) := catalog.symbolsOf module
    let (references, catalog) := symbolsOfAll catalog rest
    (symbols :: references, catalog)

def metadataOf (module : HostModule κ) : List ComponentMetadata :=
  module.components.map fun component ↦ .ofDescriptor module.name component.descriptor

/-- Looks through a host. -/
def snapshot (catalog : Catalog) (host : Host κ) : Snapshot × Catalog :=
  let modules := staticModules host
  let (references, catalog) :=
    (catalog.evict (modules.map HostModule.id)).symbolsOfAll modules
  ({ references, components := modules.flatMap metadataOf }, catalog)

end Catalog

end PageScript
