import PageScript.Host
import PageScript.LoadedModule

/-!
# Rendering

Running a class of a loaded module against a host gives the text of a page. Components live in the
slots of the class; an embedded class runs with slots of its own, one level deeper. The depth is
limited, so that classes which embed each other come to an end.
-/

namespace PageScript

open Image (ReadError)

inductive RenderError where
  | typeUnavailable (type : String) (location : Option Location)
  | property (name reason : String) (location : Option Location)
  | uninitializedSlot (slot : UInt32) (location : Option Location)
  | includeDepth (className : String) (limit : Nat) (location : Option Location)
  | corrupt (error : ReadError)
  /-- A slot that the class does not have; code that was loaded never asks for one. -/
  | noSuchSlot (slot : UInt32)
  deriving DecidableEq, Repr, Inhabited

namespace RenderError

def displayPlace : Option Location → String
  | some location => s!" at {location.display}"
  | none => ""

def message : RenderError → String
  | typeUnavailable type location =>
    s!"component type '{type}' is not registered with the host{displayPlace location}"
  | property name reason location =>
    s!"cannot set property '{name}': {reason}{displayPlace location}"
  | uninitializedSlot slot location =>
    s!"local slot {slot} used before initialization{displayPlace location}"
  | includeDepth className limit location =>
    s!"include depth limit {limit} exceeded while entering '{className}'{displayPlace location}"
  | corrupt error => s!"corrupted module: {error.message}"
  | noSuchSlot slot => s!"no local slot {slot}"

/-- The name of the cause, after that of the part it lies in. -/
def kind : RenderError → String
  | typeUnavailable _ _ => "TypeUnavailable"
  | property _ _ _ => "Property"
  | uninitializedSlot _ _ => "UninitializedSlot"
  | includeDepth _ _ _ => "IncludeDepth"
  | corrupt error => "Corrupt." ++ error.kind
  | noSuchSlot _ => "NoSuchSlot"

def location : RenderError → Option Location
  | typeUnavailable _ location => location
  | property _ _ location => location
  | uninitializedSlot _ location => location
  | includeDepth _ _ location => location
  | corrupt _ => none
  | noSuchSlot _ => none

end RenderError

/-! ## Slots -/

/-- The slots of a running class. -/
structure Slots (κ : Type) where
  count : Nat
  filled : List (UInt32 × κ) := []

namespace Slots

variable {κ : Type}

def put (slots : Slots κ) (slot : UInt32) (component : κ) : Except RenderError (Slots κ) :=
  if slot.toNat < slots.count then .ok { slots with filled := (slot, component) :: slots.filled }
  else .error (.noSuchSlot slot)

/-- The component in a slot, if it has one. -/
def get (slots : Slots κ) (slot : UInt32) : Except RenderError (Option κ) :=
  if slot.toNat < slots.count then .ok (slots.filled.lookup slot) else .error (.noSuchSlot slot)

end Slots

namespace Rendering

variable {κ : Type} [Component κ]

def table {α : Type} (result : Except ReadError α) : Except RenderError α :=
  result.mapError .corrupt

/-- An instruction by its class and its number there. It is looked up in the symbols only where it
has to be reported. -/
structure Address where
  classIndex : Nat
  ip : Nat
  deriving DecidableEq, Repr, Inhabited

def Address.location (module : LoadedModule) (address : Address) : Option Location :=
  module.locate address.classIndex address.ip

def component (module : LoadedModule) (slots : Slots κ) (address : Address) (slot : UInt32) :
    Except RenderError κ := do
  match ← slots.get slot with
  | some component => return component
  | none => throw (.uninitializedSlot slot (address.location module))

def create (module : LoadedModule) (host : Host κ) (slots : Slots κ) (address : Address)
    (type slot : UInt32) : Except RenderError (Slots κ) := do
  let (moduleName, typeName) ← table (module.image.typeAt type)
  match host.instantiate moduleName typeName with
  | some component => slots.put slot component
  | none => throw (.typeUnavailable s!"{moduleName}.{typeName}" (address.location module))

def assign (module : LoadedModule) (slots : Slots κ) (address : Address)
    (slot property value : UInt32) : Except RenderError (Slots κ) := do
  let property ← table (module.image.string property)
  let value ← table (module.image.string value)
  match Component.setProperty (← component module slots address slot) property value with
  | .ok component => slots.put slot component
  | .error reason => throw (.property property reason (address.location module))

/-- Runs code of the class `classIndex` from the instruction `ip` on. `embed` runs an embedded
class; it is told the instruction that asks for it. -/
def execute (module : LoadedModule) (host : Host κ)
    (embed : Nat → Address → Except RenderError String) (classIndex : Nat) :
    Nat → Slots κ → List Instruction → Except RenderError String
  | _, _, [] => .ok ""
  | ip, slots, instruction :: rest =>
    let address : Address := ⟨classIndex, ip⟩
    match instruction with
    | .write text => do
      let text ← table (module.image.string text)
      let more ← execute module host embed classIndex (ip + 1) slots rest
      return text ++ more
    | .create type slot => do
      let slots ← create module host slots address type slot
      execute module host embed classIndex (ip + 1) slots rest
    | .assign slot property value => do
      let slots ← assign module slots address slot property value
      execute module host embed classIndex (ip + 1) slots rest
    | .render slot => do
      let component ← component module slots address slot
      let more ← execute module host embed classIndex (ip + 1) slots rest
      return Component.render component ++ more
    | .embed index => do
      let text ← embed index.toNat address
      let more ← execute module host embed classIndex (ip + 1) slots rest
      return text ++ more
    | .stop => .ok ""

/-- The answer to an embedding that would go too deep. -/
def tooDeep (module : LoadedModule) (limit : Nat) (index : Nat) (address : Address) :
    Except RenderError String := do
  let name ← table (module.className index)
  throw (.includeDepth name limit (address.location module))

/-- Runs a class in which embedding may go `budget` levels deeper. -/
def run (module : LoadedModule) (host : Host κ) (limit : Nat) :
    Nat → Nat → Except RenderError String
  | 0, classIndex =>
    execute module host (tooDeep module limit) classIndex 0 ⟨module.slotCount classIndex, []⟩
      (module.instructions classIndex)
  | budget + 1, classIndex =>
    execute module host (fun index _ ↦ run module host limit budget index) classIndex 0
      ⟨module.slotCount classIndex, []⟩ (module.instructions classIndex)

end Rendering

/-- The text of a class. -/
def render {κ : Type} [Component κ] (module : LoadedModule) (host : Host κ) (limits : LimitSettings)
    (classIndex : Nat) : Except RenderError String :=
  Rendering.run module host limits.maxIncludeDepth limits.maxIncludeDepth classIndex

end PageScript
