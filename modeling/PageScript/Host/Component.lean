/-!
# Components

What a component library offers: a description of each type, and how an instance of it behaves. An
instance is a deterministic machine that takes property values one by one and can be rendered at any
time.
-/

namespace PageScript

/-- Instances of components, whatever their type. -/
class Component (κ : Type) where
  /-- The instance with a property set, or a reason why it cannot be. -/
  setProperty : κ → String → String → Except String κ
  render : κ → String

inductive PropertyKind where
  | event
  | text
  | other
  deriving DecidableEq, Repr, Inhabited

structure PropertyDescriptor where
  name : String
  kind : PropertyKind
  isPublic : Bool := true
  isSettable : Bool := true
  default : Option String := none
  deriving DecidableEq, Repr, Inhabited

/-- Scripts may set what is public and settable. -/
def PropertyDescriptor.isAssignable (property : PropertyDescriptor) : Bool :=
  property.isPublic && property.isSettable

structure ComponentDescriptor where
  name : String
  defaultProperty : Option String := none
  validationProperty : Option String := none
  defaultEvent : Option String := none
  supportsEventValidation : Bool := false
  properties : List PropertyDescriptor := []
  deriving DecidableEq, Repr, Inhabited

def ComponentDescriptor.property? (descriptor : ComponentDescriptor) (name : String) :
    Option PropertyDescriptor :=
  descriptor.properties.find? fun property ↦ property.name = name

/-! ## Components that tell what they are -/

/-- An instance that keeps its properties and renders them with the name of its type. -/
structure Echo where
  name : String
  /-- Properties that cannot be set. -/
  rejected : List String := []
  properties : List (String × String) := []
  deriving DecidableEq, Repr, Inhabited

namespace Echo

/-- The value replaces that of the same name, or comes last. -/
def put (name value : String) : List (String × String) → List (String × String)
  | [] => [(name, value)]
  | (n, v) :: rest => if n = name then (name, value) :: rest else (n, v) :: put name value rest

def display (echo : Echo) : String :=
  "[" ++ echo.name ++ String.join (echo.properties.map fun (n, v) ↦ s!" {n}={v}") ++ "]"

instance : Component Echo where
  setProperty echo name value :=
    if echo.rejected.contains name then .error s!"{echo.name} rejects {name}"
    else .ok { echo with properties := put name value echo.properties }
  render echo := echo.display

end Echo

end PageScript
