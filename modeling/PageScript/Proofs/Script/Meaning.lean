import PageScript.Binding.Symbols
import PageScript.Host
import PageScript.Script.Tree
import PageScript.Settings

/-!
# The meaning of scripts

Scripts can be run as they are read, without binding and compiling them. A class runs statement by
statement over its locals, which are found by name; embedding a class runs it with locals of its
own. What a type name stands for is looked up when a local of that type is created.
-/

namespace PageScript.Script

/-- Every class of some scripts, together with its script. -/
def declarations (units : List ScriptUnit) : List (ScriptUnit × ClassDeclaration) :=
  units.flatMap fun unit ↦ unit.classes.map fun declaration ↦ (unit, declaration)

/-- A type of a module, if the references have it. -/
def typeIn (references : References) (module name : String) : Option TypeName :=
  match references.find module with
  | some symbols => if symbols.types.contains name then some ⟨module, name⟩ else none
  | none => none

/-- The type that a name stands for in a script: a qualified name tells the module itself, any other
belongs to the first used module that has such a type. -/
def typeOf (references : References) (unit : ScriptUnit) (name : QualifiedName) : Option TypeName :=
  match name.qualifier? with
  | some qualifier => typeIn references qualifier name.name
  | none => unit.uses.findSome? fun use ↦ typeIn references use.text name.name

/-- Why a class cannot be run to its end. The last three do not happen in scripts that compile. -/
inductive Failure where
  | typeUnavailable (type : String)
  | property (name reason : String)
  | includeDepth (className : String) (limit : Nat)
  | unknownType (name : QualifiedName)
  | unboundLocal (name : String)
  | unknownClass (name : String)
  deriving DecidableEq, Repr

variable {κ : Type} [Component κ]

/-- One statement over the locals, of which the one bound last stands in front: what it writes, and
the locals behind it. -/
def interpretStatement (references : References) (unit : ScriptUnit) (host : Host κ)
    (embed : String → Except Failure String) (locals : List (String × κ)) :
    Statement.Kind → Except Failure (String × List (String × κ))
  | .write text => .ok (text, locals)
  | .create name type =>
    match typeOf references unit type with
    | none => .error (.unknownType type)
    | some type =>
      match host.instantiate type.module type.name with
      | none => .error (.typeUnavailable type.display)
      | some component => .ok ("", (name, component) :: locals)
  | .assign target property value =>
    match locals.lookup target with
    | none => .error (.unboundLocal target)
    | some component =>
      match Component.setProperty component property value with
      | .ok component => .ok ("", (target, component) :: locals)
      | .error reason => .error (.property property reason)
  | .render name =>
    match locals.lookup name with
    | none => .error (.unboundLocal name)
    | some component => .ok (Component.render component, locals)
  | .embed className => do
    let text ← embed className
    return (text, locals)

def interpretBody (references : References) (unit : ScriptUnit) (host : Host κ)
    (embed : String → Except Failure String) :
    List (String × κ) → List Statement → Except Failure String
  | _, [] => .ok ""
  | locals, stmt :: rest => do
    let next ← interpretStatement references unit host embed locals stmt.kind
    let more ← interpretBody references unit host embed next.2 rest
    return next.1 ++ more

/-- Runs a class of some scripts; embedding may go `budget` levels deeper. -/
def interpretClass (units : List ScriptUnit) (references : References) (host : Host κ)
    (limit : Nat) : Nat → ScriptUnit × ClassDeclaration → Except Failure String
  | 0, (unit, declaration) =>
    interpretBody references unit host (fun name ↦ .error (.includeDepth name limit)) []
      declaration.body
  | budget + 1, (unit, declaration) =>
    interpretBody references unit host (fun name ↦
        match (declarations units).find? fun inner ↦ inner.2.name = name with
        | some inner => interpretClass units references host limit budget inner
        | none => .error (.unknownClass name)) []
      declaration.body

/-- Runs a class of some scripts. -/
def interpret (units : List ScriptUnit) (references : References) (host : Host κ)
    (limits : LimitSettings) (unit : ScriptUnit) (declaration : ClassDeclaration) :
    Except Failure String :=
  interpretClass units references host limits.maxIncludeDepth limits.maxIncludeDepth
    (unit, declaration)

end PageScript.Script
