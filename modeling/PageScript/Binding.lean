import PageScript.Binding.Problem
import PageScript.Binding.Tree
import PageScript.Script.Tree

/-!
# Binding

Finds out what the names in a list of scripts stand for. Binding looks at every statement, also
behind an error, and gives a module only if there is no error at all.
-/

namespace PageScript.Binding

open Script

/-! ## Types -/

/-- The modules that the declarations `uses` bring into scope, each once, in order. -/
def usedModules (references : References) (uses : List QualifiedName) : List ModuleSymbols :=
  uses.foldl (fun modules name ↦
    match references.find name.text with
    | some module =>
      if modules.any (·.name = module.name) then modules else modules ++ [module]
    | none => modules) []

/-- The type that a name stands for: a qualified name is looked up in the module it names, any other
in all used modules, of which exactly one must have it. -/
def resolve (references : References) (used : List ModuleSymbols) (name : QualifiedName) :
    Except Problem (TypeName × TypeSymbol) :=
  match name.qualifier? with
  | some qualifier =>
    match references.find qualifier with
    | none => .error (.unknownName name.text)
    | some module =>
      match module.types.get? name.name with
      | none => .error (.unknownType name.name qualifier)
      | some symbol => .ok (⟨module.name, name.name⟩, symbol)
  | none =>
    let candidates := used.filterMap fun module ↦
      (module.types.get? name.name).map fun symbol ↦ (module.name, symbol)
    match candidates with
    | [] => .error (.unknownName name.name)
    | [(module, symbol)] => .ok (⟨module, name.name⟩, symbol)
    | (first, _) :: (second, _) :: _ => .error (.ambiguousType name.name first second)

/-! ## Class bodies -/

/-- What a class body may refer to. -/
structure Scope where
  references : References
  used : List ModuleSymbols
  /-- The classes of all scripts. -/
  classes : List String
  unit : ScriptUnit

/-- A local of a class; its slot is its place in the list of locals. The type is missing if it could
not be resolved. -/
structure Local where
  name : String
  type : Option (TypeName × TypeSymbol)
  declaredAt : Location

def slotOf (locals : List Local) (name : String) : Option Nat := locals.findIdx? (·.name = name)

/-- The outcome of one statement: the locals behind it, what it is bound to unless it is wrong, and
what was found. -/
structure Step where
  locals : List Local
  op : Option BoundStatement.Op
  findings : List Finding

def componentProblems : TypeName × TypeSymbol → List Problem
  | (type, symbol) => if symbol.isComponent then [] else [.notComponent type]

def bindCreate (scope : Scope) (locals : List Local) (location : Location) (name : String)
    (type : QualifiedName) : Step :=
  let resolved := resolve scope.references scope.used type
  let findings := match resolved with
    | .ok found => (componentProblems found).map (⟨·, location⟩)
    | .error problem => [⟨problem, scope.unit.locate type.start⟩]
  if (slotOf locals name).isSome then
    ⟨locals, none, findings ++ [⟨.duplicateLocal name, location⟩]⟩
  else
    ⟨locals ++ [⟨name, resolved.toOption, location⟩],
      resolved.toOption.map fun (found, _) ↦ .create found locals.length, findings⟩

def assignProblems (property : String) (target : Option Local) : List Problem :=
  match target.bind Local.type with
  | some (type, symbol) =>
    if symbol.assignable.contains property then [] else [.notSettable type property]
  | none => []

def bindStatement (scope : Scope) (locals : List Local) (stmt : Statement) : Step :=
  let location := scope.unit.locate stmt.start
  match stmt.kind with
  | .write text => ⟨locals, some (.write text), []⟩
  | .create name type => bindCreate scope locals location name type
  | .assign target property value =>
    match slotOf locals target with
    | some slot =>
      ⟨locals, some (.assign slot property value),
        (assignProblems property locals[slot]?).map (⟨·, location⟩)⟩
    | none => ⟨locals, none, [⟨.notDeclared target, location⟩]⟩
  | .render target =>
    match slotOf locals target with
    | some slot => ⟨locals, some (.render slot), []⟩
    | none => ⟨locals, none, [⟨.notDeclared target, location⟩]⟩
  | .embed className =>
    if scope.classes.contains className then ⟨locals, some (.embed className), []⟩
    else ⟨locals, none, [⟨.notDeclared className, location⟩]⟩

/-- All statements of a body in order: the bound ones, the locals at the end, and the findings. -/
def bindBody (scope : Scope) (locals : List Local) :
    List Statement → List BoundStatement × List Local × List Finding
  | [] => ([], locals, [])
  | stmt :: rest =>
    let step := bindStatement scope locals stmt
    let (bound, final, findings) := bindBody scope step.locals rest
    let location := scope.unit.locate stmt.start
    ((step.op.toList.map (⟨·, location⟩)) ++ bound, final,
      step.findings ++ findings)

/-- The names of the locals that are rendered somewhere. -/
def renderedNames (body : List Statement) : List String :=
  body.filterMap fun stmt ↦
    match stmt.kind with
    | .render name => some name
    | _ => none

def renderFindings (body : List Statement) (locals : List Local) : List Finding :=
  let rendered := renderedNames body
  (locals.filter fun entry ↦ !rendered.contains entry.name).map fun entry ↦
    ⟨.neverRendered entry.name, entry.declaredAt⟩

/-- A class, unless its base type could not be resolved. -/
def bindClass (scope : Scope) (unit : Nat) (declaration : ClassDeclaration) :
    Option BoundClass × List Finding :=
  let (body, locals, findings) := bindBody scope [] declaration.body
  let findings := findings ++ renderFindings declaration.body locals
  match resolve scope.references scope.used declaration.base with
  | .ok (base, _) =>
    (some { name := declaration.name, base, slotCount := locals.length, body, unit }, findings)
  | .error problem => (none, ⟨problem, scope.unit.locate declaration.base.start⟩ :: findings)

/-! ## Scripts -/

/-- The second and every later declaration of a class name. -/
def duplicateFindings (seen : List String) : List (String × Location) → List Finding
  | [] => []
  | (name, location) :: rest =>
    if seen.contains name then ⟨.duplicateClass name, location⟩ :: duplicateFindings seen rest
    else duplicateFindings (name :: seen) rest

/-- Every class declared in some script, with the place of its declaration. -/
def declaredClasses (units : List ScriptUnit) : List (String × Location) :=
  units.flatMap fun unit ↦ unit.classes.map fun declaration ↦
    (declaration.name, unit.locate declaration.start)

def useFindings (references : References) (unit : ScriptUnit) : List Finding :=
  (unit.uses.filter fun name ↦ (references.find name.text).isNone).map fun name ↦
    ⟨.unknownName name.text, unit.locate name.start⟩

def bindUnit (references : References) (classes : List String) (unit : ScriptUnit) (index : Nat) :
    List BoundClass × List Finding :=
  let scope : Scope := { references, used := usedModules references unit.uses, classes, unit }
  let results := unit.classes.map (bindClass scope index)
  (results.filterMap Prod.fst, useFindings references unit ++ results.flatMap Prod.snd)

/-- Everything found in a list of scripts, and the classes that could be bound. -/
def survey (units : List ScriptUnit) (references : References) : List BoundClass × List Finding :=
  let declared := declaredClasses units
  let results := units.zipIdx.map fun (unit, index) ↦
    bindUnit references (declared.map Prod.fst) unit index
  (results.flatMap Prod.fst, duplicateFindings [] declared ++ results.flatMap Prod.snd)

/-- Binds scripts against references. -/
def bind (units : List ScriptUnit) (references : References) :
    Except (List Diagnostic) BoundModule :=
  let (classes, findings) := survey units references
  let errors := findings.filter Finding.isError
  if errors.isEmpty then .ok { classes, warnings := findings.map Finding.diagnostic }
  else .error (errors.map Finding.diagnostic)

end PageScript.Binding
