import PageScript.Script.LineMap

/-!
# Syntax trees

A script declares which modules it uses and defines classes. A class has a base type and a body of
statements.
-/

namespace PageScript.Script

/-- A dotted name, with at least one segment. -/
structure QualifiedName where
  first : String
  more : List String
  start : Position
  deriving DecidableEq, Repr, Inhabited

namespace QualifiedName

def segments (name : QualifiedName) : List String := name.first :: name.more

/-- The last segment. -/
def name (qualified : QualifiedName) : String := qualified.more.getLastD qualified.first

def isQualified (qualified : QualifiedName) : Bool := !qualified.more.isEmpty

/-- All segments but the last, with dots between them. -/
def qualifier? (qualified : QualifiedName) : Option String :=
  if qualified.isQualified then some (".".intercalate qualified.segments.dropLast) else none

def text (qualified : QualifiedName) : String := ".".intercalate qualified.segments

end QualifiedName

inductive Statement.Kind where
  | write (text : String)
  | create (name : String) (type : QualifiedName)
  | assign (target property value : String)
  | render (name : String)
  | embed (className : String)
  deriving DecidableEq, Repr, Inhabited

structure Statement where
  kind : Statement.Kind
  start : Position
  deriving DecidableEq, Repr, Inhabited

structure ClassDeclaration where
  name : String
  base : QualifiedName
  body : List Statement
  start : Position
  deriving DecidableEq, Repr, Inhabited

inductive Item where
  | uses (module : QualifiedName)
  | declares (declaration : ClassDeclaration)
  deriving DecidableEq, Repr, Inhabited

namespace Item

def uses? : Item → Option QualifiedName
  | uses module => some module
  | declares _ => none

def class? : Item → Option ClassDeclaration
  | uses _ => none
  | declares declaration => some declaration

end Item

/-- A script as read from one file. -/
structure ScriptUnit where
  path : String
  items : List Item
  lineMap : LineMap
  deriving DecidableEq, Repr, Inhabited

namespace ScriptUnit

def uses (unit : ScriptUnit) : List QualifiedName := unit.items.filterMap Item.uses?

def classes (unit : ScriptUnit) : List ClassDeclaration := unit.items.filterMap Item.class?

def locate (unit : ScriptUnit) (position : Position) : Location :=
  unit.lineMap.locate unit.path position

end ScriptUnit

end PageScript.Script
