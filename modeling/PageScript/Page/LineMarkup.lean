import PageScript.Page.Site
import PageScript.Naming
import PageScript.Path

/-!
# Line markup

A small markup language in which every line is one statement of a page: a directive, a reference to
another file, a component, or text that is written as it stands.
-/

namespace PageScript.LineMarkup

/-- A string literal of the page script. -/
def quote (text : String) : String :=
  "\"" ++ String.ofList (text.toList.flatMap fun c ↦
    if c = '\\' ∨ c = '"' then ['\\', c] else [c]) ++ "\""

/-- What one line contributes. -/
structure Line where
  statement : Option String := none
  className : Option String := none
  isDirective : Bool := false
  dependency : Option String := none
  diagnostic : Option Diagnostic := none

def Line.ofStatement (statement : String) : Line := { statement := some statement }

/-- What stands behind `word` if the line starts with it. -/
def behind? (word : String) (line : List Char) : Option String :=
  if word.toList.isPrefixOf line then some (String.ofList (line.drop word.length)) else none

def includeLine (path reference : String) : Line :=
  match Path.resolve path reference with
  | .ok target =>
    { statement := some s!"include {Naming.className target};", dependency := some reference }
  | .error cause => { diagnostic := some (.error "MK0002" cause.message) }

def labelLine (components : List ComponentMetadata) (number : Nat) (text : String) : Line :=
  match components.find? fun component ↦ component.name = "Label" with
  | some component =>
    let property := component.defaultProperty.getD "Text"
    .ofStatement (s!"let c{number} = new {component.qualifiedName}; " ++
      s!"set c{number}.{property} = {quote text}; render c{number};")
  | none => { diagnostic := some (.error "MK0001" "unknown component Label") }

def readLine (path : String) (components : List ComponentMetadata) (number : Nat)
    (line : List Char) : Line :=
  if line = "@page".toList then { statement := some "", isDirective := true }
  else if let some name := behind? "@class " line then
    { statement := some "", className := some name }
  else if let some reference := behind? "include " line then includeLine path reference
  else if let some text := behind? "label: " line then labelLine components number text
  else if let some type := behind? "new: " line then .ofStatement s!"let c{number} = new {type};"
  else if let some message := behind? "!error " line then
    { diagnostic := some (.error "MK0100" message) }
  else .ofStatement s!"write {quote (String.ofList line)};"

/-- The script of a file: one class whose body stands for the lines of the file. -/
def script (path className : String) (body : List String) : String :=
  s!"use web.ui;\nclass {className} : Page " ++ "\x7b\n" ++ s!"#line 1 {quote path}\n" ++
    String.join (body.map (· ++ "\n")) ++ "#line default\n\x7d\n"

def generate (path content : String) (components : List ComponentMetadata) : GeneratedFile :=
  let lines := (Text.lines content.toList).zipIdx.map fun (line, index) ↦
    readLine path components (index + 1) (Text.trim line)
  let className := (lines.filterMap Line.className).getLastD (Naming.className path)
  { source := script path className (lines.filterMap Line.statement)
    hasDirective := lines.any Line.isDirective
    dependencies := lines.filterMap Line.dependency
    diagnostics := lines.filterMap Line.diagnostic }

end PageScript.LineMarkup
