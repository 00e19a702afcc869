import PageScript.Binding
import PageScript.Cancellation
import PageScript.Emission
import PageScript.Script.Parser

/-!
# Compilation

Scripts are parsed, bound and emitted. Before each of the three steps the work can be cancelled from
outside; otherwise it ends in a module or in diagnostics.
-/

namespace PageScript

/-- All that one compilation works on. -/
structure CompileInput where
  moduleName : String
  generated : List SourceText
  /-- The files that the scripts were generated from, kept for debugging. -/
  markup : List SourceText
  references : References
  settings : CompilerSettings := {}

structure CompiledModule where
  image : Bytes
  /-- The encoded debug symbols, if they are wanted. -/
  symbols : Option Bytes
  buildId : BuildId
  warnings : List Diagnostic

inductive CompileError where
  | cancelled
  | diagnostics (list : List Diagnostic)
  deriving DecidableEq, Repr, Inhabited

def CompileError.message : CompileError → String
  | cancelled => "operation was cancelled"
  | diagnostics list => s!"compilation failed with {list.length} diagnostic(s)"

namespace CompileInput

/-- The scripts, unless one of them has a syntax error. -/
def parse (input : CompileInput) : Except (List Diagnostic) (List Script.ScriptUnit) :=
  let results := input.generated.map fun source ↦ Script.parse source.path source.text
  let diagnostics := results.flatMap Prod.snd
  if Diagnostics.hasErrors diagnostics then .error diagnostics else .ok (results.map Prod.fst)

def options (input : CompileInput) : Emission.Options :=
  { moduleName := input.moduleName
    buildMode := input.settings.buildMode
    emitSymbols := input.settings.emitSymbols
    embedMarkup := input.settings.embedMarkup }

/-- Image and symbols of a bound module; the symbols carry the build id of the image. -/
def emit (input : CompileInput) (module : BoundModule) : CompiledModule :=
  let (image, buildId) := (Emission.image module input.options).encode
  let symbols := Emission.symbols module input.generated input.markup input.options
  { image, buildId
    symbols := if input.settings.emitSymbols then some { symbols with buildId }.encode else none
    warnings := module.warnings }

/-- Compilation that nobody cancels. -/
def compile (input : CompileInput) : Except (List Diagnostic) CompiledModule := do
  let units ← input.parse
  let module ← Binding.bind units input.references
  return input.emit module

end CompileInput

/-- Compilation in a world that can cancel it. -/
def compile {ω : Type} (check : CancelCheck ω) (input : CompileInput) :
    ExceptT CompileError (StateM ω) CompiledModule := do
  stopIfCancelled check .cancelled
  let units ← (input.parse.mapError CompileError.diagnostics : Except _ _)
  stopIfCancelled check .cancelled
  let bound := Binding.bind units input.references
  let module ← (bound.mapError CompileError.diagnostics : Except _ _)
  stopIfCancelled check .cancelled
  return input.emit module

end PageScript
