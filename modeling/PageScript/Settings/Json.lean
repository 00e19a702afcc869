import PageScript.Json
import PageScript.Settings

/-!
# Settings as JSON

Reading fills in what is missing and skips fields it does not know; a field that is there must have
a proper value. Writing gives every field.
-/

namespace PageScript

/-- The value of a field, or `default` when it is missing. -/
def Json.fieldOr {α : Type} (fields : List (String × Json)) (name : String) (read : Json → Option α)
    (default : α) : Option α :=
  match fields.lookup name with
  | none => some default
  | some value => read value

namespace BuildMode

def name : BuildMode → String
  | debug => "debug"
  | release => "release"

def ofName? : String → Option BuildMode
  | "debug" => some debug
  | "release" => some release
  | _ => none

def ofJson? (json : Json) : Option BuildMode := json.alternative?.bind ofName?

end BuildMode

namespace CompilerSettings

def ofJson? (json : Json) : Option CompilerSettings := do
  let fields ← json.record? ["build_mode", "emit_debug_symbols", "embed_markup_sources"]
  return {
    buildMode := ← Json.fieldOr fields "build_mode" BuildMode.ofJson? .debug
    emitSymbols := ← Json.fieldOr fields "emit_debug_symbols" Json.bool? true
    embedMarkup := ← Json.fieldOr fields "embed_markup_sources" Json.bool? true }

def toJson (settings : CompilerSettings) : Json :=
  .object [
    ("build_mode", .text settings.buildMode.name),
    ("emit_debug_symbols", .bool settings.emitSymbols),
    ("embed_markup_sources", .bool settings.embedMarkup)]

end CompilerSettings

namespace RetrySettings

def ofJson? (json : Json) : Option RetrySettings := do
  let fields ← json.record? ["max_attempts", "backoff_ms"]
  return {
    maxAttempts := ← Json.fieldOr fields "max_attempts" (Json.naturalBelow? UInt32.size) 5
    backoff := ← Json.fieldOr fields "backoff_ms" (Json.naturalBelow? UInt64.size) 100 }

def toJson (settings : RetrySettings) : Json :=
  .object [
    ("max_attempts", .natural settings.maxAttempts),
    ("backoff_ms", .natural settings.backoff)]

/-- The pause as whole seconds and nanoseconds. -/
def pause (settings : RetrySettings) : Nat × Nat :=
  (settings.backoff / 1000, settings.backoff % 1000 * 1000000)

end RetrySettings

namespace LimitSettings

def ofJson? (json : Json) : Option LimitSettings := do
  let fields ← json.record? ["max_include_depth"]
  return { maxIncludeDepth := ←
    Json.fieldOr fields "max_include_depth" (Json.naturalBelow? UInt64.size) 32 }

def toJson (settings : LimitSettings) : Json :=
  .object [("max_include_depth", .natural settings.maxIncludeDepth)]

end LimitSettings

namespace Concurrency

def name : Concurrency → String
  | exclusive => "exclusive"
  | perPath => "per_path"

def ofName? : String → Option Concurrency
  | "exclusive" => some exclusive
  | "per_path" => some perPath
  | _ => none

def ofJson? (json : Json) : Option Concurrency := json.alternative?.bind ofName?

end Concurrency

namespace LogLevel

def name : LogLevel → String
  | trace => "trace"
  | debug => "debug"
  | info => "info"
  | warn => "warn"
  | error => "error"

def ofName? : String → Option LogLevel
  | "trace" => some trace
  | "debug" => some debug
  | "info" => some info
  | "warn" => some warn
  | "error" => some error
  | _ => none

def ofJson? (json : Json) : Option LogLevel := json.alternative?.bind ofName?

end LogLevel

def Phase.ofName? (name : String) : Option Phase := Phase.all.find? fun phase ↦ phase.name = name

namespace LogSettings

def phasesOfJson? : Json → Option (List (Phase × LogLevel))
  | .object fields => fields.mapM fun (name, value) ↦ do
      return (← Phase.ofName? name, ← LogLevel.ofJson? value)
  | _ => none

def ofJson? (json : Json) : Option LogSettings := do
  let fields ← json.record? ["global", "phases"]
  return {
    level := ← Json.fieldOr fields "global" LogLevel.ofJson? .info
    phases := ← Json.fieldOr fields "phases" phasesOfJson? [] }

def toJson (settings : LogSettings) : Json :=
  .object [
    ("global", .text settings.level.name),
    ("phases", .object (settings.phases.map fun (phase, level) ↦ (phase.name, .text level.name)))]

end LogSettings

namespace PageSettings

def ofJson? (json : Json) : Option PageSettings := do
  let fields ← json.record? ["compiler", "retry", "limits", "concurrency", "log"]
  return {
    compiler := ← Json.fieldOr fields "compiler" CompilerSettings.ofJson? {}
    retry := ← Json.fieldOr fields "retry" RetrySettings.ofJson? {}
    limits := ← Json.fieldOr fields "limits" LimitSettings.ofJson? {}
    concurrency := ← Json.fieldOr fields "concurrency" Concurrency.ofJson? .exclusive
    log := ← Json.fieldOr fields "log" LogSettings.ofJson? {} }

def toJson (settings : PageSettings) : Json :=
  .object [
    ("compiler", settings.compiler.toJson),
    ("retry", settings.retry.toJson),
    ("limits", settings.limits.toJson),
    ("concurrency", .text settings.concurrency.name),
    ("log", settings.log.toJson)]

end PageSettings

end PageScript
