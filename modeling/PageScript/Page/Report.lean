import PageScript.Page.Handle

/-!
# Reports

What the page compiler knows, as JSON for tools that look on: component facts, modules of the host,
projections, and handles with their entry points and failures. Something that is not there is
`null`.
-/

namespace PageScript

def Json.ofOption {α : Type} (toJson : α → Json) : Option α → Json
  | some value => toJson value
  | none => .null

def Json.ofList {α : Type} (toJson : α → Json) (list : List α) : Json := .array (list.map toJson)

def SourceText.toJson (source : SourceText) : Json :=
  .object [("path", .text source.path), ("text", .text source.text)]

def ComponentMetadata.toJson (metadata : ComponentMetadata) : Json :=
  .object [
    ("namespace", .text metadata.namespaceName),
    ("name", .text metadata.name),
    ("default_property", .ofOption .text metadata.defaultProperty),
    ("validation_property", .ofOption .text metadata.validationProperty),
    ("default_event", .ofOption .text metadata.defaultEvent),
    ("supports_event_validation", .bool metadata.supportsEventValidation),
    ("event_properties", .ofList .text metadata.eventProperties),
    ("string_properties", .ofList .text metadata.textProperties),
    ("other_properties", .ofList .text metadata.otherProperties),
    ("qualified_name", .text metadata.qualifiedName)]

def HostModule.toJson {κ : Type} (module : HostModule κ) : Json :=
  .object [
    ("id", .natural module.id),
    ("name", .text module.name),
    ("dynamic", .bool module.isDynamic),
    ("generation", .natural module.generation),
    ("components", .ofList (fun component ↦ .text component.descriptor.name) module.components),
    ("types", .ofList .text module.types)]

namespace Projection

def Result.toJson : Result → Json
  | fatal message => .object [("fatal", .text message)]
  | diagnostics list => .object [("diagnostics", .ofList Diagnostic.toJson list)]
  | success page =>
    .object [
      ("path", .text page.path),
      ("class", .text page.className),
      ("generated", .ofList SourceText.toJson page.generated),
      ("markup", .ofList SourceText.toJson page.markup)]

def toJson (projection : Projection) : Json :=
  .object [
    ("dependencies", .ofList .text projection.dependencies),
    ("result", projection.result.toJson)]

end Projection

/-- An entry point, and whether its unit is still there. -/
def EntryPoint.toJson {κ : Type} (entry : EntryPoint) (deployment : Deployment κ) : Json :=
  .object [
    ("class", .text entry.className),
    ("unit", .text entry.unitName),
    ("loaded", .bool (deployment.isLoaded entry))]

namespace PageFailure

def kind : PageFailure → String
  | markup _ => "Markup"
  | fatal _ => "Fatal"
  | compilation _ => "Compilation"
  | typeNotFound _ => "TypeNotFound"

/-- What only some failures have. -/
def details : PageFailure → List (String × Json)
  | fatal message => [("text", .text message)]
  | typeNotFound className => [("class", .text className)]
  | _ => []

def toJson (failure : PageFailure) : Json :=
  .object ([
    ("kind", .text failure.kind),
    ("diagnostics", .ofOption (.ofList Diagnostic.toJson) failure.diagnostics?)] ++
    failure.details)

end PageFailure

def PageHandle.toJson {κ : Type} (handle : PageHandle) (deployment : Deployment κ) : Json :=
  .object [
    ("success", .bool handle.isSuccess),
    ("path", .text handle.path),
    ("dependencies", .ofList .text handle.dependencies),
    ("warnings", .ofList Diagnostic.toJson handle.warnings),
    ("entry", .ofOption (·.toJson deployment) handle.entry?),
    ("failure", .ofOption PageFailure.toJson handle.failure?),
    ("payload", .ofOption (fun failure ↦ .text failure.payload) handle.failure?)]

end PageScript
