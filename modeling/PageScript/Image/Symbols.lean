import PageScript.Diagnostic
import PageScript.Image.Header

/-!
# Debug symbols

A stream beside a module image that says where its instructions come from: the documents involved,
with their texts if these were kept, and for each class the points at which instructions start. The
build id ties the stream to its image.
-/

namespace PageScript

inductive DocumentKind where
  | generated
  | markup
  deriving DecidableEq, Repr, Inhabited

structure Document where
  path : String
  kind : DocumentKind
  text : Option String := none
  deriving DecidableEq, Repr, Inhabited

/-- From the instruction with this number on, code stands for this place. -/
structure SequencePoint where
  instruction : UInt32
  document : UInt32
  line : UInt32
  column : UInt32
  deriving DecidableEq, Repr, Inhabited

structure ClassSymbols where
  className : String
  points : List SequencePoint := []
  deriving DecidableEq, Repr, Inhabited

structure DebugSymbols where
  buildId : BuildId := .zero
  moduleName : String
  documents : List Document := []
  classes : List ClassSymbols := []
  deriving DecidableEq, Inhabited

namespace DocumentKind

def tag : DocumentKind → UInt8
  | generated => 1
  | markup => 2

def ofTag? (tag : UInt8) : Option DocumentKind :=
  if tag = 1 then some generated else if tag = 2 then some markup else none

end DocumentKind

namespace DebugSymbols

/-! ## Documents and places -/

def document? (symbols : DebugSymbols) (path : String) : Option Document :=
  symbols.documents.find? fun document ↦ document.path = path

/-- The number of the document at a path, which is added if there is none. -/
def documentIndex (symbols : DebugSymbols) (path : String) (kind : DocumentKind) :
    Nat × DebugSymbols :=
  match symbols.documents.findIdx? fun document ↦ document.path = path with
  | some index => (index, symbols)
  | none =>
    (symbols.documents.length,
      { symbols with documents := symbols.documents ++ [{ path, kind }] })

/-- The last point at or before an instruction tells its place. -/
def locate (symbols : DebugSymbols) (className : String) (instruction : Nat) : Option Location := do
  let entry ← symbols.classes.find? fun entry ↦ entry.className = className
  let point ← entry.points.reverse.find? fun point ↦ point.instruction.toNat ≤ instruction
  let document ← symbols.documents[point.document.toNat]?
  return ⟨document.path, point.line.toNat, point.column.toNat⟩

/-! ## Encoding -/

def magic : Bytes := [0x4b, 0x50, 0x47, 0x53]

def formatVersion : UInt16 := 1

def encodeDocument (document : Document) : Bytes :=
  [document.kind.tag, if document.text.isSome then 1 else 0] ++ Wire.text document.path ++
    (document.text.map Wire.text).getD []

def encodePoint (point : SequencePoint) : Bytes :=
  Wire.bytesOf32 point.instruction ++ Wire.bytesOf32 point.document ++
    Wire.bytesOf32 point.line ++ Wire.bytesOf32 point.column

def encodeClass (entry : ClassSymbols) : Bytes :=
  Wire.text entry.className ++ Wire.list encodePoint entry.points

def encode (symbols : DebugSymbols) : Bytes :=
  magic ++ Wire.bytesOf16 formatVersion ++ symbols.buildId.bytes ++ Wire.text symbols.moduleName ++
    Wire.list encodeDocument symbols.documents ++ Wire.list encodeClass symbols.classes

/-! ## Decoding -/

inductive Error where
  | invalidMagic
  | unsupportedVersion (version : UInt16)
  | invalidDocumentKind (tag : UInt8)
  | wire (error : Wire.Error)
  deriving DecidableEq, Repr, Inhabited

def Error.message : Error → String
  | invalidMagic => "invalid symbol stream magic"
  | unsupportedVersion version => s!"unsupported symbol stream version {version}"
  | invalidDocumentKind tag => s!"invalid document kind {tag}"
  | wire error => s!"malformed symbol stream: {error.message}"

/-- The name of the cause, after that of the part it lies in. -/
def Error.kind : Error → String
  | invalidMagic => "InvalidMagic"
  | unsupportedVersion _ => "UnsupportedVersion"
  | invalidDocumentKind _ => "InvalidDocumentKind"
  | wire error => "Codec." ++ error.kind

abbrev Reader := Wire.ReaderOf Error

def lift {α : Type} (reader : Wire.Reader α) : Reader α := reader.lift .wire

def kindReader : Reader DocumentKind := do
  let tag ← lift Wire.Reader.u8
  match DocumentKind.ofTag? tag with
  | some kind => return kind
  | none => throw (.invalidDocumentKind tag)

def documentReader : Reader Document := do
  let kind ← kindReader
  let hasText ← lift Wire.Reader.u8
  let path ← lift Wire.Reader.text
  if hasText = 0 then return { path, kind }
  else
    let text ← lift Wire.Reader.text
    return { path, kind, text := some text }

def pointReader : Wire.Reader SequencePoint :=
  return {
    instruction := ← Wire.Reader.u32
    document := ← Wire.Reader.u32
    line := ← Wire.Reader.u32
    column := ← Wire.Reader.u32 }

def classReader : Wire.Reader ClassSymbols :=
  return {
    className := ← Wire.Reader.text
    points := ← Wire.Reader.list pointReader }

def reader : Reader DebugSymbols := do
  let start ← lift (Wire.Reader.block 4)
  if start ≠ magic then throw .invalidMagic
  let version ← lift Wire.Reader.u16
  if version ≠ formatVersion then throw (.unsupportedVersion version)
  let buildId ← lift (Wire.Reader.block 16)
  let moduleName ← lift Wire.Reader.text
  let count ← lift Wire.Reader.u32
  let documents ← Wire.Reader.times documentReader count.toNat
  let classes ← lift (Wire.Reader.list classReader)
  return { buildId := .ofBytes buildId, moduleName, documents, classes }

/-- Bytes behind the stream do not matter. -/
def decode (bytes : Bytes) : Except Error DebugSymbols := Wire.Reader.run reader bytes

end DebugSymbols

end PageScript
