import PageScript.Image.Header
import PageScript.Image.Section

/-!
# Section containers

A header, the sections with each start on a multiple of eight, and the directory. The build id in
the header covers everything between the header and the directory.
-/

namespace PageScript.Image

inductive ReadError where
  | header (error : HeaderError)
  | directory (error : SectionError)
  | wire (error : Wire.Error)
  | invalidOffset
  | invalidSectionSize (kind : SectionKind)
  | checksumMismatch
  | sectionNotFound (kind : SectionKind)
  | invalidIndex (table : String) (index : Nat)
  deriving DecidableEq, Repr, Inhabited

def ReadError.message : ReadError → String
  | header error => s!"header error: {error.message}"
  | directory error => s!"section error: {error.message}"
  | wire error => s!"malformed section data: {error.message}"
  | invalidOffset => "section directory out of bounds"
  | invalidSectionSize kind => s!"section {kind.name} out of bounds"
  | checksumMismatch => "build id mismatch: image content is corrupted"
  | sectionNotFound kind => s!"section not found: {kind.name}"
  | invalidIndex table index => s!"{table} index {index} out of range"

/-- The name of the cause, after that of the part it lies in. -/
def ReadError.kind : ReadError → String
  | header error => "Header." ++ error.kind
  | directory error => "Section." ++ error.kind
  | wire error => "Codec." ++ error.kind
  | invalidOffset => "InvalidOffset"
  | invalidSectionSize _ => "InvalidSectionSize"
  | checksumMismatch => "ChecksumMismatch"
  | sectionNotFound _ => "SectionNotFound"
  | invalidIndex _ _ => "InvalidIndex"

/-! ## Writing -/

/-- Zeros that fill up to a multiple of eight. -/
def padding (position : Nat) : Bytes := List.replicate ((8 - position % 8) % 8) 0

/-- Entries and content of sections that are laid out from `position` on, up to the directory. -/
def layout (position : Nat) : List (SectionKind × Bytes) → List SectionEntry × Bytes
  | [] => ([], padding position)
  | (kind, payload) :: rest =>
    let start := position + (padding position).length
    let (entries, content) := layout (start + payload.length) rest
    (⟨kind, UInt32.ofNat start, UInt32.ofNat payload.length⟩ :: entries,
      padding position ++ payload ++ content)

structure Written where
  entries : List SectionEntry
  bytes : Bytes
  buildId : BuildId

def write (buildMode : BuildMode) (flags : UInt8) (sections : List (SectionKind × Bytes)) :
    Written :=
  let (entries, content) := layout Header.size sections
  let buildId := BuildId.ofContent content
  let header : Header := {
    buildMode, flags, buildId
    sectionCount := UInt16.ofNat entries.length
    directoryOffset := UInt32.ofNat (Header.size + content.length) }
  { entries, buildId, bytes := header.encode ++ content ++ Directory.encode entries }

/-! ## Reading -/

structure Container where
  header : Header
  entries : List SectionEntry
  data : Bytes

namespace Container

/-- Bytes from `start` up to `stop`. -/
def slice (data : Bytes) (start stop : Nat) : Bytes := (data.drop start).take (stop - start)

/-- Checks in this order: header, place of the directory, its entries, the place of each section,
and the build id. -/
def read (data : Bytes) : Except ReadError Container := do
  let header ← (Header.decode data).mapError .header
  let start := header.directoryOffset.toNat
  let stop := start + header.sectionCount.toNat * SectionEntry.width
  if start < Header.size ∨ data.length < stop then throw .invalidOffset
  let entries ← (Directory.decode (slice data start stop) header.sectionCount.toNat).mapError
    .directory
  match entries.find? fun entry ↦ entry.start < Header.size || start < entry.stop with
  | some entry => throw (.invalidSectionSize entry.kind)
  | none =>
    if BuildId.ofContent (slice data Header.size start) ≠ header.buildId then
      throw .checksumMismatch
    return { header, entries, data }

/-- The first section of a kind. -/
def section? (container : Container) (kind : SectionKind) : Except ReadError Bytes :=
  match container.entries.find? fun entry ↦ entry.kind = kind with
  | some entry => .ok (slice container.data entry.start entry.stop)
  | none => .error (.sectionNotFound kind)

end Container

end PageScript.Image
