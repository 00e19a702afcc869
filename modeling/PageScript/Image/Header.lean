import PageScript.Digest
import PageScript.Settings
import PageScript.Wire

/-!
# Image headers

The first 32 bytes of a module image: magic number, version, build mode, flags, number of sections,
two reserved bytes, place of the section directory, and the build id. The build id is the first half
of the digest of the image's content.
-/

namespace PageScript

structure BuildId where
  bytes : Bytes
  length_bytes : bytes.length = 16
  deriving DecidableEq

namespace BuildId

/-- The first 16 bytes of a byte string, with zeros for what is missing. -/
def ofBytes (bytes : Bytes) : BuildId :=
  ⟨bytes.take 16 ++ List.replicate (16 - bytes.length) 0, by simp; omega⟩

def zero : BuildId := ofBytes []

def ofContent (content : Bytes) : BuildId := ofBytes (Digest.sha256 content)

def display (id : BuildId) : String := id.bytes.toHex

instance : Inhabited BuildId := ⟨zero⟩

theorem ofBytes_bytes (id : BuildId) : ofBytes id.bytes = id := by
  cases id with
  | mk bytes length => simp [ofBytes, ← length]

end BuildId

namespace Image

inductive HeaderError where
  | tooShort
  | invalidMagic
  | unsupportedVersion (version : UInt16)
  | invalidBuildMode (tag : UInt8)
  deriving DecidableEq, Repr, Inhabited

def HeaderError.message : HeaderError → String
  | tooShort => "header too short"
  | invalidMagic => "invalid magic number"
  | unsupportedVersion version => s!"unsupported format version {version}"
  | invalidBuildMode tag => s!"invalid build mode {tag}"

/-- The name of the cause. -/
def HeaderError.kind : HeaderError → String
  | tooShort => "TooShort"
  | invalidMagic => "InvalidMagic"
  | unsupportedVersion _ => "UnsupportedVersion"
  | invalidBuildMode _ => "InvalidBuildMode"

structure Header where
  version : UInt16 := 1
  buildMode : BuildMode
  flags : UInt8 := 0
  sectionCount : UInt16 := 0
  directoryOffset : UInt32 := 0
  buildId : BuildId := .zero
  deriving DecidableEq

namespace Header

/-- Bytes of a header. -/
def size : Nat := 32

def formatVersion : UInt16 := 1

def magic : Bytes := [0x4b, 0x50, 0x47, 0x4d]

/-- Flag of an image that has a symbol stream. -/
def symbolsFlag : UInt8 := 1

/-- Flag of an image whose adjacent writes were merged. -/
def mergedFlag : UInt8 := 2

def encode (header : Header) : Bytes :=
  magic ++ Wire.bytesOf16 header.version ++ [header.buildMode.tag, header.flags] ++
    Wire.bytesOf16 header.sectionCount ++ [0, 0] ++ Wire.bytesOf32 header.directoryOffset ++
    header.buildId.bytes

theorem length_encode (header : Header) : header.encode.length = size := by
  simp [encode, magic, header.buildId.length_bytes, size]

def decode : Bytes → Except HeaderError Header
  | m0 :: m1 :: m2 :: m3 :: v0 :: v1 :: mode :: flags :: c0 :: c1 :: _ :: _ ::
      o0 :: o1 :: o2 :: o3 :: rest =>
    if rest.length < 16 then .error .tooShort
    else if [m0, m1, m2, m3] ≠ magic then .error .invalidMagic
    else if Wire.word16 v0 v1 ≠ formatVersion then
      .error (.unsupportedVersion (Wire.word16 v0 v1))
    else match BuildMode.ofTag? mode with
      | none => .error (.invalidBuildMode mode)
      | some buildMode =>
        .ok {
          version := Wire.word16 v0 v1
          buildMode, flags
          sectionCount := Wire.word16 c0 c1
          directoryOffset := Wire.word32 o0 o1 o2 o3
          buildId := .ofBytes rest }
  | _ => .error .tooShort

end Header

end Image

end PageScript
