import PageScript.Image.Container

/-!
# Writing step by step

Flags and sections may come one at a time and in any order. A writer keeps the bytes so far, with
room for the header in front, and an entry for each section. The header is filled in last, when the
place of the directory and the build id are known.
-/

namespace PageScript.Image

structure Writer where
  buildMode : BuildMode
  flags : UInt8 := 0
  entries : List SectionEntry := []
  /-- Room for the header, then the sections so far. -/
  buffer : Bytes := List.replicate Header.size 0

namespace Writer

def setFlag (writer : Writer) (flag : UInt8) : Writer :=
  { writer with flags := writer.flags ||| flag }

def align (writer : Writer) : Writer :=
  { writer with buffer := writer.buffer ++ padding writer.buffer.length }

/-- Appends a section and tells where it starts. -/
def append (writer : Writer) (kind : SectionKind) (payload : Bytes) : UInt32 × Writer :=
  let writer := writer.align
  let offset := UInt32.ofNat writer.buffer.length
  (offset, { writer with
    entries := writer.entries ++ [⟨kind, offset, UInt32.ofNat payload.length⟩]
    buffer := writer.buffer ++ payload })

/-- The bytes that the build id covers, from the header up to the directory. -/
def hashed (writer : Writer) : Bytes :=
  Container.slice writer.align.buffer Header.size writer.align.buffer.length

/-- Appends the directory and puts the header in its place. -/
def finish (writer : Writer) : Written :=
  let aligned := writer.align
  let buildId := BuildId.ofContent writer.hashed
  let header : Header := {
    buildMode := aligned.buildMode
    flags := aligned.flags
    sectionCount := UInt16.ofNat aligned.entries.length
    directoryOffset := UInt32.ofNat aligned.buffer.length
    buildId }
  { entries := aligned.entries
    bytes := header.encode ++ (aligned.buffer ++ Directory.encode aligned.entries).drop Header.size
    buildId }

end Writer

end PageScript.Image
