import PageScript.Wire

/-!
# Sections

The directory of a module image has an entry of twelve bytes for each section: its kind, three bytes
of padding, its place and its size.
-/

namespace PageScript.Image

inductive SectionKind where
  | moduleInfo
  | stringPool
  | typeRefs
  | classTable
  | code
  deriving DecidableEq, Repr, Inhabited

namespace SectionKind

def all : List SectionKind := [moduleInfo, stringPool, typeRefs, classTable, code]

def tag : SectionKind → UInt8
  | moduleInfo => 1
  | stringPool => 2
  | typeRefs => 3
  | classTable => 4
  | code => 5

def ofTag? (tag : UInt8) : Option SectionKind := all.find? fun kind ↦ kind.tag = tag

def name : SectionKind → String
  | moduleInfo => "ModuleInfo"
  | stringPool => "StringPool"
  | typeRefs => "TypeRefs"
  | classTable => "ClassTable"
  | code => "Code"

end SectionKind

inductive SectionError where
  | tooShort
  | invalidKind (tag : UInt8)
  deriving DecidableEq, Repr, Inhabited

def SectionError.message : SectionError → String
  | tooShort => "section directory too short"
  | invalidKind tag => s!"invalid section kind 0x{Bytes.toHex [tag]}"

/-- The name of the cause. -/
def SectionError.kind : SectionError → String
  | tooShort => "TooShort"
  | invalidKind _ => "InvalidKind"

structure SectionEntry where
  kind : SectionKind
  offset : UInt32
  size : UInt32
  deriving DecidableEq, Repr, Inhabited

namespace SectionEntry

/-- Bytes of an entry. -/
def width : Nat := 12

def start (entry : SectionEntry) : Nat := entry.offset.toNat

def stop (entry : SectionEntry) : Nat := entry.offset.toNat + entry.size.toNat

def encode (entry : SectionEntry) : Bytes :=
  [entry.kind.tag, 0, 0, 0] ++ Wire.bytesOf32 entry.offset ++ Wire.bytesOf32 entry.size

def decode : Bytes → Except SectionError SectionEntry
  | tag :: _ :: _ :: _ :: o0 :: o1 :: o2 :: o3 :: s0 :: s1 :: s2 :: s3 :: _ =>
    match SectionKind.ofTag? tag with
    | none => .error (.invalidKind tag)
    | some kind => .ok ⟨kind, Wire.word32 o0 o1 o2 o3, Wire.word32 s0 s1 s2 s3⟩
  | _ => .error .tooShort

end SectionEntry

namespace Directory

def encode (entries : List SectionEntry) : Bytes := entries.flatMap SectionEntry.encode

def decodeEntries : Nat → Bytes → Except SectionError (List SectionEntry)
  | 0, _ => .ok []
  | n + 1, bytes => do
    let entry ← SectionEntry.decode bytes
    let entries ← decodeEntries n (bytes.drop SectionEntry.width)
    return entry :: entries

/-- As many entries as `count` says. -/
def decode (bytes : Bytes) (count : Nat) : Except SectionError (List SectionEntry) :=
  if bytes.length < count * SectionEntry.width then .error .tooShort
  else decodeEntries count bytes

end Directory

end PageScript.Image
