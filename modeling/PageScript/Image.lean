import PageScript.Image.Container

/-!
# Module images

A compiled module: its name, a pool of texts, the types and classes it names through the pool, and
the code of all classes. Texts, types and classes refer to each other by index; reading an image
checks every index once, so that nothing that comes later has to.
-/

namespace PageScript

namespace Image

structure TypeEntry where
  /-- Index into the string pool. -/
  module : UInt32
  /-- Index into the string pool. -/
  name : UInt32
  deriving DecidableEq, Repr, Inhabited

structure ClassEntry where
  /-- Index into the string pool. -/
  name : UInt32
  /-- Index into the types. -/
  base : UInt32
  slotCount : UInt32
  codeOffset : UInt32
  codeLength : UInt32
  deriving DecidableEq, Repr, Inhabited

end Image

open Image

structure ModuleImage where
  name : String
  buildMode : BuildMode
  flags : UInt8 := 0
  strings : List String := []
  types : List TypeEntry := []
  classes : List ClassEntry := []
  code : Bytes := []
  deriving DecidableEq, Repr, Inhabited

namespace ModuleImage

def hasSymbols (image : ModuleImage) : Bool := image.flags &&& Header.symbolsFlag ≠ 0

def hasMergedWrites (image : ModuleImage) : Bool := image.flags &&& Header.mergedFlag ≠ 0

/-! ## Tables -/

def string (image : ModuleImage) (index : UInt32) : Except ReadError String :=
  match image.strings[index.toNat]? with
  | some value => .ok value
  | none => .error (.invalidIndex "string pool" index.toNat)

/-- Module and name of a type. -/
def typeAt (image : ModuleImage) (index : UInt32) : Except ReadError (String × String) :=
  match image.types[index.toNat]? with
  | some entry => do return (← image.string entry.module, ← image.string entry.name)
  | none => .error (.invalidIndex "type reference" index.toNat)

/-- An index that is too large is reported by its last 32 bits. -/
def classAt (image : ModuleImage) (index : Nat) : Except ReadError ClassEntry :=
  match image.classes[index]? with
  | some entry => .ok entry
  | none => .error (.invalidIndex "class" (index % UInt32.size))

def className (image : ModuleImage) (index : Nat) : Except ReadError String := do
  image.string (← image.classAt index).name

def hasName (image : ModuleImage) (name : String) (entry : ClassEntry) : Bool :=
  match image.string entry.name with
  | .ok found => found = name
  | .error _ => false

/-- The first class of a name. -/
def findClass (image : ModuleImage) (name : String) : Option Nat :=
  image.classes.findIdx? (image.hasName name)

def classCode (image : ModuleImage) (index : Nat) : Except ReadError Bytes := do
  let entry ← image.classAt index
  let start := entry.codeOffset.toNat
  let stop := start + entry.codeLength.toNat
  if stop ≤ image.code.length then return Container.slice image.code start stop
  else throw (.invalidSectionSize .code)

/-! ## Encoding -/

def encodeType (entry : TypeEntry) : Bytes :=
  Wire.bytesOf32 entry.module ++ Wire.bytesOf32 entry.name

def encodeClass (entry : ClassEntry) : Bytes :=
  Wire.bytesOf32 entry.name ++ Wire.bytesOf32 entry.base ++ Wire.bytesOf32 entry.slotCount ++
    Wire.bytesOf32 entry.codeOffset ++ Wire.bytesOf32 entry.codeLength

def sections (image : ModuleImage) : List (SectionKind × Bytes) := [
  (.moduleInfo, Wire.text image.name),
  (.stringPool, Wire.list Wire.text image.strings),
  (.typeRefs, Wire.list encodeType image.types),
  (.classTable, Wire.list encodeClass image.classes),
  (.code, image.code)]

def encode (image : ModuleImage) : Bytes × BuildId :=
  let written := Image.write image.buildMode image.flags image.sections
  (written.bytes, written.buildId)

/-! ## Decoding -/

def typeReader : Wire.Reader TypeEntry :=
  return { module := ← Wire.Reader.u32, name := ← Wire.Reader.u32 }

def classReader : Wire.Reader ClassEntry :=
  return {
    name := ← Wire.Reader.u32
    base := ← Wire.Reader.u32
    slotCount := ← Wire.Reader.u32
    codeOffset := ← Wire.Reader.u32
    codeLength := ← Wire.Reader.u32 }

/-- Reads a section from its start; bytes behind what is read do not matter. -/
def readSection {α : Type} (container : Container) (kind : SectionKind)
    (reader : Wire.Reader α) : Except ReadError α := do
  (Wire.Reader.run reader (← container.section? kind)).mapError .wire

def checkType (image : ModuleImage) (entry : TypeEntry) : Except ReadError Unit := do
  discard (image.string entry.module)
  discard (image.string entry.name)

def checkClass (image : ModuleImage) (index : Nat) (entry : ClassEntry) :
    Except ReadError Unit := do
  discard (image.className index)
  discard (image.typeAt entry.base)
  discard (image.classCode index)

/-- Every index and every code range must be in range. The first that is not is reported, types
before classes. -/
def validate (image : ModuleImage) : Except ReadError Unit := do
  image.types.forM image.checkType
  image.classes.zipIdx.forM fun (entry, index) ↦ image.checkClass index entry

def decode (bytes : Bytes) : Except ReadError (ModuleImage × BuildId) := do
  let container ← Container.read bytes
  let name ← readSection container .moduleInfo Wire.Reader.text
  let strings ← readSection container .stringPool (Wire.Reader.list Wire.Reader.text)
  let types ← readSection container .typeRefs (Wire.Reader.list typeReader)
  let classes ← readSection container .classTable (Wire.Reader.list classReader)
  let code ← container.section? .code
  let image : ModuleImage := {
    name, strings, types, classes, code
    buildMode := container.header.buildMode
    flags := container.header.flags }
  image.validate
  return (image, container.header.buildId)

end ModuleImage

end PageScript
