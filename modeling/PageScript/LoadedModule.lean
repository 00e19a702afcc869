import PageScript.Image
import PageScript.Image.Instruction
import PageScript.Image.Symbols

/-!
# Loaded modules

A module image decoded into code that can run, with its debug symbols if there are any. Loading
checks every operand, so that running the code needs no further checks.
-/

namespace PageScript

open Image (ReadError)

/-- What is wrong with an operand. -/
inductive OperandFault where
  | table (error : ReadError)
  | slot (number count : UInt32)
  | unknownClass (index : UInt32)
  deriving DecidableEq, Repr, Inhabited

def OperandFault.message : OperandFault → String
  | table error => error.message
  | slot number count => s!"slot {number} out of range ({count} slots)"
  | unknownClass index => s!"include of unknown class {index}"

inductive LoadError where
  | io (text : String)
  | image (error : ReadError)
  | symbols (error : DebugSymbols.Error)
  | symbolMismatch (imageId symbolsId : BuildId)
  | code (className : String) (error : Instruction.DecodeError)
  | invalidOperand (className : String) (fault : OperandFault)
  deriving DecidableEq

def LoadError.message : LoadError → String
  | io text => s!"could not read module stream: {text}"
  | image error => s!"invalid module image: {error.message}"
  | symbols error => s!"invalid symbol stream: {error.message}"
  | symbolMismatch imageId symbolsId =>
    s!"symbol stream belongs to build {symbolsId.display}, image is build {imageId.display}"
  | code className error => s!"invalid code in class '{className}': {error.message}"
  | invalidOperand className fault => s!"class '{className}': {fault.message}"

/-- The name of the cause, after that of the part it lies in. -/
def LoadError.kind : LoadError → String
  | io _ => "Io"
  | image error => "Image." ++ error.kind
  | symbols error => "Symbols." ++ error.kind
  | symbolMismatch _ _ => "SymbolMismatch"
  | code _ error => "Code." ++ error.kind
  | invalidOperand _ _ => "InvalidOperand"

structure LoadedModule where
  image : ModuleImage
  buildId : BuildId
  /-- The code of each class. -/
  code : List (List Instruction)
  symbols : Option DebugSymbols
  deriving DecidableEq

namespace LoadedModule

/-! ## Loading -/

def checkText (image : ModuleImage) (index : UInt32) : Except OperandFault Unit :=
  (discard (image.string index)).mapError .table

def checkType (image : ModuleImage) (index : UInt32) : Except OperandFault Unit :=
  (discard (image.typeAt index)).mapError .table

def checkSlot (slots slot : UInt32) : Except OperandFault Unit :=
  if slot < slots then .ok () else .error (.slot slot slots)

def checkOperands (image : ModuleImage) (slots : UInt32) : Instruction → Except OperandFault Unit
  | .write text => checkText image text
  | .create type slot => do
    checkType image type
    checkSlot slots slot
  | .assign slot property value => do
    checkSlot slots slot
    checkText image property
    checkText image value
  | .render slot => checkSlot slots slot
  | .embed index =>
    if index.toNat < image.classes.length then .ok () else .error (.unknownClass index)
  | .stop => .ok ()

def loadSymbols (buildId : BuildId) (bytes : Bytes) : Except LoadError DebugSymbols := do
  let symbols ← (DebugSymbols.decode bytes).mapError .symbols
  if symbols.buildId ≠ buildId then throw (.symbolMismatch buildId symbols.buildId)
  return symbols

/-- Code of the class with number `index`. -/
def loadClass (image : ModuleImage) (index : Nat) : Except LoadError (List Instruction) := do
  let entry ← (image.classAt index).mapError .image
  let name ← (image.className index).mapError .image
  let bytes ← (image.classCode index).mapError .image
  let code ← (Instruction.decodeAll bytes).mapError (.code name)
  (code.forM (checkOperands image entry.slotCount)).mapError (.invalidOperand name)
  return code

def ofBytes (image : Bytes) (symbols : Option Bytes) : Except LoadError LoadedModule := do
  let (image, buildId) ← (ModuleImage.decode image).mapError .image
  let symbols ← symbols.mapM (loadSymbols buildId)
  let code ← (List.range image.classes.length).mapM (loadClass image)
  return { image, buildId, code, symbols }

/-- Loading from streams, each of which is read to its end first. A stream that fails gives a
text. -/
def ofStreams (image : Except String Bytes) (symbols : Option (Except String Bytes)) :
    Except LoadError LoadedModule := do
  let image ← image.mapError .io
  let symbols ← symbols.mapM (Except.mapError .io)
  ofBytes image symbols

/-! ## Looking into a module -/

def name (module : LoadedModule) : String := module.image.name

def classCount (module : LoadedModule) : Nat := module.code.length

def findClass (module : LoadedModule) (name : String) : Option Nat := module.image.findClass name

def className (module : LoadedModule) (index : Nat) : Except ReadError String :=
  module.image.className index

def instructions (module : LoadedModule) (index : Nat) : List Instruction :=
  module.code.getD index []

def slotCount (module : LoadedModule) (index : Nat) : Nat :=
  ((module.image.classes[index]?).map fun entry ↦ entry.slotCount.toNat).getD 0

/-- Module and name of the base type of a class. -/
def baseType (module : LoadedModule) (index : Nat) : Except ReadError (String × String) := do
  module.image.typeAt (← module.image.classAt index).base

/-- The place an instruction comes from, if there are symbols. -/
def locate (module : LoadedModule) (index instruction : Nat) : Option Location := do
  let name ← (module.className index).toOption
  (← module.symbols).locate name instruction

end LoadedModule

end PageScript
