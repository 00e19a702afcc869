import PageScript.Binding.Tree
import PageScript.Image
import PageScript.Image.Instruction
import PageScript.Image.Symbols

/-!
# Emission

A bound module becomes an image and debug symbols. Texts and types are pooled in order of first use,
and every class has one block of code that ends in a stop. The image depends on the statements
alone, the symbols on their number and places alone.
-/

namespace PageScript

/-- A file with its text. -/
structure SourceText where
  path : String
  text : String
  deriving DecidableEq, Repr, Inhabited

namespace Emission

structure Options where
  moduleName : String
  buildMode : BuildMode
  emitSymbols : Bool
  embedMarkup : Bool
  deriving DecidableEq, Repr, Inhabited

/-! ## Merging writes -/

/-- Every run of writes becomes one write with all their texts, at the place of the first. -/
def mergeWrites : List BoundStatement → List BoundStatement
  | [] => []
  | stmt :: rest =>
    match stmt.op, mergeWrites rest with
    | .write text, ⟨.write more, _⟩ :: merged => ⟨.write (text ++ more), stmt.location⟩ :: merged
    | _, merged => stmt :: merged

/-- The body of a class as it is emitted. -/
def emittedBody (buildMode : BuildMode) (body : List BoundStatement) : List BoundStatement :=
  match buildMode with
  | .debug => body
  | .release => mergeWrites body

/-! ## Pools -/

/-- The place of a value in a pool, to which it is added if it is new. -/
def intern {α : Type} [BEq α] (pool : List α) (value : α) : Nat × List α :=
  match pool.idxOf? value with
  | some index => (index, pool)
  | none => (pool.length, pool ++ [value])

/-- Pooled texts and types, and for each type the places of its names. -/
structure Pools where
  strings : List String := []
  types : List TypeName := []
  entries : List Image.TypeEntry := []
  deriving DecidableEq, Repr, Inhabited

namespace Pools

def text (pools : Pools) (value : String) : UInt32 × Pools :=
  let (index, strings) := intern pools.strings value
  (UInt32.ofNat index, { pools with strings })

def type (pools : Pools) (value : TypeName) : UInt32 × Pools :=
  match pools.types.idxOf? value with
  | some index => (UInt32.ofNat index, pools)
  | none =>
    let (module, pools) := pools.text value.module
    let (name, pools) := pools.text value.name
    (UInt32.ofNat pools.types.length,
      { pools with types := pools.types ++ [value], entries := pools.entries ++ [⟨module, name⟩] })

end Pools

/-! ## Code -/

/-- The number of a class; of several classes with one name the last counts, and a name without
class has the largest number. -/
def classNumber (classes : List String) (name : String) : UInt32 :=
  match classes.reverse.idxOf? name with
  | some index => UInt32.ofNat (classes.length - 1 - index)
  | none => 0xffffffff

def lower (classes : List String) (pools : Pools) : BoundStatement.Op → Instruction × Pools
  | .write value =>
    let (text, pools) := pools.text value
    (.write text, pools)
  | .create value slot =>
    let (type, pools) := pools.type value
    (.create type (UInt32.ofNat slot), pools)
  | .assign slot property value =>
    let (property, pools) := pools.text property
    let (value, pools) := pools.text value
    (.assign (UInt32.ofNat slot) property value, pools)
  | .render slot => (.render (UInt32.ofNat slot), pools)
  | .embed className => (.embed (classNumber classes className), pools)

def lowerBody (classes : List String) (pools : Pools) :
    List BoundStatement → List Instruction × Pools
  | [] => ([.stop], pools)
  | stmt :: rest =>
    let (instruction, pools) := lower classes pools stmt.op
    let (instructions, pools) := lowerBody classes pools rest
    (instruction :: instructions, pools)

/-- Classes from the code offset `offset` on: their entries, their code, and the pools behind
them. -/
def emitClasses (buildMode : BuildMode) (classes : List String) (pools : Pools) (offset : Nat) :
    List BoundClass → List Image.ClassEntry × Bytes × Pools
  | [] => ([], [], pools)
  | current :: rest =>
    let (instructions, pools) := lowerBody classes pools (emittedBody buildMode current.body)
    let code := Instruction.encodeAll instructions
    let (name, pools) := pools.text current.name
    let (base, pools) := pools.type current.base
    let (entries, more, pools) := emitClasses buildMode classes pools (offset + code.length) rest
    let entry : Image.ClassEntry := {
      name, base
      slotCount := UInt32.ofNat current.slotCount
      codeOffset := UInt32.ofNat offset
      codeLength := UInt32.ofNat code.length }
    (entry :: entries, code ++ more, pools)

def flags (options : Options) : UInt8 :=
  (if options.buildMode = .release then Image.Header.mergedFlag else 0) |||
    (if options.emitSymbols then Image.Header.symbolsFlag else 0)

def image (module : BoundModule) (options : Options) : ModuleImage :=
  let (classes, code, pools) :=
    emitClasses options.buildMode (module.classes.map BoundClass.name) {} 0 module.classes
  { name := options.moduleName
    buildMode := options.buildMode
    flags := flags options
    strings := pools.strings
    types := pools.entries
    classes, code }

/-! ## Symbols -/

/-- A document for a file, with its text if that is to be kept. -/
def addSource (kind : DocumentKind) (keep : Bool) (symbols : DebugSymbols) (source : SourceText) :
    DebugSymbols :=
  let (index, symbols) := symbols.documentIndex source.path kind
  if keep then
    { symbols with documents :=
        symbols.documents.modify index fun document ↦ { document with text := some source.text } }
  else symbols

/-- Points for statements, the first of which has the number `instruction`. -/
def addPoints (symbols : DebugSymbols) (instruction : Nat) :
    List BoundStatement → List SequencePoint × DebugSymbols
  | [] => ([], symbols)
  | stmt :: rest =>
    let (document, symbols) := symbols.documentIndex stmt.location.path .markup
    let (points, symbols) := addPoints symbols (instruction + 1) rest
    ({ instruction := UInt32.ofNat instruction
       document := UInt32.ofNat document
       line := UInt32.ofNat stmt.location.line
       column := UInt32.ofNat stmt.location.column } :: points, symbols)

def addClass (buildMode : BuildMode) (symbols : DebugSymbols) (current : BoundClass) :
    DebugSymbols :=
  let (points, symbols) := addPoints symbols 0 (emittedBody buildMode current.body)
  { symbols with classes := symbols.classes ++ [{ className := current.name, points }] }

/-- Documents for the generated scripts come first, then those for the markup. -/
def symbols (module : BoundModule) (generated markup : List SourceText) (options : Options) :
    DebugSymbols :=
  let start : DebugSymbols := { moduleName := options.moduleName }
  let start := generated.foldl (addSource .generated options.emitSymbols) start
  let start := markup.foldl (addSource .markup options.embedMarkup) start
  module.classes.foldl (addClass options.buildMode) start

end Emission

end PageScript
