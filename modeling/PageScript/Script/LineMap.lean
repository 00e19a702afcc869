import PageScript.Diagnostic
import PageScript.Script.Fault

/-!
# Line maps

A script says in directives which lines of which file its own lines stand for. A directive acts on
the lines below its own, until a later one takes over.
-/

namespace PageScript.Script

/-- The lines from `first` on stand for the lines of a file from a given one on, or for
themselves. -/
structure Remap where
  first : Nat
  target : Option (String × Nat)
  deriving DecidableEq, Repr, Inhabited

/-- Remaps, the latest first. -/
structure LineMap where
  remaps : List Remap := []
  deriving DecidableEq, Repr, Inhabited

namespace LineMap

def empty : LineMap := {}

def isEmpty (map : LineMap) : Bool := map.remaps.isEmpty

/-- A directive on line `line` that maps the next line to `target` of `path`. -/
def remap (map : LineMap) (line : Nat) (path : String) (target : Nat) : LineMap :=
  ⟨⟨line + 1, some (path, target)⟩ :: map.remaps⟩

/-- A directive on line `line` that ends the mapping. -/
def reset (map : LineMap) (line : Nat) : LineMap := ⟨⟨line + 1, none⟩ :: map.remaps⟩

/-- The line of a file that a line stands for. Lines of files are words of 32 bits. -/
def lookup (map : LineMap) (line : Nat) : Option (String × Nat) := do
  let remap ← map.remaps.find? fun remap ↦ remap.first ≤ line
  let (path, target) ← remap.target
  return (path, (target + (line - remap.first)) % UInt32.size)

/-- The place that is reported for a position of the script at `path`. -/
def locate (map : LineMap) (path : String) (position : Position) : Location :=
  match map.lookup position.line with
  | some (file, line) => ⟨file, line, position.column⟩
  | none => ⟨path, position.line, position.column⟩

end LineMap

namespace SyntaxError

def diagnostic (map : LineMap) (path : String) (error : SyntaxError) : Diagnostic :=
  (Diagnostic.error error.fault.id error.fault.message).locatedAt (map.locate path error.position)

end SyntaxError

/-! ## Directives -/

inductive Directive where
  | reset
  | remap (target : Nat) (path : Option String)
  deriving DecidableEq, Repr, Inhabited

namespace Directive

/-- A decimal number below 2^32, with or without a plus sign. -/
def lineNumber? (text : List Char) : Option Nat :=
  let digits := match text with
    | '+' :: rest => rest
    | _ => text
  if digits.isEmpty || !digits.all Char.isDigit then none
  else
    let value := digits.foldl (fun n c ↦ 10 * n + (c.toNat - '0'.toNat)) 0
    if value < UInt32.size then some value else none

def unquote? (text : List Char) : Option String :=
  if 2 ≤ text.length ∧ text.head? = some '"' ∧ text.getLast? = some '"' then
    some (String.ofList text.tail.dropLast)
  else none

/-- Reads what stands behind the hash sign. -/
def parse (text : List Char) : Except Fault Directive := do
  let (name, argument) := Text.cutAtBlank (Text.trim text)
  let argument := Text.trim (argument.getD [])
  if name ≠ "line".toList then throw .unknownDirective
  if argument = "default".toList then return .reset
  let (number, path) := Text.cutAtBlank argument
  match lineNumber? number with
  | none => throw .badLineNumber
  | some target =>
    match path with
    | none => return .remap target none
    | some path =>
      match unquote? (Text.trim path) with
      | none => throw .quotedPathExpected
      | some path => return .remap target (some path)

/-- The effect of a directive on line `line`. Without a path it stays with the file that its own
line is mapped to. -/
def apply (map : LineMap) (line : Nat) : Directive → Except Fault LineMap
  | reset => .ok (map.reset line)
  | remap target path =>
    let path := path.getD (((map.lookup line).map Prod.fst).getD "")
    if path.isEmpty then .error .quotedPathExpected else .ok (map.remap line path target)

end Directive

end PageScript.Script
