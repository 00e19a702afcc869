import PageScript.Wire

/-!
# Instructions

The code of a class: one byte for the operation, then its operands as words. Operands are indices
into the tables of the module image, or slots for locals.
-/

namespace PageScript

inductive Instruction where
  /-- Append a text of the string pool. -/
  | write (text : UInt32)
  /-- Create a component in a slot. -/
  | create (type slot : UInt32)
  /-- Set a property of the component in a slot. -/
  | assign (slot property value : UInt32)
  /-- Append what the component in a slot renders. -/
  | render (slot : UInt32)
  /-- Run another class of the module. -/
  | embed (classIndex : UInt32)
  | stop
  deriving DecidableEq, Repr, Inhabited

namespace Instruction

inductive Opcode where
  | write
  | create
  | assign
  | render
  | embed
  | stop
  deriving DecidableEq, Repr, Inhabited

namespace Opcode

def byte : Opcode → UInt8
  | write => 1
  | create => 2
  | assign => 3
  | render => 4
  | embed => 5
  | stop => 6

def ofByte? (b : UInt8) : Option Opcode :=
  [write, create, assign, render, embed, stop].find? fun opcode ↦ opcode.byte = b

def operandCount : Opcode → Nat
  | write => 1
  | create => 2
  | assign => 3
  | render => 1
  | embed => 1
  | stop => 0

end Opcode

def opcode : Instruction → Opcode
  | write _ => .write
  | create _ _ => .create
  | assign _ _ _ => .assign
  | render _ => .render
  | embed _ => .embed
  | stop => .stop

def operands : Instruction → List UInt32
  | write text => [text]
  | create type slot => [type, slot]
  | assign slot property value => [slot, property, value]
  | render slot => [slot]
  | embed classIndex => [classIndex]
  | stop => []

def ofOperands? : Opcode → List UInt32 → Option Instruction
  | .write, [text] => some (write text)
  | .create, [type, slot] => some (create type slot)
  | .assign, [slot, property, value] => some (assign slot property value)
  | .render, [slot] => some (render slot)
  | .embed, [classIndex] => some (embed classIndex)
  | .stop, [] => some stop
  | _, _ => none

def encode (instruction : Instruction) : Bytes :=
  instruction.opcode.byte :: instruction.operands.flatMap Wire.bytesOf32

def encodeAll (instructions : List Instruction) : Bytes := instructions.flatMap encode

/-! ## Decoding -/

inductive DecodeError where
  | invalidOpcode (opcode : UInt8) (offset : Nat)
  | truncated (offset : Nat)
  deriving DecidableEq, Repr, Inhabited

def DecodeError.message : DecodeError → String
  | invalidOpcode opcode offset =>
    s!"invalid opcode 0x{Bytes.toHex [opcode]} at offset {offset}"
  | truncated offset => s!"truncated instruction at offset {offset}"

/-- The name of the cause. -/
def DecodeError.kind : DecodeError → String
  | invalidOpcode _ _ => "InvalidOpcode"
  | truncated _ => "Truncated"

/-- The first words of a byte string. -/
def words? : Nat → Bytes → Option (List UInt32)
  | 0, _ => some []
  | n + 1, b0 :: b1 :: b2 :: b3 :: rest => (words? n rest).map (Wire.word32 b0 b1 b2 b3 :: ·)
  | _, _ => none

/-- Instructions up to the end of the bytes, the first of which lies at `offset`. -/
def decodeFrom (offset : Nat) : Bytes → Except DecodeError (List Instruction)
  | [] => .ok []
  | b :: rest =>
    match Opcode.ofByte? b with
    | none => .error (.invalidOpcode b offset)
    | some opcode =>
      let length := 4 * opcode.operandCount
      match (words? opcode.operandCount rest).bind (ofOperands? opcode) with
      | none => .error (.truncated offset)
      | some instruction =>
        (decodeFrom (offset + 1 + length) (rest.drop length)).map (instruction :: ·)
termination_by bytes => bytes.length
decreasing_by simp only [List.length_cons, List.length_drop]; omega

def decodeAll (code : Bytes) : Except DecodeError (List Instruction) := decodeFrom 0 code

end Instruction

end PageScript
