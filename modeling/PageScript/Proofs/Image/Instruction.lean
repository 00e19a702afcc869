import Mathlib.Data.List.Basic
import PageScript.Image.Instruction

/-!
# Code round trip

Instructions follow each other in code without separators. Each begins with a byte that tells how
many words belong to it, so that a list of instructions is read back from its code.
-/

namespace PageScript.Instruction

/-- No two opcodes have one byte. -/
theorem ofByte?_byte (opcode : Opcode) : Opcode.ofByte? opcode.byte = some opcode := by
  cases opcode <;> rfl

theorem ofByte?_eq_some_iff {byte : UInt8} {opcode : Opcode} :
    Opcode.ofByte? byte = some opcode ↔ opcode.byte = byte := by
  constructor
  · intro h
    simpa using List.find?_some h
  · rintro rfl
    exact ofByte?_byte opcode

/-- A byte is refused if it is that of no opcode. -/
theorem ofByte?_eq_none_iff {byte : UInt8} :
    Opcode.ofByte? byte = none ↔ ∀ opcode : Opcode, opcode.byte ≠ byte := by
  simp only [Option.eq_none_iff_forall_ne_some, ne_eq, ofByte?_eq_some_iff]

/-- An instruction has as many operands as its opcode says. -/
theorem length_operands (instruction : Instruction) :
    instruction.operands.length = instruction.opcode.operandCount := by
  cases instruction <;> rfl

/-- An instruction is made up of its opcode and its operands. -/
theorem ofOperands?_operands (instruction : Instruction) :
    ofOperands? instruction.opcode instruction.operands = some instruction := by
  cases instruction <;> rfl

/-- As many words as an opcode asks for make an instruction. -/
theorem exists_instruction {opcode : Opcode} {words : List UInt32}
    (h : words.length = opcode.operandCount) :
    ∃ instruction : Instruction, instruction.opcode = opcode ∧ instruction.operands = words := by
  cases opcode with
  | write =>
    obtain ⟨text, rfl⟩ := List.length_eq_one_iff.mp h
    exact ⟨.write text, rfl, rfl⟩
  | create =>
    obtain ⟨type, slot, rfl⟩ := List.length_eq_two.mp h
    exact ⟨.create type slot, rfl, rfl⟩
  | assign =>
    obtain ⟨slot, property, value, rfl⟩ := List.length_eq_three.mp h
    exact ⟨.assign slot property value, rfl, rfl⟩
  | render =>
    obtain ⟨slot, rfl⟩ := List.length_eq_one_iff.mp h
    exact ⟨.render slot, rfl, rfl⟩
  | embed =>
    obtain ⟨classIndex, rfl⟩ := List.length_eq_one_iff.mp h
    exact ⟨.embed classIndex, rfl, rfl⟩
  | stop =>
    obtain rfl := List.eq_nil_of_length_eq_zero h
    exact ⟨.stop, rfl, rfl⟩

/-- A known number of words is read back. -/
theorem words?_flatMap (words : List UInt32) (rest : Bytes) :
    words? words.length (words.flatMap Wire.bytesOf32 ++ rest) = some words := by
  induction words with
  | nil => rfl
  | cons word words ih =>
    simp only [List.flatMap_cons, List.append_assoc, List.length_cons]
    simp only [Wire.bytesOf32, List.cons_append, List.nil_append, words?, Wire.word32_bytes, ih,
      Option.map_some]

theorem length_flatMap_bytesOf32 (words : List UInt32) :
    (words.flatMap Wire.bytesOf32).length = 4 * words.length := by
  induction words with
  | nil => rfl
  | cons word words ih =>
    simp only [List.flatMap_cons, List.length_append, Wire.length_bytesOf32, ih, List.length_cons]
    omega

/-- Words that are cut short are not read at all. -/
theorem words?_eq_none {count : Nat} {bytes : Bytes} (h : bytes.length < 4 * count) :
    words? count bytes = none := by
  fun_induction words? count bytes with
  | case1 bytes => omega
  | case2 count b0 b1 b2 b3 rest ih =>
    simp only [List.length_cons] at h
    rw [ih (by omega), Option.map_none]
  | case3 => rfl

/-- Bytes begin with as many words as they have room for. -/
theorem exists_words {count : Nat} {bytes : Bytes} (h : 4 * count ≤ bytes.length) :
    ∃ (words : List UInt32) (rest : Bytes), words.length = count ∧
      bytes = words.flatMap Wire.bytesOf32 ++ rest := by
  induction count generalizing bytes with
  | zero => exact ⟨[], bytes, rfl, rfl⟩
  | succ count ih =>
    rcases bytes with _ | ⟨b0, _ | ⟨b1, _ | ⟨b2, _ | ⟨b3, more⟩⟩⟩⟩
    iterate 4
      simp only [List.length_cons, List.length_nil] at h
      omega
    simp only [List.length_cons] at h
    obtain ⟨words, rest, hlength, hmore⟩ := ih (show 4 * count ≤ more.length by omega)
    refine ⟨Wire.word32 b0 b1 b2 b3 :: words, rest, by rw [List.length_cons, hlength], ?_⟩
    rw [List.flatMap_cons, Wire.bytesOf32_word32, hmore]
    rfl

theorem length_encode (instruction : Instruction) :
    instruction.encode.length = 1 + 4 * instruction.opcode.operandCount := by
  rw [encode, List.length_cons, length_flatMap_bytesOf32, length_operands, Nat.add_comm]

/-- An instruction is read from its own bytes, and decoding goes on behind it. -/
theorem decodeFrom_encode (offset : Nat) (instruction : Instruction) (rest : Bytes) :
    decodeFrom offset (instruction.encode ++ rest) =
      (decodeFrom (offset + instruction.encode.length) rest).map (instruction :: ·) := by
  have hwords : words? instruction.opcode.operandCount
      (instruction.operands.flatMap Wire.bytesOf32 ++ rest) = some instruction.operands := by
    rw [← length_operands]
    exact words?_flatMap _ _
  have hdrop : (instruction.operands.flatMap Wire.bytesOf32 ++ rest).drop
      (4 * instruction.opcode.operandCount) = rest := by
    rw [← length_operands, ← length_flatMap_bytesOf32, List.drop_left]
  rw [length_encode, encode, List.cons_append, decodeFrom]
  simp only [ofByte?_byte, hwords, Option.bind_some, ofOperands?_operands, hdrop, Nat.add_assoc]

/-- Code is read back from any offset, which matters for errors only. -/
theorem decodeFrom_encodeAll (instructions : List Instruction) (offset : Nat) :
    decodeFrom offset (encodeAll instructions) = .ok instructions := by
  induction instructions generalizing offset with
  | nil => simp [encodeAll, decodeFrom]
  | cons instruction rest ih =>
    have hrest := ih (offset + instruction.encode.length)
    simp only [encodeAll, List.flatMap_cons] at hrest ⊢
    rw [decodeFrom_encode, hrest, Except.map]

/-- Code of a list of instructions decodes to that list. -/
theorem decodeAll_encodeAll (instructions : List Instruction) :
    decodeAll (encodeAll instructions) = .ok instructions :=
  decodeFrom_encodeAll instructions 0

theorem length_le_length_encodeAll (instructions : List Instruction) :
    instructions.length ≤ (encodeAll instructions).length := by
  induction instructions with
  | nil => simp
  | cons instruction rest ih =>
    have hfirst := length_encode instruction
    simp only [encodeAll, List.flatMap_cons, List.length_append, List.length_cons] at ih ⊢
    omega

end PageScript.Instruction
