import PageScript.Proofs.Image.Instruction

/-!
# Which bytes are code

Every byte string begins with the code of some instructions, behind which it ends or holds something
that no instruction begins with. So bytes decode to instructions exactly if they are the code of
these instructions, and otherwise decoding reports the first place from which it cannot go on.
-/

namespace PageScript.Instruction

/-- The place that an error names. -/
def DecodeError.offset : DecodeError → Nat
  | invalidOpcode _ offset => offset
  | truncated offset => offset

/-- No instruction lies at the place that an error names: the byte there, which is reported, is no
opcode, or it is one whose operands run past the end. -/
inductive Stuck (code : Bytes) : DecodeError → Prop
  | invalidOpcode {byte : UInt8} {offset : Nat} (hbyte : code[offset]? = some byte)
      (hnone : ∀ opcode : Opcode, opcode.byte ≠ byte) : Stuck code (.invalidOpcode byte offset)
  | truncated {opcode : Opcode} {offset : Nat} (hbyte : code[offset]? = some opcode.byte)
      (hend : code.length < offset + 1 + 4 * opcode.operandCount) : Stuck code (.truncated offset)

theorem Stuck.offset_lt {code : Bytes} {error : DecodeError} (h : Stuck code error) :
    error.offset < code.length := by
  cases h with
  | invalidOpcode hbyte _ => exact (List.getElem?_eq_some_iff.mp hbyte).1
  | truncated hbyte _ => exact (List.getElem?_eq_some_iff.mp hbyte).1

theorem encodeAll_append (front back : List Instruction) :
    encodeAll (front ++ back) = encodeAll front ++ encodeAll back :=
  List.flatMap_append

theorem encodeAll_singleton (instruction : Instruction) :
    encodeAll [instruction] = instruction.encode :=
  List.flatMap_singleton _ _

/-! ## One instruction -/

/-- Behind the first bytes, code ends, goes on with an instruction or is stuck. -/
theorem encode_or_stuck (front rest : Bytes) :
    rest = [] ∨ (∃ (instruction : Instruction) (more : Bytes), rest = instruction.encode ++ more) ∨
      ∃ error, error.offset = front.length ∧ Stuck (front ++ rest) error := by
  cases rest with
  | nil => exact .inl rfl
  | cons byte rest =>
    have hbyte : (front ++ byte :: rest)[front.length]? = some byte :=
      by simp
    cases hopcode : Opcode.ofByte? byte with
    | none => exact .inr (.inr ⟨_, rfl, .invalidOpcode hbyte (ofByte?_eq_none_iff.mp hopcode)⟩)
    | some opcode =>
      obtain rfl := ofByte?_eq_some_iff.mp hopcode
      by_cases hroom : 4 * opcode.operandCount ≤ rest.length
      · obtain ⟨words, more, hcount, rfl⟩ := exists_words hroom
        obtain ⟨instruction, rfl, rfl⟩ := exists_instruction hcount
        exact .inr (.inl ⟨instruction, more, rfl⟩)
      · refine .inr (.inr ⟨_, rfl, .truncated hbyte ?_⟩)
        rw [List.length_append, List.length_cons]
        omega

/-- Decoding from the place at which code is stuck reports that. -/
theorem decodeFrom_of_stuck {code : Bytes} {error : DecodeError} (h : Stuck code error) :
    decodeFrom error.offset (code.drop error.offset) = .error error := by
  cases h with
  | @invalidOpcode byte offset hbyte hnone =>
    obtain ⟨hlt, hat⟩ := List.getElem?_eq_some_iff.mp hbyte
    rw [DecodeError.offset, List.drop_eq_getElem_cons hlt, decodeFrom, hat]
    simp only [ofByte?_eq_none_iff.mpr hnone]
  | @truncated opcode offset hbyte hend =>
    obtain ⟨hlt, hat⟩ := List.getElem?_eq_some_iff.mp hbyte
    have hshort : (code.drop (offset + 1)).length < 4 * opcode.operandCount := by
      rw [List.length_drop]
      omega
    rw [DecodeError.offset, List.drop_eq_getElem_cons hlt, decodeFrom, hat]
    simp only [ofByte?_byte, words?_eq_none hshort, Option.bind_none]

/-! ## All instructions -/

theorem decodeFrom_encodeAll_append (instructions : List Instruction) (offset : Nat)
    (rest : Bytes) :
    decodeFrom offset (encodeAll instructions ++ rest) =
      (decodeFrom (offset + (encodeAll instructions).length) rest).map (instructions ++ ·) := by
  induction instructions generalizing offset with
  | nil =>
    change decodeFrom offset rest = (decodeFrom offset rest).map id
    cases decodeFrom offset rest <;> rfl
  | cons instruction others ih =>
    have hlength : offset + (encodeAll (instruction :: others)).length =
        offset + instruction.encode.length + (encodeAll others).length := by
      rw [encodeAll, List.flatMap_cons, List.length_append, Nat.add_assoc]
      rfl
    calc decodeFrom offset (encodeAll (instruction :: others) ++ rest)
        = decodeFrom offset (instruction.encode ++ (encodeAll others ++ rest)) := by
          rw [encodeAll, List.flatMap_cons, List.append_assoc]
          rfl
      _ = (decodeFrom (offset + instruction.encode.length) (encodeAll others ++ rest)).map
            (instruction :: ·) := decodeFrom_encode _ _ _
      _ = _ := by
          rw [ih, hlength]
          cases decodeFrom _ rest <;> rfl

/-- Bytes that begin with code are code, or code up to the place at which they are stuck. -/
theorem encodeAll_or_stuck {code rest : Bytes} {front : List Instruction}
    (hcode : code = encodeAll front ++ rest) :
    (∃ instructions, code = encodeAll instructions) ∨
      ∃ instructions error, code.take error.offset = encodeAll instructions ∧
        Stuck code error := by
  -- The bytes behind those that are known to be code become fewer.
  induction hlength : rest.length using Nat.strongRecOn generalizing front rest with
  | ind length ih =>
    obtain rfl | ⟨instruction, more, rfl⟩ | ⟨error, hoffset, hstuck⟩ :=
      encode_or_stuck (encodeAll front) rest
    · exact .inl ⟨front, by rw [hcode, List.append_nil]⟩
    · have hshorter : more.length < length := by
        rw [← hlength, List.length_append, length_encode]
        omega
      have hfront : code = encodeAll (front ++ [instruction]) ++ more := by
        rw [hcode, encodeAll_append, encodeAll_singleton, List.append_assoc]
      exact ih more.length hshorter hfront rfl
    · refine .inr ⟨front, error, ?_, hcode ▸ hstuck⟩
      rw [hoffset, hcode, List.take_left]

/-- Behind the code of some instructions, decoding reports where it is stuck. -/
theorem decodeAll_of_stuck {code : Bytes} {error : DecodeError} {instructions : List Instruction}
    (hfront : code.take error.offset = encodeAll instructions) (hstuck : Stuck code error) :
    decodeAll code = .error error := by
  have hlength : (encodeAll instructions).length = error.offset := by
    rw [← hfront, List.length_take, Nat.min_eq_left (Nat.le_of_lt hstuck.offset_lt)]
  have hcode : code = encodeAll instructions ++ code.drop error.offset := by
    rw [← hfront, List.take_append_drop]
  rw [decodeAll, hcode, decodeFrom_encodeAll_append, hlength, Nat.zero_add,
    decodeFrom_of_stuck hstuck]
  rfl

/-- Bytes decode to instructions exactly if they are the code of these instructions. Decoding fails
exactly where bytes that are code up to there are stuck, with what keeps it from going on. -/
theorem decodeAll_exact (code : Bytes) :
    (∀ instructions, decodeAll code = .ok instructions ↔ code = encodeAll instructions) ∧
      ∀ error, decodeAll code = .error error ↔
        (∃ instructions, code.take error.offset = encodeAll instructions) ∧ Stuck code error := by
  have hcases := encodeAll_or_stuck (show code = encodeAll [] ++ code from rfl)
  constructor
  · intro instructions
    constructor
    · intro hok
      obtain ⟨others, rfl⟩ | ⟨_, error, hfront, hstuck⟩ := hcases
      · rw [decodeAll_encodeAll] at hok
        rw [Except.ok.inj hok]
      · rw [decodeAll_of_stuck hfront hstuck] at hok
        contradiction
    · rintro rfl
      exact decodeAll_encodeAll instructions
  · intro error
    constructor
    · intro herror
      obtain ⟨others, rfl⟩ | ⟨instructions, other, hfront, hstuck⟩ := hcases
      · rw [decodeAll_encodeAll] at herror
        contradiction
      · rw [decodeAll_of_stuck hfront hstuck] at herror
        obtain rfl := Except.error.inj herror
        exact ⟨⟨instructions, hfront⟩, hstuck⟩
    · rintro ⟨⟨instructions, hfront⟩, hstuck⟩
      exact decodeAll_of_stuck hfront hstuck

/-- A stop, and then a byte that is no opcode. -/
example : decodeAll [6, 0x7f] = .error (.invalidOpcode 0x7f 1) := by decide +kernel

/-- An instruction whose second operand lacks a byte. -/
example : decodeAll [6, 2, 1, 0, 0, 0, 2, 0, 0] = .error (.truncated 1) := by decide +kernel

end PageScript.Instruction
