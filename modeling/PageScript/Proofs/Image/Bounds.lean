import Mathlib.Data.List.Basic
import PageScript.Image
import PageScript.Proofs.Image.Instruction
import PageScript.Proofs.Outcome

/-!
# Reading stays within bounds

Readers that take slices by position are written here so that a slice which does not exist ends them
in an outcome of its own. They agree with the readers that cannot tell the difference, whatever the
bytes are: so no slice is ever out of range.
-/

namespace PageScript

/-- Why a reader stopped: it went beyond its bytes, or it found an error. -/
inductive Halt (ε : Type) where
  | outOfRange
  | fault (error : ε)
  deriving DecidableEq

def Halt.map {ε ε' : Type} (f : ε → ε') : Halt ε → Halt ε'
  | .outOfRange => .outOfRange
  | .fault error => .fault (f error)

namespace Bounded

variable {ε : Type}

def byte (data : Bytes) (index : Nat) : Except (Halt ε) UInt8 :=
  match data[index]? with
  | some value => .ok value
  | none => .error .outOfRange

/-- Bytes from `start` up to `stop`, which must not lie before `start` or behind the end. -/
def slice (data : Bytes) (start stop : Nat) : Except (Halt ε) Bytes :=
  if start ≤ stop ∧ stop ≤ data.length then .ok (Image.Container.slice data start stop)
  else .error .outOfRange

/-- A cut within the data never halts. -/
theorem slice_eq {data : Bytes} {start stop : Nat} (hstart : start ≤ stop)
    (hstop : stop ≤ data.length) :
    slice data start stop = (.ok (Image.Container.slice data start stop) : Except (Halt ε) Bytes) :=
  if_pos ⟨hstart, hstop⟩

/-! ## Headers -/

open Image

def header (data : Bytes) : Except (Halt HeaderError) Header :=
  if data.length < Header.size then .error (.fault .tooShort)
  else do
    let magic ← slice data 0 4
    let version := Wire.word16 (← byte data 4) (← byte data 5)
    let mode ← byte data 6
    let flags ← byte data 7
    let sectionCount := Wire.word16 (← byte data 8) (← byte data 9)
    let directoryOffset := Wire.word32 (← byte data 12) (← byte data 13) (← byte data 14)
      (← byte data 15)
    let buildId ← slice data 16 32
    if magic ≠ Header.magic then .error (.fault .invalidMagic)
    else if version ≠ Header.formatVersion then .error (.fault (.unsupportedVersion version))
    else match BuildMode.ofTag? mode with
      | none => .error (.fault (.invalidBuildMode mode))
      | some buildMode =>
        .ok {
          version, buildMode, flags, sectionCount, directoryOffset, buildId := .ofBytes buildId }

/-- A build id is read from 16 bytes, whatever stands behind them. -/
theorem ofBytes_take {bytes : Bytes} (h : 16 ≤ bytes.length) :
    BuildId.ofBytes (bytes.take 16) = BuildId.ofBytes bytes := by
  simp only [BuildId.ofBytes, List.take_take, Nat.min_self, List.length_take, Nat.min_eq_left h,
    Nat.sub_self, Nat.sub_eq_zero_of_le h]

/-- Every byte that is looked at in a header has been found to be there before. -/
theorem header_eq (data : Bytes) : header data = (Header.decode data).mapError .fault := by
  rcases data with _ | ⟨m0, _ | ⟨m1, _ | ⟨m2, _ | ⟨m3, _ | ⟨v0, _ | ⟨v1, _ | ⟨mode, _ | ⟨flags,
    _ | ⟨c0, _ | ⟨c1, _ | ⟨r0, _ | ⟨r1, _ | ⟨o0, _ | ⟨o1, _ | ⟨o2, _ | ⟨o3, rest⟩⟩⟩⟩⟩⟩⟩⟩⟩⟩⟩⟩⟩⟩⟩⟩
  iterate 16 rfl
  let data := m0 :: m1 :: m2 :: m3 :: v0 :: v1 :: mode :: flags :: c0 :: c1 :: r0 :: r1 ::
    o0 :: o1 :: o2 :: o3 :: rest
  have hlength : data.length = rest.length + 16 := rfl
  change header data = _
  by_cases hrest : rest.length < 16
  · have hsize : data.length < Header.size := by
      rw [Header.size]
      omega
    rw [header, if_pos hsize, Header.decode, if_pos hrest]
    rfl
  · have hsize : ¬data.length < Header.size := by
      rw [Header.size]
      omega
    have hmagic : slice data 0 4 = (.ok [m0, m1, m2, m3] : Except (Halt HeaderError) Bytes) :=
      slice_eq (by omega) (by omega)
    have hbuildId : slice data 16 32 = (.ok (rest.take 16) : Except (Halt HeaderError) Bytes) :=
      slice_eq (by omega) (by omega)
    rw [header, if_neg hsize, Header.decode, if_neg hrest, ← ofBytes_take (Nat.le_of_not_lt hrest)]
    simp only [hmagic, hbuildId, Outcome.ok_bind]
    change (if [m0, m1, m2, m3] ≠ Header.magic then _ else _) = _
    split
    · rfl
    · split
      · rfl
      · cases BuildMode.ofTag? mode <;> rfl

/-! ## Containers -/

def container (data : Bytes) : Except (Halt ReadError) Container := do
  let header ← (header data).mapError (Halt.map .header)
  let start := header.directoryOffset.toNat
  let stop := start + header.sectionCount.toNat * SectionEntry.width
  if start < Header.size ∨ data.length < stop then .error (.fault .invalidOffset)
  else
    let directory ← slice data start stop
    let entries ← (Directory.decode directory header.sectionCount.toNat).mapError
      fun error ↦ Halt.fault (.directory error)
    match entries.find? fun entry ↦ entry.start < Header.size || start < entry.stop with
    | some entry => .error (.fault (.invalidSectionSize entry.kind))
    | none =>
      let content ← slice data Header.size start
      if BuildId.ofContent content ≠ header.buildId then .error (.fault .checksumMismatch)
      else .ok { header, entries, data }

/-- The directory is only cut out of data that is long enough for it. -/
theorem container_eq (data : Bytes) :
    container data = (Container.read data).mapError .fault := by
  unfold container Container.read
  rw [header_eq]
  cases Header.decode data with
  | error error => rfl
  | ok header =>
    simp only [Outcome.mapError_ok, Outcome.ok_bind]
    split
    · rfl
    · rename_i hbounds
      rw [not_or, Nat.not_lt, Nat.not_lt] at hbounds
      rw [slice_eq (Nat.le_add_right _ _) hbounds.2, Outcome.ok_bind]
      cases Directory.decode _ header.sectionCount.toNat with
      | error error => rfl
      | ok entries =>
        simp only [Outcome.mapError_ok, Outcome.ok_bind]
        cases entries.find? fun entry ↦
            entry.start < Header.size || header.directoryOffset.toNat < entry.stop with
        | some entry => rfl
        | none =>
          simp only [slice_eq hbounds.1 (Nat.le_trans (Nat.le_add_right _ _) hbounds.2),
            Outcome.ok_bind]
          split <;> rfl

/-- The sections of a container that was read lie within its bytes. -/
theorem stop_le_of_read {data : Bytes} {container : Container}
    (h : Container.read data = .ok container) {entry : SectionEntry}
    (hentry : entry ∈ container.entries) : entry.stop ≤ container.data.length := by
  unfold Container.read at h
  obtain ⟨header, _, h⟩ := Outcome.bind_eq_ok.mp h
  simp only at h
  split at h
  · contradiction
  · rename_i hbounds
    rw [not_or, Nat.not_lt, Nat.not_lt] at hbounds
    obtain ⟨entries, _, h⟩ := Outcome.bind_eq_ok.mp h
    split at h
    · contradiction
    · rename_i hfind
      split at h
      · contradiction
      · obtain rfl : _ = container := Except.ok.inj h
        have hplace := List.find?_eq_none.mp hfind entry hentry
        simp only [Bool.or_eq_true, decide_eq_true_eq, not_or, Nat.not_lt] at hplace
        calc
          entry.stop ≤ header.directoryOffset.toNat := hplace.2
          _ ≤ header.directoryOffset.toNat + header.sectionCount.toNat * SectionEntry.width :=
            Nat.le_add_right _ _
          _ ≤ data.length := hbounds.2

def payload (container : Container) (kind : SectionKind) : Except (Halt ReadError) Bytes :=
  match container.entries.find? fun entry ↦ entry.kind = kind with
  | some entry => slice container.data entry.start entry.stop
  | none => .error (.fault (.sectionNotFound kind))

/-- In a container that was read, each section lies within the data. -/
theorem payload_eq {data : Bytes} {container : Container}
    (h : Container.read data = .ok container) (kind : SectionKind) :
    payload container kind = (container.section? kind).mapError .fault := by
  unfold payload Container.section?
  cases hfind : container.entries.find? fun entry ↦ entry.kind = kind with
  | none => rfl
  | some entry =>
    have hstop := stop_le_of_read h (List.mem_of_find?_eq_some hfind)
    exact slice_eq (Nat.le_add_right _ _) hstop

def classCode (image : ModuleImage) (index : Nat) : Except (Halt ReadError) Bytes := do
  let entry ← (image.classAt index).mapError .fault
  let start := entry.codeOffset.toNat
  let stop := start + entry.codeLength.toNat
  if stop ≤ image.code.length then slice image.code start stop
  else throw (.fault (.invalidSectionSize .code))

/-- The code of a class is cut out behind the check of its range. -/
theorem classCode_eq (image : ModuleImage) (index : Nat) :
    classCode image index = (image.classCode index).mapError .fault := by
  unfold classCode ModuleImage.classCode
  cases image.classAt index with
  | error error => rfl
  | ok entry =>
    simp only [Outcome.mapError_ok, Outcome.ok_bind]
    split
    · rename_i hstop
      rw [slice_eq (Nat.le_add_right _ _) hstop]
      rfl
    · rfl

/-! ## Code -/

/-- Instructions from the position `offset` on. -/
def codeFrom (code : Bytes) (offset : Nat) :
    Except (Halt Instruction.DecodeError) (List Instruction) :=
  if offset < code.length then do
    let b ← byte code offset
    match Instruction.Opcode.ofByte? b with
    | none => .error (.fault (.invalidOpcode b offset))
    | some opcode =>
      let stop := offset + 1 + 4 * opcode.operandCount
      if code.length < stop then .error (.fault (.truncated offset))
      else
        let operands ← slice code (offset + 1) stop
        match (Instruction.words? opcode.operandCount operands).bind
            (Instruction.ofOperands? opcode) with
        | none => .error .outOfRange
        | some instruction =>
          let rest ← codeFrom code stop
          return instruction :: rest
  else .ok []
termination_by code.length - offset

theorem words?_take {count : Nat} {bytes : Bytes} (h : 4 * count ≤ bytes.length) :
    ∃ words, words.length = count ∧ Instruction.words? count bytes = some words ∧
      Instruction.words? count (bytes.take (4 * count)) = some words := by
  obtain ⟨words, rest, rfl, rfl⟩ := Instruction.exists_words h
  refine ⟨words, rfl, Instruction.words?_flatMap words rest, ?_⟩
  rw [← Instruction.length_flatMap_bytesOf32, List.take_left]
  simpa using Instruction.words?_flatMap words []

theorem ofOperands?_of_length {opcode : Instruction.Opcode} {words : List UInt32}
    (h : words.length = opcode.operandCount) :
    ∃ instruction, Instruction.ofOperands? opcode words = some instruction := by
  obtain ⟨instruction, rfl, rfl⟩ := Instruction.exists_instruction h
  exact ⟨instruction, Instruction.ofOperands?_operands instruction⟩

/-- Operands are only read where the code is long enough for them. -/
theorem codeFrom_eq (code : Bytes) (offset : Nat) :
    codeFrom code offset =
      (Instruction.decodeFrom offset (code.drop offset)).mapError .fault := by
  fun_induction codeFrom code offset with
  | case1 offset hlt ih =>
    have hbyte :
        byte code offset = (.ok code[offset] : Except (Halt Instruction.DecodeError) _) := by
      rw [byte, List.getElem?_eq_getElem hlt]
    rw [List.drop_eq_getElem_cons hlt, Instruction.decodeFrom, hbyte, Outcome.ok_bind]
    cases Instruction.Opcode.ofByte? code[offset] with
    | none => rfl
    | some opcode =>
      have hlength : (code.drop (offset + 1)).length = code.length - (offset + 1) :=
        List.length_drop
      simp only
      split
      · rename_i hstop
        rw [Instruction.words?_eq_none (by omega), Option.bind_none]
        rfl
      · rename_i hstop
        obtain ⟨words, hcount, hwords, htake⟩ :=
          words?_take (show 4 * opcode.operandCount ≤ (code.drop (offset + 1)).length by omega)
        obtain ⟨instruction, hinstruction⟩ := ofOperands?_of_length hcount
        have hoperands : slice code (offset + 1) (offset + 1 + 4 * opcode.operandCount) =
            (.ok ((code.drop (offset + 1)).take (4 * opcode.operandCount)) :
              Except (Halt Instruction.DecodeError) Bytes) := by
          rw [slice_eq (by omega) (by omega), Container.slice, Nat.add_sub_cancel_left]
        have hrest := ih opcode hstop
        simp only [hoperands, Outcome.ok_bind, htake, hwords, Option.bind_some, hinstruction,
          List.drop_drop, hrest]
        cases Instruction.decodeFrom _ (code.drop (offset + 1 + 4 * opcode.operandCount)) <;> rfl
  | case2 offset hge =>
    rw [List.drop_eq_nil_of_le (Nat.le_of_not_lt hge), Instruction.decodeFrom]
    rfl

/-- All instructions of a byte string. -/
def code (bytes : Bytes) : Except (Halt Instruction.DecodeError) (List Instruction) :=
  codeFrom bytes 0

theorem code_eq (bytes : Bytes) :
    code bytes = (Instruction.decodeAll bytes).mapError .fault :=
  codeFrom_eq bytes 0

end Bounded

end PageScript
