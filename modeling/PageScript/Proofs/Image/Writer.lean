import PageScript.Image.Writer
import PageScript.Proofs.Image.Container

/-!
# Containers written step by step

However setting flags and appending sections are mixed, a writer ends up with the layout of its
sections in the order in which they came. What will have been written once the sections to come are
in does not change by a step, and that carries the run. Reading the result gives everything back.
-/

namespace PageScript.Image

/-! ## Order and alignment -/

/-- Entries of sections that lie behind each other from `position` on, each at a multiple of
eight. -/
def Stacked (position : Nat) : List SectionEntry → Prop
  | [] => True
  | entry :: rest => position ≤ entry.start ∧ entry.start % 8 = 0 ∧ Stacked entry.stop rest

theorem stacked_layout {position : Nat} (sections : List (SectionKind × Bytes))
    (hsize : position + (layout position sections).2.length < UInt32.size) :
    Stacked position (layout position sections).1 := by
  induction sections generalizing position with
  | nil => trivial
  | cons current rest ih =>
    rcases current with ⟨kind, payload⟩
    let start := position + (padding position).length
    have halign : start % 8 = 0 := by
      simp only [start, padding, List.length_replicate]
      omega
    have hrest : start + payload.length + (layout (start + payload.length) rest).2.length <
        UInt32.size := by
      rw [← stop_layout_cons position kind payload rest]
      exact hsize
    have hstart : (UInt32.ofNat start).toNat = start := Wire.toNat_ofNat_of_lt (by omega)
    have hpayload : (UInt32.ofNat payload.length).toNat = payload.length :=
      Wire.toNat_ofNat_of_lt (by omega)
    rw [layout_cons]
    refine ⟨?_, ?_, ?_⟩
    · rw [SectionEntry.start, hstart]
      exact Nat.le_add_right _ _
    · rw [SectionEntry.start, hstart, halign]
    · rw [SectionEntry.stop, hstart, hpayload]
      exact ih hrest

theorem Stacked.le_start {position : Nat} {entries : List SectionEntry}
    (h : Stacked position entries) : ∀ entry ∈ entries, position ≤ entry.start := by
  induction entries generalizing position with
  | nil => simp
  | cons first rest ih =>
    intro entry hentry
    rcases List.mem_cons.mp hentry with rfl | hrest
    · exact h.1
    · calc
        position ≤ first.start := h.1
        _ ≤ first.stop := Nat.le_add_right _ _
        _ ≤ entry.start := ih h.2.2 entry hrest

theorem Stacked.aligned {position : Nat} {entries : List SectionEntry}
    (h : Stacked position entries) : ∀ entry ∈ entries, entry.start % 8 = 0 := by
  induction entries generalizing position with
  | nil => simp
  | cons first rest ih =>
    intro entry hentry
    rcases List.mem_cons.mp hentry with rfl | hrest
    · exact h.2.1
    · exact ih h.2.2 entry hrest

/-- Sections do not overlap, and stand in the order of the directory. -/
theorem Stacked.pairwise {position : Nat} {entries : List SectionEntry}
    (h : Stacked position entries) :
    entries.Pairwise fun first second ↦ first.stop ≤ second.start := by
  induction entries generalizing position with
  | nil => exact .nil
  | cons first rest ih => exact .cons h.2.2.le_start (ih h.2.2)

namespace Writer

/-! ## Runs -/

inductive Step where
  | setFlag (flag : UInt8)
  | append (kind : SectionKind) (payload : Bytes)

/-- The flag that a step sets. -/
def Step.flag? : Step → Option UInt8
  | setFlag flag => some flag
  | append _ _ => none

/-- The section that a step appends. -/
def Step.section? : Step → Option (SectionKind × Bytes)
  | setFlag _ => none
  | append kind payload => some (kind, payload)

def step (writer : Writer) : Step → Writer
  | .setFlag flag => writer.setFlag flag
  | .append kind payload => (writer.append kind payload).2

/-- A new writer after some steps. -/
def run (buildMode : BuildMode) (steps : List Step) : Writer := steps.foldl step { buildMode }

/-- All flags that are in one of several bytes. -/
def union (flags : List UInt8) : UInt8 := flags.foldl (· ||| ·) 0

theorem testBit_foldl_or (start : UInt8) (flags : List UInt8) (bit : Nat) :
    (flags.foldl (· ||| ·) start).toNat.testBit bit ↔
      start.toNat.testBit bit ∨ ∃ flag ∈ flags, flag.toNat.testBit bit := by
  induction flags generalizing start with
  | nil => simp
  | cons flag rest ih =>
    rw [List.foldl_cons, ih]
    simp only [UInt8.toNat_or, Nat.testBit_or, Bool.or_eq_true, List.mem_cons, exists_eq_or_imp,
      or_assoc]

/-- A flag is set exactly if it was set in one of the steps. -/
theorem testBit_union (flags : List UInt8) (bit : Nat) :
    (union flags).toNat.testBit bit ↔ ∃ flag ∈ flags, flag.toNat.testBit bit := by
  rw [union, testBit_foldl_or]
  simp

/-- What a writer will be once `flags` have been set, `sections` appended and the end aligned. -/
def planned (writer : Writer) (flags : List UInt8) (sections : List (SectionKind × Bytes)) :
    Writer :=
  let following := layout writer.buffer.length sections
  { writer with
    flags := flags.foldl (· ||| ·) writer.flags
    entries := writer.entries ++ following.1
    buffer := writer.buffer ++ following.2 }

theorem planned_nil (writer : Writer) : writer.planned [] [] = writer.align := by
  rw [planned, layout, List.append_nil, List.foldl_nil]
  rfl

/-- A step only does what was planned. -/
theorem planned_step (writer : Writer) (current : Step) (flags : List UInt8)
    (sections : List (SectionKind × Bytes)) :
    (writer.step current).planned flags sections =
      writer.planned (current.flag?.toList ++ flags) (current.section?.toList ++ sections) := by
  cases current with
  | setFlag flag => rfl
  | append kind payload =>
    simp only [Step.flag?, Step.section?, Option.toList_none, Option.toList_some, List.nil_append,
      List.singleton_append, planned, layout_cons, step, append, align, List.append_assoc,
      List.length_append, Nat.add_assoc]

theorem planned_foldl (writer : Writer) (steps : List Step) :
    (steps.foldl step writer).planned [] [] =
      writer.planned (steps.filterMap Step.flag?) (steps.filterMap Step.section?) := by
  induction steps generalizing writer with
  | nil => rfl
  | cons current rest ih =>
    rw [List.foldl_cons, ih, planned_step]
    cases current with
    | setFlag flag => rfl
    | append kind payload => rfl

variable (buildMode : BuildMode) (steps : List Step)

/-- After a run, the layout of its sections stands behind the room for the header. -/
theorem align_run :
    (run buildMode steps).align = {
      buildMode
      flags := union (steps.filterMap Step.flag?)
      entries := (layout Header.size (steps.filterMap Step.section?)).1
      buffer := List.replicate Header.size 0 ++
        (layout Header.size (steps.filterMap Step.section?)).2 } := by
  rw [← planned_nil, run, planned_foldl, planned, List.length_replicate, List.nil_append]
  rfl

theorem hashed_run :
    (run buildMode steps).hashed = (layout Header.size (steps.filterMap Step.section?)).2 := by
  have hslice := Container.slice_append (List.replicate Header.size 0)
    (layout Header.size (steps.filterMap Step.section?)).2 []
  rw [List.append_nil, List.length_replicate] at hslice
  rw [hashed, align_run, List.length_append, List.length_replicate, hslice]

/-- A writer finishes with what laying out all sections at once gives. -/
theorem finish_run :
    (run buildMode steps).finish =
      write buildMode (union (steps.filterMap Step.flag?)) (steps.filterMap Step.section?) := by
  have hdrop (bytes : Bytes) :
      (List.replicate Header.size 0 ++ bytes).drop Header.size = bytes := by
    apply List.drop_left'
    exact List.length_replicate
  simp only [finish, write, align_run, hashed_run, List.append_assoc, hdrop, List.length_append,
    List.length_replicate]

end Writer

/-! ## Reading back -/

/-- A container tells all that was written into it. -/
structure Container.Holds (container : Container) (buildMode : BuildMode) (flags : List UInt8)
    (sections : List (SectionKind × Bytes)) (buildId : BuildId) : Prop where
  buildMode_eq : container.header.buildMode = buildMode
  /-- The union of the flags: a bit is up exactly if it is up in one of them. -/
  flags_iff : ∀ bit, container.header.flags.toNat.testBit bit ↔
    ∃ flag ∈ flags, flag.toNat.testBit bit
  sectionCount_eq : container.header.sectionCount.toNat = sections.length
  buildId_eq : container.header.buildId = buildId
  /-- Entries and sections correspond in order, and every range lies between header and
  directory. -/
  laid : Laid container.data Header.size container.header.directoryOffset.toNat container.entries
    sections
  aligned : ∀ entry ∈ container.entries, entry.start % 8 = 0
  ordered : container.entries.Pairwise fun first second ↦ first.stop ≤ second.start
  section_eq : ∀ kind, container.section? kind =
    match sections.find? fun current ↦ current.1 = kind with
    | some current => .ok current.2
    | none => .error (.sectionNotFound kind)

namespace Writer

/-- What a writer finishes with is accepted and gives everything back, whatever the steps were. -/
theorem read_finish (buildMode : BuildMode) (steps : List Step)
    (hcount : (steps.filterMap Step.section?).length < UInt16.size)
    (hsize : (run buildMode steps).finish.bytes.length < UInt32.size) :
    ∃ container, Container.read (run buildMode steps).finish.bytes = .ok container ∧
      container.Holds buildMode (steps.filterMap Step.flag?) (steps.filterMap Step.section?)
        (run buildMode steps).finish.buildId := by
  rw [finish_run] at hsize ⊢
  have hstacked : Stacked Header.size (layout Header.size (steps.filterMap Step.section?)).1 := by
    rw [length_bytes_write] at hsize
    exact stacked_layout _ (by omega)
  have hlaid := laid_write hsize
  rw [← directoryOffset_writtenHeader hsize] at hlaid
  refine ⟨_, Container.read_write hcount hsize, ?_⟩
  exact {
    buildMode_eq := rfl
    flags_iff := testBit_union _
    sectionCount_eq := sectionCount_writtenHeader hcount
    buildId_eq := rfl
    laid := hlaid
    aligned := hstacked.aligned
    ordered := hstacked.pairwise
    section_eq := payload_written hsize }

/-- Flags come between sections, a kind comes twice, and its second payload is empty. -/
theorem read_finish_mixed :
    ∃ container,
      Container.read (run .release [.setFlag 1, .append .stringPool [97, 98, 99],
        .append .code [6], .setFlag 4, .append .stringPool []]).finish.bytes = .ok container ∧
      container.header.sectionCount.toNat = 3 ∧ container.header.flags.toNat.testBit 2 ∧
      container.section? .stringPool = .ok [97, 98, 99] ∧
      container.section? .typeRefs = .error (.sectionNotFound .typeRefs) := by
  obtain ⟨container, hread, hholds⟩ := read_finish .release [.setFlag 1,
    .append .stringPool [97, 98, 99], .append .code [6], .setFlag 4, .append .stringPool []]
    (by decide) (by rw [finish_run, length_bytes_write]; decide +kernel)
  refine ⟨container, hread, hholds.sectionCount_eq, ?_, hholds.section_eq _, hholds.section_eq _⟩
  exact (hholds.flags_iff 2).mpr ⟨4, by decide, by decide⟩

end Writer

end PageScript.Image
