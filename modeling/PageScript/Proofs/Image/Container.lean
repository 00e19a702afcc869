import Mathlib.Data.List.Forall2
import PageScript.Image.Container
import PageScript.Proofs.Outcome
import PageScript.Proofs.Wire

/-!
# Containers round trip

Sections are laid out one after the other, each at the place its entry says. Reading what was
written therefore finds the header and the entries again, passes every check, and gives back the
first payload of each kind, as long as places fit into words.
-/

namespace PageScript

theorem BuildId.ofBytes_append (id : BuildId) (rest : Bytes) :
    BuildId.ofBytes (id.bytes ++ rest) = id := by
  rcases id with ⟨bytes, hlength⟩
  simp [BuildId.ofBytes, ← hlength]

namespace Image

/-! ## Headers and directories -/

/-- A header of the known version is read back, whatever follows it. -/
theorem Header.decode_encode (header : Header) (hversion : header.version = formatVersion)
    (rest : Bytes) : Header.decode (header.encode ++ rest) = .ok header := by
  have hlength : ¬(header.buildId.bytes ++ rest).length < 16 := by
    rw [List.length_append, header.buildId.length_bytes]
    omega
  simp only [Header.encode, magic, Wire.bytesOf16, Wire.bytesOf32, List.cons_append,
    List.nil_append, Header.decode, hlength, if_false, Wire.word16_bytes, Wire.word32_bytes,
    hversion, BuildMode.ofTag?_tag, BuildId.ofBytes_append, ne_eq, not_true_eq_false]
  rw [← hversion]

theorem SectionKind.ofTag?_tag (kind : SectionKind) : SectionKind.ofTag? kind.tag = some kind := by
  cases kind <;> rfl

theorem SectionEntry.decode_encode (entry : SectionEntry) (rest : Bytes) :
    SectionEntry.decode (entry.encode ++ rest) = .ok entry := by
  simp only [SectionEntry.encode, Wire.bytesOf32, List.cons_append, List.nil_append,
    SectionEntry.decode, SectionKind.ofTag?_tag, Wire.word32_bytes]

theorem SectionEntry.length_encode (entry : SectionEntry) : entry.encode.length = width := rfl

theorem Directory.length_encode (entries : List SectionEntry) :
    (Directory.encode entries).length = entries.length * SectionEntry.width := by
  induction entries with
  | nil => simp [Directory.encode]
  | cons entry rest ih =>
    simp only [Directory.encode, List.flatMap_cons, List.length_append,
      SectionEntry.length_encode, List.length_cons] at ih ⊢
    rw [ih, Nat.succ_mul, Nat.add_comm]

theorem Directory.decodeEntries_encode (entries : List SectionEntry) :
    Directory.decodeEntries entries.length (Directory.encode entries) = .ok entries := by
  induction entries with
  | nil => rfl
  | cons entry rest ih =>
    have hdrop : (entry.encode ++ Directory.encode rest).drop SectionEntry.width =
        Directory.encode rest := by
      rw [← SectionEntry.length_encode entry, List.drop_left]
    have hencode : Directory.encode (entry :: rest) = entry.encode ++ Directory.encode rest := rfl
    rw [hencode, List.length_cons, Directory.decodeEntries, SectionEntry.decode_encode,
      Outcome.ok_bind, hdrop, ih]
    rfl

/-- A directory is read back if its number of entries is known. -/
theorem Directory.decode_encode (entries : List SectionEntry) :
    Directory.decode (Directory.encode entries) entries.length = .ok entries := by
  rw [Directory.decode, Directory.length_encode, if_neg (Nat.lt_irrefl _),
    Directory.decodeEntries_encode]

/-! ## Layout -/

/-- A part is cut out between its offsets. -/
theorem Container.slice_append (before middle after : Bytes) :
    Container.slice (before ++ (middle ++ after)) before.length (before.length + middle.length) =
      middle := by
  rw [Container.slice, List.drop_left, Nat.add_sub_cancel_left, List.take_left]

theorem length_layout (position : Nat) (sections : List (SectionKind × Bytes)) :
    (layout position sections).1.length = sections.length := by
  induction sections generalizing position with
  | nil => rfl
  | cons current rest ih => simp [layout, ih]

theorem layout_cons (position : Nat) (kind : SectionKind) (payload : Bytes)
    (rest : List (SectionKind × Bytes)) :
    layout position ((kind, payload) :: rest) =
      let start := position + (padding position).length
      let following := layout (start + payload.length) rest
      (⟨kind, UInt32.ofNat start, UInt32.ofNat payload.length⟩ :: following.1,
        padding position ++ payload ++ following.2) := rfl

/-- Sections end where the sections behind the first end. -/
theorem stop_layout_cons (position : Nat) (kind : SectionKind) (payload : Bytes)
    (rest : List (SectionKind × Bytes)) :
    position + (layout position ((kind, payload) :: rest)).2.length =
      position + (padding position).length + payload.length +
        (layout (position + (padding position).length + payload.length) rest).2.length := by
  rw [layout_cons, List.length_append, List.length_append]
  omega

/-- An entry describes a section, which lies in `data` between `position` and `limit`. -/
structure Describes (data : Bytes) (position limit : Nat) (entry : SectionEntry)
    (current : SectionKind × Bytes) : Prop where
  kind_eq : entry.kind = current.1
  le_start : position ≤ entry.start
  stop_le : entry.stop ≤ limit
  slice_eq : Container.slice data entry.start entry.stop = current.2

/-- Every section lies where its entry says. -/
abbrev Laid (data : Bytes) (position limit : Nat) :
    List SectionEntry → List (SectionKind × Bytes) → Prop :=
  List.Forall₂ (Describes data position limit)

/-- Sections laid out behind `before` lie where their entries say. -/
theorem laid_layout {position : Nat} (before after : Bytes)
    (sections : List (SectionKind × Bytes)) (hbefore : before.length = position)
    (hsize : position + (layout position sections).2.length < UInt32.size) :
    Laid (before ++ ((layout position sections).2 ++ after)) position
      (position + (layout position sections).2.length) (layout position sections).1 sections := by
  induction sections generalizing before position with
  | nil => exact .nil
  | cons current rest ih =>
    rcases current with ⟨kind, payload⟩
    let start := position + (padding position).length
    let following := layout (start + payload.length) rest
    have hlead : (before ++ padding position).length = start := by
      rw [List.length_append, hbefore]
    have hnext : (before ++ padding position ++ payload).length = start + payload.length := by
      rw [List.length_append, hlead]
    have hdata : before ++ ((layout position ((kind, payload) :: rest)).2 ++ after) =
        before ++ padding position ++ (payload ++ (following.2 ++ after)) := by
      simp only [layout_cons, List.append_assoc, following, start]
    have hlimit : position + (layout position ((kind, payload) :: rest)).2.length =
        start + payload.length + following.2.length := stop_layout_cons position kind payload rest
    have hrest := ih _ hnext (hlimit ▸ hsize)
    have hstart : (UInt32.ofNat start).toNat = start := Wire.toNat_ofNat_of_lt (by omega)
    have hpayload : (UInt32.ofNat payload.length).toNat = payload.length :=
      Wire.toNat_ofNat_of_lt (by omega)
    have hslice := Container.slice_append (before ++ padding position) payload
      (following.2 ++ after)
    rw [hlead] at hslice
    rw [List.append_assoc] at hrest
    rw [hdata, hlimit]
    refine .cons ⟨rfl, ?_, ?_, ?_⟩ ?_
    · simp only [SectionEntry.start, start, hstart]
      omega
    · simp only [SectionEntry.stop, start, hstart, hpayload]
      omega
    · simp only [SectionEntry.start, SectionEntry.stop, hpayload]
      rw [hstart]
      exact hslice
    · exact hrest.imp fun _ _ described ↦
        ⟨described.kind_eq, Nat.le_trans (by omega) described.le_start, described.stop_le,
          described.slice_eq⟩

/-- Of sections of one kind, the first is found. -/
theorem payload_of_laid {container : Container} {position limit : Nat}
    {sections : List (SectionKind × Bytes)}
    (h : Laid container.data position limit container.entries sections) (kind : SectionKind) :
    container.section? kind =
      match sections.find? fun current ↦ current.1 = kind with
      | some current => .ok current.2
      | none => .error (.sectionNotFound kind) := by
  rcases container with ⟨header, entries, data⟩
  simp only [Container.section?] at h ⊢
  induction h with
  | nil => rfl
  | @cons entry current entries sections first _ ih =>
    rw [List.find?_cons, List.find?_cons, first.kind_eq]
    by_cases hkind : current.1 = kind
    · simp only [hkind, decide_true, first.slice_eq]
    · simp only [hkind, decide_false, ih]

/-- Sections that were laid out lie within the bounds that a reader checks. -/
theorem find?_eq_none_of_laid {data : Bytes} {position limit : Nat} {entries : List SectionEntry}
    {sections : List (SectionKind × Bytes)} (h : Laid data position limit entries sections) :
    (entries.find? fun entry ↦ entry.start < position || limit < entry.stop) = none := by
  induction h with
  | nil => rfl
  | cons first _ ih =>
    have hstart := first.le_start
    have hstop := first.stop_le
    rw [List.find?_cons, ih]
    simp only [Nat.not_lt.mpr hstart, Nat.not_lt.mpr hstop, decide_false, Bool.or_self]

/-! ## Reading what was written -/

/-- Header, content and directory are read back if they agree on counts, offsets and the build id.
-/
theorem Container.read_of_parts {header : Header} {content : Bytes} {entries : List SectionEntry}
    (hversion : header.version = Header.formatVersion)
    (hcount : header.sectionCount.toNat = entries.length)
    (hoffset : header.directoryOffset.toNat = Header.size + content.length)
    (hbuildId : header.buildId = .ofContent content)
    (hplaces : (entries.find? fun entry ↦
      entry.start < Header.size || Header.size + content.length < entry.stop) = none) :
    Container.read (header.encode ++ (content ++ Directory.encode entries)) =
      .ok { header, entries, data := header.encode ++ (content ++ Directory.encode entries) } := by
  have hheader := header.length_encode
  have hcontent := Container.slice_append header.encode content (Directory.encode entries)
  have hdirectory := Container.slice_append (header.encode ++ content) (Directory.encode entries) []
  rw [List.append_nil, List.append_assoc, List.length_append, hheader, Directory.length_encode]
    at hdirectory
  rw [hheader] at hcontent
  have hbounds : ¬(Header.size + content.length < Header.size ∨
      (header.encode ++ (content ++ Directory.encode entries)).length <
        Header.size + content.length + entries.length * SectionEntry.width) := by
    rw [List.length_append, List.length_append, hheader, Directory.length_encode]
    omega
  simp only [Container.read, Header.decode_encode header hversion, Outcome.mapError_ok,
    Outcome.ok_bind, hoffset, hcount, hbounds, if_false, hdirectory, Directory.decode_encode,
    hplaces, hcontent, hbuildId, ne_eq, not_true_eq_false, Outcome.pure_eq]

def writtenHeader (buildMode : BuildMode) (flags : UInt8) (sections : List (SectionKind × Bytes)) :
    Header where
  buildMode := buildMode
  flags := flags
  buildId := .ofContent (layout Header.size sections).2
  sectionCount := UInt16.ofNat (layout Header.size sections).1.length
  directoryOffset := UInt32.ofNat (Header.size + (layout Header.size sections).2.length)

theorem bytes_write (buildMode : BuildMode) (flags : UInt8)
    (sections : List (SectionKind × Bytes)) :
    (write buildMode flags sections).bytes = (writtenHeader buildMode flags sections).encode ++
      ((layout Header.size sections).2 ++ Directory.encode (layout Header.size sections).1) :=
  List.append_assoc _ _ _

theorem length_bytes_write (buildMode : BuildMode) (flags : UInt8)
    (sections : List (SectionKind × Bytes)) :
    (write buildMode flags sections).bytes.length =
      Header.size + (layout Header.size sections).2.length +
        sections.length * SectionEntry.width := by
  rw [bytes_write, List.length_append, List.length_append, Header.length_encode,
    Directory.length_encode, length_layout, Nat.add_assoc]

variable {buildMode : BuildMode} {flags : UInt8} {sections : List (SectionKind × Bytes)}

/-- What is written is laid out, as long as offsets are words of 32 bits. -/
theorem laid_write (hsize : (write buildMode flags sections).bytes.length < UInt32.size) :
    Laid (write buildMode flags sections).bytes Header.size
      (Header.size + (layout Header.size sections).2.length) (layout Header.size sections).1
      sections := by
  rw [length_bytes_write] at hsize
  rw [bytes_write]
  exact laid_layout _ _ sections (Header.length_encode _) (by omega)

theorem sectionCount_writtenHeader (hcount : sections.length < UInt16.size) :
    (writtenHeader buildMode flags sections).sectionCount.toNat = sections.length := by
  change (UInt16.ofNat (layout Header.size sections).1.length).toNat = _
  rw [UInt16.toNat_ofNat', length_layout]
  exact Nat.mod_eq_of_lt hcount

theorem directoryOffset_writtenHeader
    (hsize : (write buildMode flags sections).bytes.length < UInt32.size) :
    (writtenHeader buildMode flags sections).directoryOffset.toNat =
      Header.size + (layout Header.size sections).2.length := by
  rw [length_bytes_write] at hsize
  exact Wire.toNat_ofNat_of_lt (by omega)

/-- What was written passes every check. -/
theorem Container.read_write (hcount : sections.length < UInt16.size)
    (hsize : (write buildMode flags sections).bytes.length < UInt32.size) :
    Container.read (write buildMode flags sections).bytes =
      .ok {
        header := writtenHeader buildMode flags sections
        entries := (layout Header.size sections).1
        data := (write buildMode flags sections).bytes } := by
  have hlaid := laid_write hsize
  have hoffset := directoryOffset_writtenHeader hsize
  rw [bytes_write] at hlaid ⊢
  refine Container.read_of_parts rfl ?_ hoffset rfl (find?_eq_none_of_laid hlaid)
  rw [sectionCount_writtenHeader hcount, length_layout]

/-- Reading what was written gives the first payload of each kind. -/
theorem payload_written (hsize : (write buildMode flags sections).bytes.length < UInt32.size)
    (kind : SectionKind) :
    Container.section? {
        header := writtenHeader buildMode flags sections
        entries := (layout Header.size sections).1
        data := (write buildMode flags sections).bytes } kind =
      match sections.find? fun current ↦ current.1 = kind with
      | some current => .ok current.2
      | none => .error (.sectionNotFound kind) :=
  payload_of_laid (laid_write hsize) kind

end Image

end PageScript
