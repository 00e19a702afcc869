import PageScript.Proofs.Image.Bounds
import PageScript.Proofs.Image.Faults

/-!
# Images and symbols that were cut off

The directory is the last part of an image and the header tells where it ends, so a cut anywhere
behind the header shows before anything else is looked at, the build id included. A symbol stream
has no such mark: there each part is not content with less than was written.
-/

namespace PageScript

namespace Image

theorem Header.decode_of_length_lt {bytes : Bytes} (h : bytes.length < Header.size) :
    Header.decode bytes = .error .tooShort := by
  have hbounded := Bounded.header_eq bytes
  rw [Bounded.header, if_pos h] at hbounded
  cases hdecode : Header.decode bytes with
  | ok header =>
    rw [hdecode] at hbounded
    contradiction
  | error error =>
    rw [hdecode] at hbounded
    injection hbounded with hfault
    injection hfault with herror
    rw [herror]

/-- Once the header is there, a directory that ends behind the bytes is noticed. -/
theorem Container.read_of_length_lt {header : Header} {rest : Bytes}
    (hversion : header.version = Header.formatVersion)
    (hstop : (header.encode ++ rest).length <
      header.directoryOffset.toNat + header.sectionCount.toNat * SectionEntry.width) :
    Container.read (header.encode ++ rest) = .error .invalidOffset := by
  simp only [Container.read, Header.decode_encode header hversion, Outcome.mapError_ok,
    Outcome.ok_bind, hstop, or_true, if_true]
  rfl

variable {buildMode : BuildMode} {flags : UInt8} {sections : List (SectionKind × Bytes)}

theorem stop_writtenHeader (hcount : sections.length < UInt16.size)
    (hsize : (write buildMode flags sections).bytes.length < UInt32.size) :
    (writtenHeader buildMode flags sections).directoryOffset.toNat +
        (writtenHeader buildMode flags sections).sectionCount.toNat * SectionEntry.width =
      (write buildMode flags sections).bytes.length := by
  rw [directoryOffset_writtenHeader hsize, sectionCount_writtenHeader hcount, length_bytes_write]

/-- Containers that were cut off are refused, and the error tells whether the header is whole. -/
theorem Container.read_truncated (hcount : sections.length < UInt16.size)
    (hsize : (write buildMode flags sections).bytes.length < UInt32.size) {start : Bytes}
    (hstart : start <+: (write buildMode flags sections).bytes)
    (hne : start ≠ (write buildMode flags sections).bytes) :
    Container.read start =
      .error (if start.length < Header.size then .header .tooShort else .invalidOffset) := by
  by_cases hshort : start.length < Header.size
  · rw [if_pos hshort, Container.read, Header.decode_of_length_lt hshort]
    rfl
  · rw [if_neg hshort]
    have hheader := Header.length_encode (writtenHeader buildMode flags sections)
    have hlength : start.length < (write buildMode flags sections).bytes.length :=
      Nat.lt_of_le_of_ne hstart.length_le fun heq ↦ hne (hstart.eq_of_length heq)
    -- what is left begins with the whole header
    obtain ⟨rest, hrest⟩ : (writtenHeader buildMode flags sections).encode <+: start := by
      rw [bytes_write] at hstart
      apply List.prefix_of_prefix_length_le (List.prefix_append _ _) hstart
      omega
    rw [← stop_writtenHeader hcount hsize, ← hrest] at hlength
    rw [← hrest]
    exact Container.read_of_length_lt rfl hlength

end Image

open Image

theorem ModuleImage.decode_truncated {image : ModuleImage}
    (hsize : image.encode.1.length < UInt32.size) {start : Bytes}
    (hstart : start <+: image.encode.1) (hne : start ≠ image.encode.1) :
    decode start =
      .error (if start.length < Header.size then .header .tooShort else .invalidOffset) := by
  rw [bytes_encode] at hsize hstart hne
  rw [decode, Container.read_truncated (by simp [sections, UInt16.size]) hsize hstart hne]
  rfl

/-- No proper beginning of an encoding is taken for anything: for an image the error says whether
the header is whole, for symbols that the bytes ended unexpectedly, somewhere within them. -/
theorem truncation_detected (start : Bytes) :
    (∀ image : ModuleImage, image.encode.1.length < UInt32.size → start <+: image.encode.1 →
      start ≠ image.encode.1 →
        ModuleImage.decode start =
          .error (if start.length < Header.size then .header .tooShort else .invalidOffset)) ∧
      ∀ symbols : DebugSymbols, symbols.Fits → start <+: symbols.encode →
        start ≠ symbols.encode → ∃ place ≤ start.length,
          DebugSymbols.decode start = .error (.wire (.unexpectedEnd place)) := by
  constructor
  · intro image hsize hstart hne
    exact ModuleImage.decode_truncated hsize hstart hne
  · intro symbols hfits hstart hne
    exact (DebugSymbols.takes_encode hfits).starves.run hstart hne

/-- The last byte of a directory, a byte of a header, and half of a letter are missing. -/
theorem truncation_detected_page :
    ModuleImage.decode (ModuleImage.pageImage 0).encode.1.dropLast = .error .invalidOffset ∧
      ModuleImage.decode ((ModuleImage.pageImage 0).encode.1.take 31) =
        .error (.header .tooShort) ∧
      ∃ place ≤ 56, DebugSymbols.decode (DebugSymbols.pageSymbols.encode.take 56) =
        .error (.wire (.unexpectedEnd place)) := by
  have hlength : (ModuleImage.pageImage 0).encode.1.length = 204 := by
    rw [ModuleImage.bytes_encode, length_bytes_write]
    decide +kernel
  have hsize : (ModuleImage.pageImage 0).encode.1.length < UInt32.size := by
    rw [hlength]
    decide
  have hsymbols : DebugSymbols.pageSymbols.encode.length = 168 := by decide +kernel
  have hfits : DebugSymbols.pageSymbols.Fits := by
    apply DebugSymbols.fits_of_length_encode
    rw [hsymbols]
    decide
  refine ⟨?_, ?_, ?_⟩
  · have hcut := (truncation_detected _).1 _ hsize (List.dropLast_prefix _)
      (ne_of_apply_ne List.length (by rw [List.length_dropLast, hlength]; decide))
    rw [List.length_dropLast, hlength] at hcut
    exact hcut
  · have hcut := (truncation_detected _).1 _ hsize (List.take_prefix 31 _)
      (ne_of_apply_ne List.length (by rw [List.length_take, hlength]; decide))
    rw [List.length_take, hlength] at hcut
    exact hcut
  · have hcut := (truncation_detected _).2 _ hfits (List.take_prefix 56 _)
      (ne_of_apply_ne List.length (by rw [List.length_take, hsymbols]; decide))
    rw [List.length_take, hsymbols] at hcut
    exact hcut

end PageScript
