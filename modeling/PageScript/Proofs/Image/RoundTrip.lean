import PageScript.Image
import PageScript.Image.Symbols
import PageScript.Proofs.Image.Container
import PageScript.Proofs.Wire.Truncation

/-!
# Images and symbols round trip

An image is read back from its encoding, unless one of its own indices is out of range: then reading
reports what checking the image itself reports. This needs an encoding that is shorter than 2^32
bytes. A symbol stream is always read back, also in front of other bytes, as long as each of its
counts and lengths fits into a word.
-/

namespace PageScript

open Image

namespace Image

/-- A section is no longer than all of them together. -/
theorem length_le_length_layout {sections : List (SectionKind × Bytes)} {kind : SectionKind}
    {payload : Bytes} (h : (kind, payload) ∈ sections) (position : Nat) :
    payload.length ≤ (layout position sections).2.length := by
  induction sections generalizing position with
  | nil => simp at h
  | cons current rest ih =>
    rcases current with ⟨kind', payload'⟩
    rw [layout_cons]
    simp only [List.length_append]
    rcases List.mem_cons.mp h with heq | hrest
    · cases heq
      omega
    · have hle := ih hrest (position + (padding position).length + payload'.length)
      omega

end Image

namespace ModuleImage

theorem inverts_typeReader : Wire.Inverts typeReader encodeType := by
  intro entry _
  exact (Wire.reads_u32 _).bind ((Wire.reads_u32 _).bind_pure _)

theorem inverts_classReader : Wire.Inverts classReader encodeClass := by
  intro entry _
  simp only [encodeClass, List.append_assoc]
  refine (Wire.reads_u32 _).bind ((Wire.reads_u32 _).bind ((Wire.reads_u32 _).bind ?_))
  exact (Wire.reads_u32 _).bind ((Wire.reads_u32 _).bind_pure _)

/-- An entry takes bytes, so that short sections have few entries. -/
theorem encodeType_ne_nil (entry : TypeEntry) : encodeType entry ≠ [] :=
  List.cons_ne_nil _ _

theorem encodeClass_ne_nil (entry : ClassEntry) : encodeClass entry ≠ [] :=
  List.cons_ne_nil _ _

theorem bytes_encode (image : ModuleImage) :
    image.encode.1 = (write image.buildMode image.flags image.sections).bytes := rfl

theorem buildId_encode (image : ModuleImage) :
    image.encode.2 = (writtenHeader image.buildMode image.flags image.sections).buildId := rfl

/-- Each section of a short image is short. -/
theorem length_section_lt {image : ModuleImage} (hsize : image.encode.1.length < UInt32.size)
    (kind : SectionKind) (payload : Bytes) (h : (kind, payload) ∈ image.sections) :
    payload.length < UInt32.size := by
  have hle := length_le_length_layout h Header.size
  have hlength := length_bytes_write image.buildMode image.flags image.sections
  rw [bytes_encode] at hsize
  omega

/-- Places in the tables of an image can be told by words. -/
structure Fits (image : ModuleImage) : Prop where
  strings : image.strings.length < UInt32.size
  types : image.types.length < UInt32.size
  classes : image.classes.length < UInt32.size
  code : image.code.length < UInt32.size

/-- An image below 2^32 bytes has texts and tables below this size. -/
theorem fits_of_length_encode {image : ModuleImage} (hsize : image.encode.1.length < UInt32.size) :
    image.Fits := by
  have hpayload := length_section_lt hsize
  have hstrings := hpayload .stringPool (Wire.list Wire.text image.strings) (by simp [sections])
  have htypes := hpayload .typeRefs (Wire.list encodeType image.types) (by simp [sections])
  have hclasses := hpayload .classTable (Wire.list encodeClass image.classes) (by simp [sections])
  have hcode := hpayload .code image.code (by simp [sections])
  exact ⟨Wire.length_lt_of_length_list Wire.text_ne_nil hstrings,
    Wire.length_lt_of_length_list encodeType_ne_nil htypes,
    Wire.length_lt_of_length_list encodeClass_ne_nil hclasses, hcode⟩

/-- The tables of an image are read back from their sections. -/
structure Readable (image : ModuleImage) : Prop where
  name : Wire.Reads Wire.Reader.text (Wire.text image.name) image.name
  strings : Wire.Reads (Wire.Reader.list Wire.Reader.text) (Wire.list Wire.text image.strings)
    image.strings
  types : Wire.Reads (Wire.Reader.list typeReader) (Wire.list encodeType image.types) image.types
  classes : Wire.Reads (Wire.Reader.list classReader) (Wire.list encodeClass image.classes)
    image.classes

/-- What an image below 2^32 bytes holds can be told by words of 32 bits. -/
theorem readable_of_length_encode {image : ModuleImage}
    (hsize : image.encode.1.length < UInt32.size) : image.Readable := by
  have hpayload := length_section_lt hsize
  constructor
  · exact Wire.inverts_text _ (hpayload .moduleInfo _ (by simp [sections]))
  · exact Wire.inverts_list Wire.inverts_text Wire.text_ne_nil _
      (hpayload .stringPool _ (by simp [sections]))
  · exact Wire.inverts_list inverts_typeReader encodeType_ne_nil _
      (hpayload .typeRefs _ (by simp [sections]))
  · exact Wire.inverts_list inverts_classReader encodeClass_ne_nil _
      (hpayload .classTable _ (by simp [sections]))

/-- A section is read from its start, and what a reader leaves of it does not matter. -/
theorem readSection_of_reads {α : Type} {container : Container} {kind : SectionKind}
    {reader : Wire.Reader α} {payload : Bytes} {value : α}
    (hreads : Wire.Reads reader payload value) (hsection : container.section? kind = .ok payload) :
    readSection container kind reader = .ok value := by
  have hrun := hreads.run []
  rw [List.append_nil] at hrun
  rw [readSection, hsection, Outcome.ok_bind, hrun, Outcome.mapError_ok]

/-- An image is read back exactly if it passes its own check. -/
theorem decode_encode (image : ModuleImage) (hsize : image.encode.1.length < UInt32.size) :
    decode image.encode.1 = image.validate >>= fun _ ↦ .ok (image, image.encode.2) := by
  have hreadable := readable_of_length_encode hsize
  rw [bytes_encode] at hsize ⊢
  rw [buildId_encode]
  have hsection := payload_written hsize
  have hname := readSection_of_reads hreadable.name (hsection .moduleInfo)
  have hstrings := readSection_of_reads hreadable.strings (hsection .stringPool)
  have htypes := readSection_of_reads hreadable.types (hsection .typeRefs)
  have hclasses := readSection_of_reads hreadable.classes (hsection .classTable)
  have hcode : Container.section? _ .code = .ok image.code := hsection .code
  have hread := Container.read_write (by simp [sections, UInt16.size]) hsize
  simp only [decode, hread, hname, hstrings, htypes, hclasses, hcode, Outcome.ok_bind]
  rfl

end ModuleImage

/-! ## Symbol streams

Every count and every length of a stream stands in front of what it counts, so a stream may well be
longer than 2^32 bytes as long as each of them fits. -/

/-- The lengths of path and text can be told by words. -/
structure Document.Fits (document : Document) : Prop where
  path : (Text.Utf8.encode document.path).length < UInt32.size
  text : ∀ text ∈ document.text, (Text.Utf8.encode text).length < UInt32.size

/-- The length of the name and the number of points can be told by words. -/
structure ClassSymbols.Fits (entry : ClassSymbols) : Prop where
  className : (Text.Utf8.encode entry.className).length < UInt32.size
  points : entry.points.length < UInt32.size

namespace DebugSymbols

/-- Every count and every length in a symbol stream can be told by a word. -/
structure Fits (symbols : DebugSymbols) : Prop where
  moduleName : (Text.Utf8.encode symbols.moduleName).length < UInt32.size
  documents : symbols.documents.length < UInt32.size
  document : ∀ document ∈ symbols.documents, document.Fits
  classes : symbols.classes.length < UInt32.size
  entry : ∀ entry ∈ symbols.classes, entry.Fits

/-- What is reported of a stream that ends too early. -/
abbrev ended (place : Nat) : Error := .wire (.unexpectedEnd place)

theorem takes_kind (kind : DocumentKind) : Wire.Takes ended kindReader [kind.tag] kind := by
  have htag := (Wire.takes_u8 kind.tag).lift Error.wire
  have hkind (kind : DocumentKind) : Wire.Takes ended (pure kind : Reader DocumentKind) [] kind :=
    Wire.takes_of_reads_nil (Wire.reads_pure kind)
  cases kind with
  | generated => exact htag.bind (hkind .generated)
  | markup => exact htag.bind (hkind .markup)

/-- Cut off anywhere, a document ends unexpectedly, with or without its text. -/
theorem takes_document {document : Document} (hfits : document.Fits) :
    Wire.Takes ended documentReader (encodeDocument document) document := by
  rcases document with ⟨path, kind, text⟩
  have hpath := (Wire.takes_text hfits.path).lift Error.wire
  cases text with
  | none =>
    change Wire.Takes ended documentReader ([kind.tag] ++ ([0] ++ (Wire.text path ++ []))) _
    refine (takes_kind kind).bind (((Wire.takes_u8 0).lift _).bind (hpath.bind ?_))
    exact Wire.takes_of_reads_nil (Wire.reads_pure _)
  | some text =>
    have htext := (Wire.takes_text (hfits.text text rfl)).lift Error.wire
    change Wire.Takes ended documentReader
      ([kind.tag] ++ ([1] ++ (Wire.text path ++ Wire.text text))) _
    refine (takes_kind kind).bind (((Wire.takes_u8 1).lift _).bind (hpath.bind ?_))
    exact htext.bind_pure _

theorem takes_point (point : SequencePoint) :
    Wire.Takes Wire.Error.unexpectedEnd pointReader (encodePoint point) point := by
  simp only [encodePoint, List.append_assoc]
  refine (Wire.takes_u32 _).bind ((Wire.takes_u32 _).bind ?_)
  exact (Wire.takes_u32 _).bind ((Wire.takes_u32 _).bind_pure _)

/-- The points of a class are counted first, so a class cut off anywhere ends unexpectedly. -/
theorem takes_class {entry : ClassSymbols} (hfits : entry.Fits) :
    Wire.Takes Wire.Error.unexpectedEnd classReader (encodeClass entry) entry := by
  have hpoints := Wire.takes_list hfits.points fun point _ ↦ takes_point point
  exact (Wire.takes_text hfits.className).bind (hpoints.bind_pure _)

/-- A reader of symbols takes a whole stream and nothing less. -/
theorem takes_encode {symbols : DebugSymbols} (hfits : symbols.Fits) :
    Wire.Takes ended reader symbols.encode symbols := by
  rcases symbols with ⟨buildId, moduleName, documents, classes⟩
  have hmagic := (Wire.takes_block magic).lift Error.wire
  have hversion := (Wire.takes_u16 formatVersion).lift Error.wire
  have hbuildId := (Wire.takes_block buildId.bytes).lift Error.wire
  rw [buildId.length_bytes] at hbuildId
  have hname := (Wire.takes_text hfits.moduleName).lift Error.wire
  have hdocuments := Wire.takes_times documents fun document hdocument ↦
    takes_document (hfits.document document hdocument)
  have hclasses := (Wire.takes_list hfits.classes fun entry hentry ↦
    takes_class (hfits.entry entry hentry)).lift Error.wire
  simp only [encode, List.append_assoc]
  refine hmagic.bind (hversion.bind (hbuildId.bind (hname.bind ?_)))
  rw [Wire.list, List.append_assoc]
  refine ((Wire.takes_u32 _).lift Error.wire).bind ?_
  rw [Wire.toNat_ofNat_of_lt hfits.documents]
  simp only [BuildId.ofBytes_bytes]
  exact hdocuments.bind (hclasses.bind_pure _)

/-! ### Short streams -/

theorem encodeDocument_ne_nil (document : Document) : encodeDocument document ≠ [] :=
  List.cons_ne_nil _ _

theorem encodePoint_ne_nil (point : SequencePoint) : encodePoint point ≠ [] :=
  List.cons_ne_nil _ _

theorem encodeClass_ne_nil (entry : ClassSymbols) : encodeClass entry ≠ [] := by
  simp [encodeClass, Wire.text_ne_nil]

/-- A document below 2^32 bytes has a path and a text below this size. -/
theorem document_fits {document : Document}
    (hsize : (encodeDocument document).length < UInt32.size) : document.Fits := by
  have hlength : (encodeDocument document).length = 2 + (Wire.text document.path).length +
      ((document.text.map Wire.text).getD []).length := by
    simp only [encodeDocument, List.length_append, List.length_cons, List.length_nil]
  rw [hlength, Wire.length_text] at hsize
  refine ⟨by omega, fun text htext ↦ ?_⟩
  rw [Option.mem_def.mp htext, Option.map_some, Option.getD_some, Wire.length_text] at hsize
  omega

/-- The symbols of a class below 2^32 bytes have a name and a list of points below this size. -/
theorem class_fits {entry : ClassSymbols} (hsize : (encodeClass entry).length < UInt32.size) :
    entry.Fits := by
  simp only [encodeClass, List.length_append, Wire.length_text] at hsize
  exact ⟨by omega, Wire.length_lt_of_length_list encodePoint_ne_nil (by omega)⟩

/-- In a stream below 2^32 bytes every count and every length fits. -/
theorem fits_of_length_encode {symbols : DebugSymbols}
    (hsize : symbols.encode.length < UInt32.size) : symbols.Fits := by
  simp only [encode, List.length_append, Wire.length_text] at hsize
  have hdocuments := Wire.length_list encodeDocument symbols.documents
  have hclasses := Wire.length_list encodeClass symbols.classes
  refine ⟨by omega, Wire.length_lt_of_length_list encodeDocument_ne_nil (by omega),
    fun document hdocument ↦ document_fits ?_,
    Wire.length_lt_of_length_list encodeClass_ne_nil (by omega), fun entry hentry ↦ class_fits ?_⟩
  · have hle := Wire.length_le_length_flatMap_of_mem encodeDocument hdocument
    omega
  · have hle := Wire.length_le_length_flatMap_of_mem encodeClass hentry
    omega

theorem decode_encode (symbols : DebugSymbols) (hsize : symbols.encode.length < UInt32.size) :
    decode symbols.encode = .ok symbols := by
  have hrun := (takes_encode (fits_of_length_encode hsize)).reads.run []
  rwa [List.append_nil] at hrun

/-! ### Reading back -/

/-- Symbols are read back from their encoding, whatever follows it, if only each count and each
length fits into its word. -/
theorem decode_encode_of_fits (symbols : DebugSymbols) (hfits : symbols.Fits) :
    decode symbols.encode = .ok symbols ∧
      ∀ rest : Bytes, decode (symbols.encode ++ rest) = .ok symbols := by
  have hrun := (takes_encode hfits).reads.run
  constructor
  · have hwhole := hrun []
    rwa [List.append_nil] at hwhole
  · exact hrun

/-- Symbols of a page whose markup is empty and was kept. -/
def pageSymbols : DebugSymbols where
  buildId := .ofBytes [3, 1, 4, 1, 5]
  moduleName := "Compiled.Größe"
  documents := [
    { path := "/größe.kps", kind := .generated },
    { path := "/größe", kind := .markup, text := some "" },
    { path := "/fuß", kind := .markup, text := some "<p>ß</p>" }]
  classes := [
    { className := "Page_gr__e", points := [⟨0, 1, 1, 1⟩, ⟨2, 2, 4294967295, 1⟩] },
    { className := "" }]

theorem decode_encode_pageSymbols :
    pageSymbols.Fits ∧ decode (pageSymbols.encode ++ [0x4b, 0x50]) = .ok pageSymbols := by
  have hsize : pageSymbols.encode.length < UInt32.size := by decide +kernel
  have hfits := fits_of_length_encode hsize
  exact ⟨hfits, (decode_encode_of_fits pageSymbols hfits).2 _⟩

end DebugSymbols

end PageScript
