import PageScript.Proofs.Outcome
import PageScript.Wire

/-!
# Reading back what was written

A reader fits an encoding if, whatever bytes follow, it takes exactly the encoding and gives the
value. Readers that fit compose, so that a format is read back as soon as its parts are. Counts and
lengths are words: they have to be below 2^32, as they are in every encoding of fewer bytes.
-/

namespace PageScript.Wire

open Outcome (bind_of_ok)

variable {ε α β : Type}

/-- In front of any bytes, `reader` takes exactly `bytes` and gives `value`. -/
def Reads (reader : ReaderOf ε α) (bytes : Bytes) (value : α) : Prop :=
  ∀ (rest : Bytes) (offset : Nat),
    reader ⟨bytes ++ rest, offset⟩ = .ok value ⟨rest, offset + bytes.length⟩

/-- The encoding of every value can be read back, as long as it is shorter than 2^32 bytes. -/
def Inverts (reader : ReaderOf ε α) (encode : α → Bytes) : Prop :=
  ∀ value, (encode value).length < UInt32.size → Reads reader (encode value) value

/-! ## Composition -/

theorem reads_pure (value : α) : Reads (pure value : ReaderOf ε α) [] value :=
  fun _ _ ↦ rfl

/-- The second reader begins where the first one ended. -/
theorem Reads.bind {reader : ReaderOf ε α} {next : α → ReaderOf ε β} {bytes more : Bytes}
    {value : α} {result : β} (hreader : Reads reader bytes value)
    (hnext : Reads (next value) more result) : Reads (reader >>= next) (bytes ++ more) result := by
  intro rest offset
  have hfirst := hreader (more ++ rest) offset
  have hrest := hnext rest (offset + bytes.length)
  rw [List.append_assoc, List.length_append, ← Nat.add_assoc, ← hrest]
  exact bind_of_ok hfirst

/-- The last step of a reader that only builds its value. -/
theorem Reads.bind_pure {reader : ReaderOf ε α} {bytes : Bytes} {value : α}
    (hreader : Reads reader bytes value) (build : α → β) :
    Reads (reader >>= fun value ↦ pure (build value)) bytes (build value) := by
  have h : Reads (reader >>= fun value ↦ pure (build value)) (bytes ++ []) (build value) :=
    hreader.bind (reads_pure (build value))
  rwa [List.append_nil] at h

/-- Renaming the errors of a reader does not change what it reads. -/
theorem Reads.lift {reader : Reader α} {bytes : Bytes} {value : α} (error : Error → ε)
    (hreader : Reads reader bytes value) : Reads (reader.lift error) bytes value := by
  intro rest offset
  rw [Reader.lift, hreader rest offset]

/-- What a reader takes from the front of some bytes is determined by the bytes. -/
theorem Reads.unique {reader : ReaderOf ε α} {first second rest rest' : Bytes} {value value' : α}
    (hfirst : Reads reader first value) (hsecond : Reads reader second value')
    (h : first ++ rest = second ++ rest') : value = value' ∧ first = second ∧ rest = rest' := by
  have hvalue := hfirst rest 0
  rw [h, hsecond rest' 0] at hvalue
  injection hvalue with hvalue hcursor
  injection hcursor with hrest _
  rw [hrest] at h
  exact ⟨hvalue.symm, List.append_cancel_right h, hrest.symm⟩

/-- A reader that is run on its own leaves what follows unread. -/
theorem Reads.run {reader : ReaderOf ε α} {bytes : Bytes} {value : α}
    (hreader : Reads reader bytes value) (rest : Bytes) :
    Reader.run reader (bytes ++ rest) = .ok value := by
  rw [Reader.run, Cursor.ofBytes, hreader rest 0]

/-! ## Primitives -/

theorem toNat_ofNat_of_lt {n : Nat} (h : n < UInt32.size) : (UInt32.ofNat n).toNat = n := by
  rw [UInt32.toNat_ofNat']
  exact Nat.mod_eq_of_lt h

theorem reads_u8 (n : UInt8) : Reads Reader.u8 [n] n :=
  fun _ _ ↦ rfl

theorem reads_u16 (n : UInt16) : Reads Reader.u16 (bytesOf16 n) n := by
  intro rest offset
  have hword := word16_bytes n
  simp only [bytesOf16, List.cons_append, List.nil_append, Reader.u16, hword, List.length_cons,
    List.length_nil]

theorem reads_u32 (n : UInt32) : Reads Reader.u32 (bytesOf32 n) n := by
  intro rest offset
  have hword := word32_bytes n
  simp only [bytesOf32, List.cons_append, List.nil_append, Reader.u32, hword, List.length_cons,
    List.length_nil]

/-- A block is read back if its length is known. -/
theorem reads_block (bytes : Bytes) : Reads (Reader.block bytes.length) bytes bytes := by
  intro rest offset
  simp [Reader.block]

/-- A reader of a fixed size takes all its bytes, or none if some are missing. -/
structure TakesSize (size : Nat) (reader : Reader α) : Prop where
  whole : ∀ cursor : Cursor, size ≤ cursor.rest.length → ∃ value,
    reader cursor = .ok value ⟨cursor.rest.drop size, cursor.offset + size⟩
  missing : ∀ cursor : Cursor, cursor.rest.length < size →
    reader cursor = .error (.unexpectedEnd cursor.offset) cursor

theorem takesSize_u8 : TakesSize 1 Reader.u8 := by
  constructor
  all_goals rintro ⟨_ | ⟨b0, rest⟩, offset⟩ hsize
  · simp at hsize
  · exact ⟨b0, rfl⟩
  · rfl
  · simp at hsize

theorem takesSize_u16 : TakesSize 2 Reader.u16 := by
  constructor
  all_goals rintro ⟨_ | ⟨b0, _ | ⟨b1, rest⟩⟩, offset⟩ hsize
  iterate 2 simp at hsize
  · exact ⟨word16 b0 b1, rfl⟩
  iterate 2 rfl
  simp only [List.length_cons] at hsize
  omega

theorem takesSize_u32 : TakesSize 4 Reader.u32 := by
  constructor
  all_goals rintro ⟨_ | ⟨b0, _ | ⟨b1, _ | ⟨b2, _ | ⟨b3, rest⟩⟩⟩⟩, offset⟩ hsize
  iterate 4 simp at hsize
  · exact ⟨word32 b0 b1 b2 b3, rfl⟩
  iterate 4 rfl
  simp only [List.length_cons] at hsize
  omega

/-- A block is taken whole, or not at all. -/
theorem takesSize_block (length : Nat) : TakesSize length (Reader.block length) := by
  constructor
  · intro cursor hsize
    exact ⟨cursor.rest.take length, if_pos (List.length_take_of_le hsize)⟩
  · intro cursor hsize
    have hshort : (cursor.rest.take length).length ≠ length := by
      rw [List.length_take]
      omega
    exact if_neg hshort

/-- Any text can be decoded from its own bytes. -/
theorem reads_decode (offset : Nat) (value : String) :
    Reads (Reader.decode offset (Text.Utf8.encode value)) [] value := by
  intro rest start
  simp [Reader.decode, Text.Utf8.decode?_encode]

/-- A text is preceded by its length, a word of 32 bits. -/
theorem length_text (value : String) :
    (text value).length = 4 + (Text.Utf8.encode value).length := by
  simp [text, count]

/-- Texts are read back if their bytes can be counted. -/
theorem reads_text {value : String} (hsize : (Text.Utf8.encode value).length < UInt32.size) :
    Reads Reader.text (text value) value := by
  have hlength := toNat_ofNat_of_lt hsize
  have hbody (offset : Nat) := (reads_block (Text.Utf8.encode value)).bind
    (reads_decode offset value)
  rw [List.append_nil] at hbody
  rw [text, count]
  refine (reads_u32 _).bind fun rest offset ↦ ?_
  rw [hlength]
  exact hbody offset rest offset

theorem inverts_text : Inverts Reader.text text := by
  intro value hsize
  rw [length_text] at hsize
  exact reads_text (by omega)

/-! ## Lists -/

/-- A known number of items is read back, each from its own bytes. -/
theorem reads_times {item : ReaderOf ε α} {encode : α → Bytes} (items : List α)
    (hitem : ∀ value ∈ items, Reads item (encode value) value) :
    Reads (Reader.times item items.length) (items.flatMap encode) items := by
  induction items with
  | nil => exact reads_pure []
  | cons value rest ih =>
    have hrest := ih fun other hother ↦ hitem other (List.mem_cons_of_mem _ hother)
    exact (hitem value List.mem_cons_self).bind (hrest.bind_pure (value :: ·))

theorem length_le_length_flatMap_of_mem (encode : α → Bytes) {items : List α} {value : α}
    (h : value ∈ items) : (encode value).length ≤ (items.flatMap encode).length := by
  obtain ⟨before, after, rfl⟩ := List.append_of_mem h
  simp only [List.flatMap_append, List.flatMap_cons, List.length_append]
  omega

/-- Items that take bytes are no more than the bytes they take. -/
theorem length_le_length_flatMap {encode : α → Bytes} (hencode : ∀ value, encode value ≠ [])
    (items : List α) : items.length ≤ (items.flatMap encode).length := by
  induction items with
  | nil => simp
  | cons value rest ih =>
    have hvalue := List.length_pos_iff.mpr (hencode value)
    simp only [List.flatMap_cons, List.length_append, List.length_cons]
    omega

theorem length_list (encode : α → Bytes) (items : List α) :
    (list encode items).length = 4 + (items.flatMap encode).length := by
  simp [list, count]

/-- A list below 2^32 bytes has a length that is told by a word. -/
theorem length_lt_of_length_list {encode : α → Bytes} (hencode : ∀ value, encode value ≠ [])
    {items : List α} (hsize : (list encode items).length < UInt32.size) :
    items.length < UInt32.size := by
  have hlength := length_le_length_flatMap hencode items
  rw [length_list] at hsize
  omega

/-- Lists are read back if their items are and can be counted. -/
theorem reads_list {item : Reader α} {encode : α → Bytes} {items : List α}
    (hcount : items.length < UInt32.size)
    (hitem : ∀ value ∈ items, Reads item (encode value) value) :
    Reads (Reader.list item) (list encode items) items := by
  refine (reads_u32 _).bind ?_
  rw [toNat_ofNat_of_lt hcount]
  exact reads_times items hitem

/-- Items that take no space would let a count grow without bound, hence `hencode`. -/
theorem inverts_list {item : Reader α} {encode : α → Bytes} (hitem : Inverts item encode)
    (hencode : ∀ value, encode value ≠ []) : Inverts (Reader.list item) (list encode) := by
  intro items hsize
  apply reads_list (length_lt_of_length_list hencode hsize)
  intro value hvalue
  have hle := length_le_length_flatMap_of_mem encode hvalue
  rw [length_list] at hsize
  exact hitem value (by omega)

theorem text_ne_nil (value : String) : text value ≠ [] := by
  simp [text, count, bytesOf32]

end PageScript.Wire
