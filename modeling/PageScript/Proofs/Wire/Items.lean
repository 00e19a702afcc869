import PageScript.Proofs.Wire

/-!
# Sequences of items

All binary formats are sequences of a few kinds of items. Items that are written one after the other
are read back by a schema that tells their kinds, whatever follows them. Reading anything else does
no harm: a cursor never goes back and never leaves the bytes, and where a read fails it stays in
front of what could not be read, or behind a text that is no UTF-8.
-/

namespace PageScript.Wire

open Outcome (bind_of_ok bind_of_error)

/-! ## Items and schemas -/

inductive Item where
  | u8 (n : UInt8)
  | u16 (n : UInt16)
  | u32 (n : UInt32)
  | block (bytes : Bytes)
  | text (value : String)
  deriving DecidableEq, Repr, Inhabited

/-- What has to be known of an item before it is read. Blocks do not tell their length. -/
inductive Item.Kind where
  | u8
  | u16
  | u32
  | block (length : Nat)
  | text
  deriving DecidableEq, Repr, Inhabited

namespace Item

def kind : Item → Kind
  | u8 _ => .u8
  | u16 _ => .u16
  | u32 _ => .u32
  | block bytes => .block bytes.length
  | text _ => .text

def encode : Item → Bytes
  | u8 n => [n]
  | u16 n => bytesOf16 n
  | u32 n => bytesOf32 n
  | block bytes => bytes
  | text value => Wire.text value

/-- The bytes of a text can be counted by a word. -/
def Fits : Item → Prop
  | text value => (Text.Utf8.encode value).length < UInt32.size
  | _ => True

instance : (item : Item) → Decidable item.Fits
  | text value => inferInstanceAs (Decidable ((Text.Utf8.encode value).length < UInt32.size))
  | u8 _ | u16 _ | u32 _ | block _ => isTrue trivial

namespace Kind

def read : Kind → Reader Item
  | u8 => return Item.u8 (← Reader.u8)
  | u16 => return Item.u16 (← Reader.u16)
  | u32 => return Item.u32 (← Reader.u32)
  | block length => return Item.block (← Reader.block length)
  | text => return Item.text (← Reader.text)

/-- The number of bytes, if the kind alone tells it. -/
def size? : Kind → Option Nat
  | u8 => some 1
  | u16 => some 2
  | u32 => some 4
  | block length => some length
  | text => none

end Kind

def readAll : List Kind → Reader (List Item)
  | [] => pure []
  | kind :: rest => do
    let first ← kind.read
    let others ← readAll rest
    return first :: others

/-! ## Reading back -/

/-- An item that fits its width comes back as it was, with nothing read beyond it. -/
theorem reads_kind {item : Item} (h : item.Fits) : Reads item.kind.read item.encode item := by
  cases item with
  | u8 n => exact (reads_u8 n).bind_pure Item.u8
  | u16 n => exact (reads_u16 n).bind_pure Item.u16
  | u32 n => exact (reads_u32 n).bind_pure Item.u32
  | block bytes => exact (reads_block bytes).bind_pure Item.block
  | text value => exact (reads_text h).bind_pure Item.text

/-- Items come back in order, since each reader ends where the next item begins. -/
theorem reads_readAll {items : List Item} (h : ∀ item ∈ items, item.Fits) :
    Reads (readAll (items.map kind)) (items.flatMap encode) items := by
  induction items with
  | nil => exact reads_pure []
  | cons item rest ih =>
    rw [List.forall_mem_cons] at h
    exact (reads_kind h.1).bind ((ih h.2).bind_pure (item :: ·))

end Item

variable {ε α β : Type}

/-! ## Positions -/

/-- The cursor that a reader leaves, whether it fails or not. -/
def Cursor.left : EStateM.Result ε Cursor α → Cursor
  | .ok _ next => next
  | .error _ next => next

/-- What a reader takes is the front of what there was, and it is counted, also if reading fails. -/
def Advances (reader : ReaderOf ε α) : Prop :=
  ∀ cursor, ∃ taken, cursor.rest = taken ++ (Cursor.left (reader cursor)).rest ∧
    (Cursor.left (reader cursor)).offset = cursor.offset + taken.length

theorem advances_pure (value : α) : Advances (pure value : ReaderOf ε α) :=
  fun _ ↦ ⟨[], rfl, rfl⟩

theorem advances_get : Advances (get : ReaderOf ε Cursor) := fun _ ↦ ⟨[], rfl, rfl⟩

/-- Readers in a row advance if each does, also where the second depends on what the first read. -/
theorem Advances.bind {reader : ReaderOf ε α} {next : α → ReaderOf ε β} (hreader : Advances reader)
    (hnext : ∀ value, Advances (next value)) : Advances (reader >>= next) := by
  intro cursor
  obtain ⟨taken, hrest, hoffset⟩ := hreader cursor
  cases hread : reader cursor with
  | error error middle =>
    rw [hread] at hrest hoffset
    rw [bind_of_error hread]
    exact ⟨taken, hrest, hoffset⟩
  | ok value middle =>
    rw [hread] at hrest hoffset
    rw [bind_of_ok hread]
    obtain ⟨more, hmore, hlength⟩ := hnext value middle
    refine ⟨taken ++ more, ?_, ?_⟩
    · rw [List.append_assoc, ← hmore]
      exact hrest
    · rw [List.length_append, ← Nat.add_assoc, ← hoffset]
      exact hlength

/-- A reader of a fixed size takes all its bytes or none. -/
theorem TakesSize.advances {size : Nat} {reader : Reader α} (h : TakesSize size reader) :
    Advances reader := by
  intro cursor
  by_cases hsize : size ≤ cursor.rest.length
  · obtain ⟨value, hread⟩ := h.whole cursor hsize
    rw [hread]
    refine ⟨cursor.rest.take size, (List.take_append_drop _ _).symm, ?_⟩
    rw [List.length_take_of_le hsize]
    rfl
  · rw [h.missing cursor (Nat.lt_of_not_le hsize)]
    exact ⟨[], rfl, rfl⟩

/-- Bytes that are no text have been taken all the same. -/
theorem advances_decode (offset : Nat) (bytes : Bytes) : Advances (Reader.decode offset bytes) := by
  intro cursor
  refine ⟨[], ?_⟩
  unfold Reader.decode
  split <;> exact ⟨rfl, rfl⟩

theorem advances_text : Advances Reader.text :=
  takesSize_u32.advances.bind fun length ↦ advances_get.bind fun cursor ↦
    (takesSize_block length.toNat).advances.bind fun bytes ↦ advances_decode cursor.offset bytes

theorem TakesSize.build {size : Nat} {reader : Reader α} (h : TakesSize size reader)
    (build : α → β) : TakesSize size (reader >>= fun value ↦ pure (build value)) := by
  constructor
  · intro cursor hsize
    obtain ⟨value, hread⟩ := h.whole cursor hsize
    exact ⟨build value, bind_of_ok hread⟩
  · intro cursor hsize
    exact bind_of_error (h.missing cursor hsize)

namespace Item.Kind

/-- Kinds of a fixed size are read whole, or not at all. -/
theorem takesSize_read {kind : Kind} {size : Nat} (h : kind.size? = some size) :
    TakesSize size kind.read := by
  cases kind with
  | u8 => exact Option.some.inj h ▸ takesSize_u8.build Item.u8
  | u16 => exact Option.some.inj h ▸ takesSize_u16.build Item.u16
  | u32 => exact Option.some.inj h ▸ takesSize_u32.build Item.u32
  | block length => exact Option.some.inj h ▸ (takesSize_block length).build Item.block
  | text => contradiction

/-- No kind of item leads back, whether it is read or not. -/
theorem advances_read (kind : Kind) : Advances kind.read := by
  cases kind with
  | text => exact advances_text.bind fun value ↦ advances_pure (Item.text value)
  | u8 | u16 | u32 | block => exact (takesSize_read rfl).advances

/-- The cursor behind a read, which may have failed. -/
def after (kind : Kind) (cursor : Cursor) : Cursor := Cursor.left (kind.read cursor)

end Item.Kind

/-- The cursors in a sequence of reads, each of which goes on where the one before has stopped. -/
def Cursor.trail (cursor : Cursor) : List Item.Kind → List Cursor
  | [] => [cursor]
  | kind :: rest => cursor :: Cursor.trail (kind.after cursor) rest

/-- A cursor stands within a byte string, or at its end. -/
structure Cursor.Within (cursor : Cursor) (data : Bytes) : Prop where
  offset_le : cursor.offset ≤ data.length
  rest_eq : cursor.rest = data.drop cursor.offset

theorem within_ofBytes (data : Bytes) : (Cursor.ofBytes data).Within data :=
  ⟨Nat.zero_le _, rfl⟩

/-- A read leads on within the data, also if it fails. -/
theorem Cursor.Within.after {cursor : Cursor} {data : Bytes} (h : cursor.Within data)
    (kind : Item.Kind) : (kind.after cursor).Within data ∧
      cursor.offset ≤ (kind.after cursor).offset := by
  obtain ⟨taken, hrest, hoffset⟩ := kind.advances_read cursor
  rw [← Item.Kind.after] at hrest hoffset
  have hle := h.offset_le
  have hlength : taken.length ≤ data.length - cursor.offset := by
    rw [← List.length_drop, ← h.rest_eq, hrest, List.length_append]
    exact Nat.le_add_right _ _
  refine ⟨⟨by omega, ?_⟩, by omega⟩
  rw [hoffset, ← List.drop_drop, ← h.rest_eq, hrest, List.drop_left]

/-- All places that a sequence of reads passes through lie in the data, at or behind the start. -/
theorem Cursor.Within.trail {cursor : Cursor} {data : Bytes} (h : cursor.Within data)
    (kinds : List Item.Kind) : ∀ later ∈ cursor.trail kinds,
      later.Within data ∧ cursor.offset ≤ later.offset := by
  induction kinds generalizing cursor with
  | nil => exact List.forall_mem_singleton.mpr ⟨h, Nat.le_refl _⟩
  | cons kind rest ih =>
    obtain ⟨hnext, hle⟩ := h.after kind
    refine List.forall_mem_cons.mpr ⟨⟨h, Nat.le_refl _⟩, fun later hlater ↦ ?_⟩
    obtain ⟨hwithin, hnextLe⟩ := ih hnext later hlater
    exact ⟨hwithin, Nat.le_trans hle hnextLe⟩

/-- The places of a sequence of reads never go back. -/
theorem Cursor.Within.pairwise_trail {cursor : Cursor} {data : Bytes} (h : cursor.Within data)
    (kinds : List Item.Kind) :
    (cursor.trail kinds).Pairwise fun first second ↦ first.offset ≤ second.offset := by
  induction kinds generalizing cursor with
  | nil => exact List.pairwise_singleton _ _
  | cons kind rest ih =>
    obtain ⟨hnext, hle⟩ := h.after kind
    refine List.pairwise_cons.mpr ⟨fun later hlater ↦ ?_, ih hnext⟩
    exact Nat.le_trans hle (hnext.trail rest later hlater).2

/-! ## Texts that cannot be read -/

/-- Where a text cannot be read, what is said of it, and where the cursor is left. -/
inductive TextFails : Cursor → Error → Cursor → Prop
  | length {cursor : Cursor} (h : cursor.rest.length < 4) :
      TextFails cursor (.unexpectedEnd cursor.offset) cursor
  | body {length : UInt32} {bytes : Bytes} {offset : Nat} (h : bytes.length < length.toNat) :
      TextFails ⟨bytesOf32 length ++ bytes, offset⟩ (.unexpectedEnd (offset + 4))
        ⟨bytes, offset + 4⟩
  | encoding {length : UInt32} {bytes rest : Bytes} {offset : Nat}
      (hlength : bytes.length = length.toNat) (h : ∀ value, Text.Utf8.encode value ≠ bytes) :
      TextFails ⟨bytesOf32 length ++ (bytes ++ rest), offset⟩ (.invalidUtf8 (offset + 4))
        ⟨rest, offset + 4 + bytes.length⟩

/-- Behind its length, a text is a block that is decoded. -/
theorem text_of_length (length : UInt32) (bytes : Bytes) (offset : Nat) :
    Reader.text ⟨bytesOf32 length ++ bytes, offset⟩ =
      (Reader.block length.toNat >>= Reader.decode (offset + 4)) ⟨bytes, offset + 4⟩ := by
  have hlength := reads_u32 length bytes offset
  rw [length_bytesOf32] at hlength
  exact bind_of_ok hlength

theorem exists_length {cursor : Cursor} (h : 4 ≤ cursor.rest.length) :
    ∃ length bytes, cursor = ⟨bytesOf32 length ++ bytes, cursor.offset⟩ := by
  rcases cursor with ⟨_ | ⟨b0, _ | ⟨b1, _ | ⟨b2, _ | ⟨b3, bytes⟩⟩⟩⟩, offset⟩
  iterate 4 simp at h
  exact ⟨word32 b0 b1 b2 b3, bytes, by rw [bytesOf32_word32]; rfl⟩

/-- A text without a whole length is refused where it starts, and nothing of it is taken. -/
theorem text_of_missing {cursor : Cursor} (h : cursor.rest.length < 4) :
    Reader.text cursor = .error (.unexpectedEnd cursor.offset) cursor :=
  bind_of_error (takesSize_u32.missing cursor h)

/-- A text that is cut short is refused behind its length, which has been taken. -/
theorem text_of_short {length : UInt32} {bytes : Bytes} (h : bytes.length < length.toNat)
    (offset : Nat) : Reader.text ⟨bytesOf32 length ++ bytes, offset⟩ =
      .error (.unexpectedEnd (offset + 4)) ⟨bytes, offset + 4⟩ := by
  rw [text_of_length]
  exact bind_of_error ((takesSize_block length.toNat).missing ⟨bytes, offset + 4⟩ h)

/-- A text with a whole body comes down to decoding the body, which has been taken. -/
theorem text_of_body {length : UInt32} {bytes : Bytes} (h : bytes.length = length.toNat)
    (rest : Bytes) (offset : Nat) : Reader.text ⟨bytesOf32 length ++ (bytes ++ rest), offset⟩ =
      Reader.decode (offset + 4) bytes ⟨rest, offset + 4 + bytes.length⟩ := by
  rw [text_of_length, ← h]
  exact bind_of_ok (reads_block bytes rest (offset + 4))

/-- There are three ways for a text to fail, each with its place and its bytes taken. -/
theorem text_eq_error_iff {cursor next : Cursor} {error : Error} :
    Reader.text cursor = .error error next ↔ TextFails cursor error next := by
  constructor
  · intro h
    by_cases hmissing : cursor.rest.length < 4
    · rw [text_of_missing hmissing] at h
      cases h
      exact .length hmissing
    · obtain ⟨length, bytes, hcursor⟩ := exists_length (Nat.le_of_not_lt hmissing)
      rw [hcursor] at h ⊢
      by_cases hshort : bytes.length < length.toNat
      · rw [text_of_short hshort] at h
        cases h
        exact .body hshort
      · have hlength : (bytes.take length.toNat).length = length.toNat :=
          List.length_take_of_le (Nat.le_of_not_lt hshort)
        rw [← List.take_append_drop length.toNat bytes] at h ⊢
        rw [text_of_body hlength, Reader.decode] at h
        split at h
        · contradiction
        · rename_i hdecode
          cases h
          exact .encoding hlength (Text.Utf8.decode?_eq_none_iff.mp hdecode)
  · intro h
    cases h with
    | length h => exact text_of_missing h
    | body h => exact text_of_short h _
    | encoding hlength h =>
      rw [text_of_body hlength, Reader.decode, Text.Utf8.decode?_eq_none_iff.mpr h]

/-! ## Sequences of reads -/

/-- Items are read back as they were written; whatever else is read, the cursor keeps within the
bytes, and a failure tells where it has begun. -/
theorem items_compose :
    (∀ items : List Item, (∀ item ∈ items, item.Fits) →
      Reads (Item.readAll (items.map Item.kind)) (items.flatMap Item.encode) items) ∧
    (∀ data kinds, (∀ cursor ∈ (Cursor.ofBytes data).trail kinds, cursor.Within data) ∧
      ((Cursor.ofBytes data).trail kinds).Pairwise
        fun first second ↦ first.offset ≤ second.offset) ∧
    (∀ (kind : Item.Kind) size, kind.size? = some size → TakesSize size kind.read) ∧
    ∀ cursor error next, Reader.text cursor = .error error next ↔ TextFails cursor error next := by
  refine ⟨fun items h ↦ Item.reads_readAll h, fun data kinds ↦ ?_,
    fun kind size h ↦ Item.Kind.takesSize_read h, fun cursor error next ↦ text_eq_error_iff⟩
  have hstart := within_ofBytes data
  exact ⟨fun cursor hcursor ↦ (hstart.trail kinds cursor hcursor).1, hstart.pairwise_trail kinds⟩

def mixedItems : List Item :=
  [.u8 7, .u16 0x0102, .block [1, 2, 3], .u32 0xdeadbeef, .text "héllo"]

/-- The last text is one byte long, and this byte starts no character. -/
theorem items_compose_mixed :
    Item.readAll (mixedItems.map Item.kind) ⟨mixedItems.flatMap Item.encode ++ [9], 0⟩ =
      .ok mixedItems ⟨[9], 20⟩ ∧
    Item.Kind.u16.read ⟨[5], 3⟩ = .error (.unexpectedEnd 3) ⟨[5], 3⟩ ∧
    Reader.text ⟨[1, 0, 0, 0, 0xff, 6], 0⟩ = .error (.invalidUtf8 4) ⟨[6], 5⟩ := by
  obtain ⟨hreads, _, hsize, htext⟩ := items_compose
  have hfits : ∀ item ∈ mixedItems, item.Fits := by decide +kernel
  have hinvalid : ∀ value, Text.Utf8.encode value ≠ [0xff] :=
    Text.Utf8.decode?_eq_none_iff.mp (by decide +kernel)
  exact ⟨hreads mixedItems hfits [9] 0, (hsize .u16 2 rfl).missing ⟨[5], 3⟩ (by decide),
    (htext _ _ _).mpr (@TextFails.encoding 1 [0xff] [6] 0 rfl hinvalid)⟩

end PageScript.Wire
