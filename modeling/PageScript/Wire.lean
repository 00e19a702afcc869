import PageScript.Bytes
import PageScript.Text.Utf8

/-!
# Wire format

The primitives of the binary formats: words with the least significant byte first, blocks of bytes,
and texts as a length followed by UTF-8. A reader takes values from the front of a byte string and
counts how far it has come, so that a failure can be placed.
-/

namespace PageScript.Wire

/-! ## Words -/

def bytesOf16 (n : UInt16) : Bytes := [UInt8.ofNat n.toNat, UInt8.ofNat (n.toNat / 256)]

def bytesOf32 (n : UInt32) : Bytes :=
  [UInt8.ofNat n.toNat, UInt8.ofNat (n.toNat / 256), UInt8.ofNat (n.toNat / 65536),
    UInt8.ofNat (n.toNat / 16777216)]

def word16 (b0 b1 : UInt8) : UInt16 := UInt16.ofNat (b0.toNat + 256 * b1.toNat)

def word32 (b0 b1 b2 b3 : UInt8) : UInt32 :=
  UInt32.ofNat (b0.toNat + 256 * b1.toNat + 65536 * b2.toNat + 16777216 * b3.toNat)

@[simp] theorem length_bytesOf16 (n : UInt16) : (bytesOf16 n).length = 2 := rfl

@[simp] theorem length_bytesOf32 (n : UInt32) : (bytesOf32 n).length = 4 := rfl

theorem word16_bytes (n : UInt16) :
    word16 (UInt8.ofNat n.toNat) (UInt8.ofNat (n.toNat / 256)) = n := by
  apply UInt16.toNat_inj.mp
  have := n.toNat_lt
  simp only [word16, UInt16.toNat_ofNat', UInt8.toNat_ofNat']
  omega

theorem word32_bytes (n : UInt32) :
    word32 (UInt8.ofNat n.toNat) (UInt8.ofNat (n.toNat / 256)) (UInt8.ofNat (n.toNat / 65536))
      (UInt8.ofNat (n.toNat / 16777216)) = n := by
  apply UInt32.toNat_inj.mp
  have := n.toNat_lt
  simp only [word32, UInt32.toNat_ofNat', UInt8.toNat_ofNat']
  omega

theorem bytesOf32_word32 (b0 b1 b2 b3 : UInt8) :
    bytesOf32 (word32 b0 b1 b2 b3) = [b0, b1, b2, b3] := by
  have h0 := b0.toNat_lt
  have h1 := b1.toNat_lt
  have h2 := b2.toNat_lt
  have h3 := b3.toNat_lt
  have hword : (word32 b0 b1 b2 b3).toNat =
      b0.toNat + 256 * b1.toNat + 65536 * b2.toNat + 16777216 * b3.toNat := by
    rw [word32, UInt32.toNat_ofNat']
    omega
  simp only [bytesOf32, hword, List.cons.injEq, and_true, ← UInt8.toNat_inj, UInt8.toNat_ofNat']
  omega

/-! ## Writing -/

/-- A length or a count as a word. -/
def count (n : Nat) : Bytes := bytesOf32 (UInt32.ofNat n)

def text (value : String) : Bytes :=
  let bytes := Text.Utf8.encode value
  count bytes.length ++ bytes

/-- A count and the items one after the other. -/
def list {α : Type} (item : α → Bytes) (items : List α) : Bytes :=
  count items.length ++ items.flatMap item

/-! ## Reading -/

inductive Error where
  | unexpectedEnd (offset : Nat)
  | invalidUtf8 (offset : Nat)
  deriving DecidableEq, Repr, Inhabited

def Error.message : Error → String
  | unexpectedEnd offset => s!"unexpected end of data at offset {offset}"
  | invalidUtf8 offset => s!"invalid UTF-8 string at offset {offset}"

/-- The name of the cause. -/
def Error.kind : Error → String
  | unexpectedEnd _ => "UnexpectedEnd"
  | invalidUtf8 _ => "InvalidUtf8"

/-- What is left to read, and how much has been read. -/
structure Cursor where
  rest : Bytes
  offset : Nat
  deriving DecidableEq, Repr, Inhabited

def Cursor.ofBytes (bytes : Bytes) : Cursor := ⟨bytes, 0⟩

/-- A reader that fails leaves the cursor where the failing part starts or, for a block that has
been taken, ends. -/
abbrev ReaderOf (ε : Type) := EStateM ε Cursor

abbrev Reader := ReaderOf Error

namespace Reader

def block (length : Nat) : Reader Bytes := fun cursor ↦
  let taken := cursor.rest.take length
  if taken.length = length then .ok taken ⟨cursor.rest.drop length, cursor.offset + length⟩
  else .error (.unexpectedEnd cursor.offset) cursor

def u8 : Reader UInt8 := fun cursor ↦
  match cursor.rest with
  | b0 :: rest => .ok b0 ⟨rest, cursor.offset + 1⟩
  | _ => .error (.unexpectedEnd cursor.offset) cursor

def u16 : Reader UInt16 := fun cursor ↦
  match cursor.rest with
  | b0 :: b1 :: rest => .ok (word16 b0 b1) ⟨rest, cursor.offset + 2⟩
  | _ => .error (.unexpectedEnd cursor.offset) cursor

def u32 : Reader UInt32 := fun cursor ↦
  match cursor.rest with
  | b0 :: b1 :: b2 :: b3 :: rest => .ok (word32 b0 b1 b2 b3) ⟨rest, cursor.offset + 4⟩
  | _ => .error (.unexpectedEnd cursor.offset) cursor

/-- The text in a block that started at `offset`. -/
def decode (offset : Nat) (bytes : Bytes) : Reader String := fun cursor ↦
  match Text.Utf8.decode? bytes with
  | some value => .ok value cursor
  | none => .error (.invalidUtf8 offset) cursor

def text : Reader String := do
  let length ← u32
  let start := (← get).offset
  let bytes ← block length.toNat
  decode start bytes

/-- The same reader with another kind of error. -/
def lift {ε α : Type} (error : Error → ε) (reader : Reader α) : ReaderOf ε α := fun cursor ↦
  match reader cursor with
  | .ok value cursor => .ok value cursor
  | .error e cursor => .error (error e) cursor

def times {ε α : Type} (item : ReaderOf ε α) : Nat → ReaderOf ε (List α)
  | 0 => pure []
  | n + 1 => do
    let first ← item
    let rest ← times item n
    return first :: rest

/-- A count and as many items. -/
def list {α : Type} (item : Reader α) : Reader (List α) := do
  let length ← u32
  times item length.toNat

/-- The value at the front of a byte string. -/
def run {ε α : Type} (reader : ReaderOf ε α) (bytes : Bytes) : Except ε α :=
  match reader (Cursor.ofBytes bytes) with
  | .ok value _ => .ok value
  | .error e _ => .error e

end Reader

end PageScript.Wire
