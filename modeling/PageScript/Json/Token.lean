import PageScript.Json
import PageScript.Text.Utf8

/-!
# JSON tokens

The lexical level of a JSON document, read from bytes. Blanks are space, tab, newline and carriage
return; every other byte belongs to exactly one token.
-/

namespace PageScript.Json

inductive Token where
  | openArray
  | closeArray
  | openObject
  | closeObject
  | comma
  | colon
  | scalar (value : Json)
  deriving Repr

namespace Token

def charOf (b : UInt8) : Char := Char.ofNat b.toNat

/-! ## Strings -/

/-- One element of a string: bytes as they stand, or the code of a `\u` escape. -/
inductive Element where
  | raw (byte : UInt8)
  | code (value : Nat)

/-- The four hexadecimal digits of an escape. -/
def code? : List UInt8 → Option Nat
  | [a, b, c, d] => do
    let a ← Bytes.hexValue? (charOf a)
    let b ← Bytes.hexValue? (charOf b)
    let c ← Bytes.hexValue? (charOf c)
    let d ← Bytes.hexValue? (charOf d)
    return 4096 * a + 256 * b + 16 * c + d
  | _ => none

def plainEscape? (c : Char) : Option UInt8 :=
  match c with
  | '"' => some 0x22
  | '\\' => some 0x5c
  | '/' => some 0x2f
  | 'b' => some 0x08
  | 'f' => some 0x0c
  | 'n' => some 0x0a
  | 'r' => some 0x0d
  | 't' => some 0x09
  | _ => none

/-- The elements of a string up to its closing quote, and the number of bytes that takes. -/
def elements? : Bytes → Option (List Element × Nat)
  | [] => none
  | b :: rest =>
    if charOf b = '"' then some ([], 1)
    else if charOf b = '\\' then
      match rest with
      | [] => none
      | e :: rest =>
        if charOf e = 'u' then do
          let value ← code? (rest.take 4)
          let (more, n) ← elements? (rest.drop 4)
          return (.code value :: more, n + 6)
        else do
          let byte ← plainEscape? (charOf e)
          let (more, n) ← elements? rest
          return (.raw byte :: more, n + 2)
    else if b < 0x20 then none
    else do
      let (more, n) ← elements? rest
      return (.raw b :: more, n + 1)
termination_by bytes => bytes.length
decreasing_by all_goals simp only [List.length_cons, List.length_drop]; omega

def isHighSurrogate (code : Nat) : Bool := 0xd800 ≤ code && code < 0xdc00

def isLowSurrogate (code : Nat) : Bool := 0xdc00 ≤ code && code < 0xe000

def utf8OfCode (code : Nat) : Bytes := Text.Utf8.encode (String.singleton (Char.ofNat code))

/-- The bytes of a string. Surrogate codes stand in pairs, a high one before a low one. -/
def bytes? : List Element → Option Bytes
  | [] => some []
  | .raw byte :: rest => (bytes? rest).map (byte :: ·)
  | .code high :: .code low :: rest =>
    if isHighSurrogate high then
      if isLowSurrogate low then
        (bytes? rest).map (utf8OfCode (0x10000 + 1024 * (high - 0xd800) + (low - 0xdc00)) ++ ·)
      else none
    else if isLowSurrogate high then none
    else (bytes? (.code low :: rest)).map (utf8OfCode high ++ ·)
  | .code code :: rest =>
    if isHighSurrogate code || isLowSurrogate code then none
    else (bytes? rest).map (utf8OfCode code ++ ·)

def textOf (elements : List Element) : Json :=
  match (bytes? elements).bind Text.Utf8.decode? with
  | some value => .text value
  | none => .unreadable

/-! ## Numbers -/

def isDigit (b : UInt8) : Bool := 0x30 ≤ b && b ≤ 0x39

def digits (bytes : Bytes) : Bytes := bytes.takeWhile isDigit

/-- Length of an exponent at the front, zero if there is none; an exponent mark without digits is
refused. -/
def exponentLength? : Bytes → Option Nat
  | [] => some 0
  | mark :: rest =>
    if charOf mark = 'e' ∨ charOf mark = 'E' then
      let sign := match rest with
        | s :: _ => if charOf s = '+' ∨ charOf s = '-' then 1 else 0
        | [] => 0
      let count := (digits (rest.drop sign)).length
      if count = 0 then none else some (1 + sign + count)
    else some 0

def fractionLength? : Bytes → Option Nat
  | [] => some 0
  | point :: rest =>
    if charOf point = '.' then
      let count := (digits rest).length
      if count = 0 then none else some (1 + count)
    else some 0

/-- A number without its sign: its length. A leading zero stands alone. -/
def unsignedLength? (bytes : Bytes) : Option Nat := do
  let whole := digits bytes
  let first ← whole.head?
  if first = 0x30 && whole.length ≠ 1 then none
  let fraction ← fractionLength? (bytes.drop whole.length)
  let power ← exponentLength? (bytes.drop (whole.length + fraction))
  return whole.length + fraction + power

def naturalOf (digits : Bytes) : Nat := digits.foldl (fun n d ↦ 10 * n + (d.toNat - 0x30)) 0

def number? (bytes : Bytes) : Option (Json × Nat) := do
  let sign := if bytes.head? = some 0x2d then 1 else 0
  let length ← unsignedLength? (bytes.drop sign)
  let spelling := bytes.take (sign + length)
  if spelling.all isDigit then return (.natural (naturalOf spelling), length)
  else return (.number (String.ofList (spelling.map charOf)), sign + length)

/-! ## Tokens -/

/-- A word such as `true` at the front of `b :: rest`. -/
def word? (word : String) (value : Json) (b : UInt8) (rest : Bytes) :
    Option (Option Token × Nat) :=
  let spelling := Text.Utf8.encode word
  if spelling.isPrefixOf (b :: rest) then some (some (.scalar value), spelling.length - 1) else none

/-- The token that starts with the byte `b`, none for a blank, and how many of the following bytes
belong to it. -/
def next? (b : UInt8) (rest : Bytes) : Option (Option Token × Nat) :=
  match charOf b with
  | ' ' | '\t' | '\n' | '\r' => some (none, 0)
  | '[' => some (some .openArray, 0)
  | ']' => some (some .closeArray, 0)
  | '{' => some (some .openObject, 0)
  | '}' => some (some .closeObject, 0)
  | ',' => some (some .comma, 0)
  | ':' => some (some .colon, 0)
  | '"' => (elements? rest).map fun (elements, n) ↦ (some (.scalar (textOf elements)), n)
  | 'n' => word? "null" .null b rest
  | 't' => word? "true" (.bool true) b rest
  | 'f' => word? "false" (.bool false) b rest
  | _ => (number? (b :: rest)).map fun (value, n) ↦ (some (.scalar value), n - 1)

def list? : Bytes → Option (List Token)
  | [] => some []
  | b :: rest => do
    let (token, n) ← next? b rest
    let tokens ← list? (rest.drop n)
    return token.toList ++ tokens
termination_by bytes => bytes.length
decreasing_by simp only [List.length_cons, List.length_drop]; omega

end Token

end PageScript.Json
