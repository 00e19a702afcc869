import PageScript.Bytes

/-!
# JSON values

A JSON document as data. Fields of an object keep their order and may repeat. A number that is not
a plain natural number keeps its spelling. A string that denotes no text (an escape of half a
surrogate pair, bytes that are not UTF-8), and an object with such a string for a name, can be
skipped but not read.
-/

namespace PageScript

inductive Json where
  | null
  | bool (value : Bool)
  | natural (value : Nat)
  | number (spelling : String)
  | text (value : String)
  | unreadable
  | array (items : List Json)
  | object (fields : List (String × Json))
  deriving Repr, Inhabited

namespace Json

/-! ## Writing -/

/-- Quotes, backslashes and control characters are escaped, all else stands for itself. -/
def escape (c : Char) : List Char :=
  if c = '"' then ['\\', '"']
  else if c = '\\' then ['\\', '\\']
  else if c = '\n' then ['\\', 'n']
  else if c = '\r' then ['\\', 'r']
  else if c = '\t' then ['\\', 't']
  else if c.toNat = 8 then ['\\', 'b']
  else if c.toNat = 12 then ['\\', 'f']
  else if c.toNat < 32 then
    ['\\', 'u', '0', '0', Bytes.hexDigit (c.toNat / 16), Bytes.hexDigit c.toNat]
  else [c]

def quote (text : String) : String :=
  "\"" ++ String.ofList (text.toList.flatMap escape) ++ "\""

mutual

/-- The tokens of a value, one after the other. -/
def tokens : Json → List String
  | null => ["null"]
  | bool value => [if value then "true" else "false"]
  | natural value => [toString value]
  | number spelling => [spelling]
  | text value => [quote value]
  | unreadable => ["\"\""]
  | array items => "[" :: (itemTokens items ++ ["]"])
  | object fields => "\x7b" :: (fieldTokens fields ++ ["\x7d"])

def itemTokens : List Json → List String
  | [] => []
  | [item] => tokens item
  | item :: items => tokens item ++ "," :: itemTokens items

def fieldTokens : List (String × Json) → List String
  | [] => []
  | [(name, value)] => quote name :: ":" :: tokens value
  | (name, value) :: fields => quote name :: ":" :: (tokens value ++ "," :: fieldTokens fields)

end

/-- Compact form: no blanks between tokens. -/
def render (json : Json) : String := String.join json.tokens

/-! ## Looking into values -/

def field? (name : String) : Json → Option Json
  | object fields => fields.lookup name
  | _ => none

def text? : Json → Option String
  | text value => some value
  | _ => none

def bool? : Json → Option Bool
  | bool value => some value
  | _ => none

/-- A natural number below `bound`. -/
def naturalBelow? (bound : Nat) : Json → Option Nat
  | natural value => if value < bound then some value else none
  | _ => none

/-- The name of a plain alternative: a text, or an object with that one field set to null. -/
def alternative? : Json → Option String
  | text name => some name
  | object [(name, null)] => some name
  | _ => none

/-- The fields of a record whose fields are `names`: an object with any further fields, in which
none of the names is repeated, or an array that gives a value to the first names in order. -/
def record? (names : List String) : Json → Option (List (String × Json))
  | object fields =>
    let known := fields.filter fun entry ↦ names.contains entry.1
    if (known.map Prod.fst).Nodup then some known else none
  | array items => if items.length ≤ names.length then some (names.zip items) else none
  | _ => none

end Json

end PageScript
