import PageScript.Json.Token

/-!
# Reading JSON

A document is read by a machine with a stack of unfinished arrays and objects: it takes one token
after the other and either moves on or refuses the document.
-/

namespace PageScript.Json

/-- The fields of an object; a name is missing if it cannot be read. -/
abbrev Fields := List (Option String × Json)

/-- An object in which every name can be read, or a value that can only be skipped. -/
def ofFields (fields : Fields) : Json :=
  match fields.mapM fun (name, value) ↦ name.map (·, value) with
  | some named => .object named
  | none => .unreadable

/-- An unfinished array or object; finished parts are kept newest first. -/
inductive Frame where
  | array (done : List Json)
  | object (done : Fields) (name : Option String)

/-- What the next token may be. -/
inductive Expect where
  | value
  | valueOrClose
  | nameOrClose (done : Fields)
  | name (done : Fields)
  | colon (done : Fields) (name : Option String)
  | separator
  | finished (document : Json)

structure Machine where
  stack : List Frame
  expect : Expect

namespace Machine

def start : Machine := ⟨[], .value⟩

/-- A value has been completed. -/
def put (value : Json) : List Frame → Machine
  | [] => ⟨[], .finished value⟩
  | .array done :: stack => ⟨.array (value :: done) :: stack, .separator⟩
  | .object done name :: stack => ⟨.object ((name, value) :: done) name :: stack, .separator⟩

def takeValue (stack : List Frame) : Token → Option Machine
  | .scalar value => some (put value stack)
  | .openArray => some ⟨.array [] :: stack, .valueOrClose⟩
  | .openObject => some ⟨stack, .nameOrClose []⟩
  | _ => none

def takeName (stack : List Frame) (done : Fields) : Token → Option Machine
  | .scalar (.text name) => some ⟨stack, .colon done (some name)⟩
  | .scalar .unreadable => some ⟨stack, .colon done none⟩
  | _ => none

def step (machine : Machine) (token : Token) : Option Machine :=
  match machine.expect, token with
  | .value, token => takeValue machine.stack token
  | .valueOrClose, .closeArray =>
    match machine.stack with
    | .array done :: stack => some (put (.array done.reverse) stack)
    | _ => none
  | .valueOrClose, token => takeValue machine.stack token
  | .nameOrClose done, .closeObject => some (put (ofFields done.reverse) machine.stack)
  | .nameOrClose done, token => takeName machine.stack done token
  | .name done, token => takeName machine.stack done token
  | .colon done name, .colon => some ⟨.object done name :: machine.stack, .value⟩
  | .separator, token =>
    match machine.stack, token with
    | .array done :: stack, .comma => some ⟨.array done :: stack, .value⟩
    | .array done :: stack, .closeArray => some (put (.array done.reverse) stack)
    | .object done _ :: stack, .comma => some ⟨stack, .name done⟩
    | .object done _ :: stack, .closeObject => some (put (ofFields done.reverse) stack)
    | _, _ => none
  | _, _ => none

def document? (machine : Machine) : Option Json :=
  match machine.expect with
  | .finished document => some document
  | _ => none

end Machine

/-- The one value of a document; nothing but blanks may stand around it. -/
def read? (bytes : Bytes) : Option Json := do
  let tokens ← Token.list? bytes
  let machine ← tokens.foldlM Machine.step Machine.start
  machine.document?

end PageScript.Json
