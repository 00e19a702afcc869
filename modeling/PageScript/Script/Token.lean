import PageScript.Text.Blank
import PageScript.Text.Numeric

/-!
# Tokens of the page script

Words, string literals and punctuation, each with the position of its first character. A token list
has no end mark: what follows the last token is the end of the file, whose position is kept apart.
-/

namespace PageScript.Script

/-- A place in a script; lines and columns count characters from one. -/
structure Position where
  line : Nat
  column : Nat
  deriving DecidableEq, Repr, Inhabited

namespace Position

def start : Position := ⟨1, 1⟩

/-- The place behind one character. -/
def next (position : Position) (c : Char) : Position :=
  if c = '\n' then ⟨position.line + 1, 1⟩ else ⟨position.line, position.column + 1⟩

def advance (position : Position) (text : List Char) : Position := text.foldl next position

end Position

inductive Token.Kind where
  | identifier (name : String)
  | text (value : String)
  | useWord
  | classWord
  | writeWord
  | letWord
  | newWord
  | setWord
  | renderWord
  | includeWord
  | leftBrace
  | rightBrace
  | semicolon
  | colon
  | dot
  | equal
  deriving DecidableEq, Repr, Inhabited

structure Token where
  kind : Token.Kind
  start : Position
  deriving DecidableEq, Repr, Inhabited

namespace Token.Kind

def keyword? : String → Option Kind
  | "use" => some useWord
  | "class" => some classWord
  | "write" => some writeWord
  | "let" => some letWord
  | "new" => some newWord
  | "set" => some setWord
  | "render" => some renderWord
  | "include" => some includeWord
  | _ => none

def ofWord (word : String) : Kind := (keyword? word).getD (identifier word)

def punctuation? : Char → Option Kind
  | '{' => some leftBrace
  | '}' => some rightBrace
  | ';' => some semicolon
  | ':' => some colon
  | '.' => some dot
  | '=' => some equal
  | _ => none

/-- How messages name a token. -/
def display : Kind → String
  | identifier name => s!"identifier '{name}'"
  | text _ => "string literal"
  | useWord => "use"
  | classWord => "class"
  | writeWord => "write"
  | letWord => "let"
  | newWord => "new"
  | setWord => "set"
  | renderWord => "render"
  | includeWord => "include"
  | leftBrace => "\x7b"
  | rightBrace => "\x7d"
  | semicolon => ";"
  | colon => ":"
  | dot => "."
  | equal => "="

/-- How messages name what stands at some point of a token list: a token, or the end. -/
def displayFound : Option Kind → String
  | some kind => kind.display
  | none => "end of file"

end Token.Kind

/-! ## Words -/

def isWordStart (c : Char) : Bool := Text.isAlphabetic c || c == '_'

def isWordPart (c : Char) : Bool := Text.isAlphanumeric c || c == '_'

end PageScript.Script
