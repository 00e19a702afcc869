import PageScript.Script.LineMap

/-!
# Lexemes

A script is cut into pieces that leave nothing out: blanks, comments, directives, tokens, and single
characters that start none of these. The tokens, the line map and the errors of a script are read
off its lexemes.
-/

namespace PageScript.Script

/-! ## String literals -/

/-- What is read behind an opening quote. -/
structure Quoted where
  value : List Char
  /-- Escapes without a meaning, by their distance from the opening quote. -/
  unknown : List (Nat × Char)
  closed : Bool
  /-- Characters read, with the closing quote if there is one. -/
  length : Nat
  deriving DecidableEq, Repr, Inhabited

namespace Quoted

def escape? : Char → Option Char
  | 'n' => some '\n'
  | 't' => some '\t'
  | 'r' => some '\r'
  | '"' => some '"'
  | '\\' => some '\\'
  | _ => none

/-- A literal with `n` characters and the character `c` of its value in front. -/
def cons (n : Nat) (c : Char) (rest : Quoted) : Quoted :=
  { rest with value := c :: rest.value, length := rest.length + n }

/-- Reads up to the closing quote, or up to the end of the line. `offset` is the distance from the
opening quote. An unknown escape stands for its character. -/
def scan (offset : Nat) : List Char → Quoted
  | [] => ⟨[], [], false, 0⟩
  | '"' :: _ => ⟨[], [], true, 1⟩
  | '\n' :: _ => ⟨[], [], false, 0⟩
  | '\\' :: [] => ⟨[], [], false, 1⟩
  | '\\' :: c :: rest =>
    if c = '\n' then ⟨[], [], false, 1⟩
    else match escape? c with
      | some value => (scan (offset + 2) rest).cons 2 value
      | none =>
        let literal := (scan (offset + 2) rest).cons 2 c
        { literal with unknown := (offset + 1, c) :: literal.unknown }
  | c :: rest => (scan (offset + 1) rest).cons 1 c

end Quoted

/-! ## Cutting a script -/

inductive Shape where
  | blank
  | comment
  | directive
  | token (kind : Token.Kind)
  | text (literal : Quoted)
  | stray
  deriving DecidableEq, Repr, Inhabited

structure Lexeme where
  shape : Shape
  start : Position
  spelling : List Char
  deriving DecidableEq, Repr, Inhabited

namespace Lexeme

def notNewline (c : Char) : Bool := c != '\n'

/-- The shape of the lexeme that starts with `c`, and how many of the following characters belong to
it. A hash sign starts a directive only where nothing but blanks stands before it on its line. -/
def munch (lineStart : Bool) (c : Char) (rest : List Char) : Shape × Nat :=
  if Text.isBlank c then (.blank, (rest.takeWhile Text.isBlank).length)
  else if c = '/' then
    if rest.head? = some '/' then (.comment, (rest.takeWhile notNewline).length) else (.stray, 0)
  else if c = '#' && lineStart then (.directive, (rest.takeWhile notNewline).length)
  else if c = '"' then
    let literal := Quoted.scan 1 rest
    (.text literal, literal.length)
  else if isWordStart c then
    let more := rest.takeWhile isWordPart
    (.token (Token.Kind.ofWord (String.ofList (c :: more))), more.length)
  else match Token.Kind.punctuation? c with
    | some kind => (.token kind, 0)
    | none => (.stray, 0)

/-- Whether only blanks stand on the line behind a lexeme of this shape and spelling. -/
def leavesLineStart (lineStart : Bool) (shape : Shape) (spelling : List Char) : Bool :=
  shape = .blank && (lineStart || spelling.contains '\n')

def listFrom (lineStart : Bool) (start : Position) : List Char → List Lexeme
  | [] => []
  | c :: rest =>
    let (shape, n) := munch lineStart c rest
    let spelling := c :: rest.take n
    ⟨shape, start, spelling⟩ ::
      listFrom (leavesLineStart lineStart shape spelling) (start.advance spelling) (rest.drop n)
termination_by text => text.length
decreasing_by simp only [List.length_cons, List.length_drop]; omega

/-- The lexemes of a script. -/
def list (source : List Char) : List Lexeme := listFrom true Position.start source

/-! ## What a lexeme means -/

def token? (lexeme : Lexeme) : Option Token :=
  match lexeme.shape with
  | .token kind => some ⟨kind, lexeme.start⟩
  | .text literal => some ⟨.text (String.ofList literal.value), lexeme.start⟩
  | _ => none

def literalErrors (start : Position) (literal : Quoted) : List SyntaxError :=
  literal.unknown.map (fun (distance, c) ↦
    ⟨.unknownEscape c, ⟨start.line, start.column + distance⟩⟩) ++
    if literal.closed then [] else [⟨.unfinishedText, start⟩]

/-- The errors of a lexeme, and the line map behind it. -/
def survey (map : LineMap) (lexeme : Lexeme) : LineMap × List SyntaxError :=
  match lexeme.shape with
  | .directive =>
    match (Directive.parse lexeme.spelling.tail).bind (Directive.apply map lexeme.start.line) with
    | .ok map => (map, [])
    | .error fault => (map, [⟨fault, lexeme.start⟩])
  | .text literal => (map, literalErrors lexeme.start literal)
  | .stray => (map, lexeme.spelling.map fun c ↦ ⟨.strayCharacter c, lexeme.start⟩)
  | _ => (map, [])

def surveyAll (map : LineMap) : List Lexeme → LineMap × List SyntaxError
  | [] => (map, [])
  | lexeme :: rest =>
    let (next, errors) := lexeme.survey map
    let (final, more) := surveyAll next rest
    (final, errors ++ more)

end Lexeme

/-- Everything that is read off the characters of a script. -/
structure Lexed where
  tokens : List Token
  /-- Position of the end of the file. -/
  stop : Position
  lineMap : LineMap
  errors : List SyntaxError
  deriving DecidableEq, Repr, Inhabited

def lex (source : String) : Lexed :=
  let lexemes := Lexeme.list source.toList
  let (lineMap, errors) := Lexeme.surveyAll .empty lexemes
  { tokens := lexemes.filterMap Lexeme.token?
    stop := Position.start.advance source.toList
    lineMap, errors }

end PageScript.Script
