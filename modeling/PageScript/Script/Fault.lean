import PageScript.Script.Token

/-!
# Syntax errors

What can be wrong with a script as text, at which position.
-/

namespace PageScript.Script

inductive Fault where
  | strayCharacter (c : Char)
  | unknownEscape (c : Char)
  | unfinishedText
  | unknownDirective
  | badLineNumber
  | quotedPathExpected
  | expected (kind : Token.Kind)
  | identifierExpected
  | textExpected (found : Option Token.Kind)
  | statementExpected (found : Option Token.Kind)
  | itemExpected (found : Option Token.Kind)
  deriving DecidableEq, Repr, Inhabited

namespace Fault

def id : Fault → String
  | strayCharacter _ => "KP1056"
  | unknownEscape _ => "KP1009"
  | unfinishedText => "KP1010"
  | unknownDirective => "KP1024"
  | badLineNumber => "KP1576"
  | quotedPathExpected => "KP1578"
  | expected kind => if kind = .semicolon then "KP1002" else "KP1003"
  | identifierExpected => "KP1001"
  | textExpected _ => "KP1003"
  | statementExpected _ => "KP1003"
  | itemExpected _ => "KP1003"

def message : Fault → String
  | strayCharacter c => s!"Unexpected character '{c}'"
  | unknownEscape c => s!"Unrecognized escape sequence '\\{c}'"
  | unfinishedText => "Newline in constant"
  | unknownDirective => "Preprocessor directive expected"
  | badLineNumber => "The line number specified for #line directive is missing or invalid"
  | quotedPathExpected => "Quoted file name expected"
  | expected kind => s!"{kind.display} expected"
  | identifierExpected => "Identifier expected"
  | textExpected found => s!"string literal expected, found {Token.Kind.displayFound found}"
  | statementExpected found => s!"statement expected, found {Token.Kind.displayFound found}"
  | itemExpected found => s!"'use' or 'class' expected, found {Token.Kind.displayFound found}"

end Fault

structure SyntaxError where
  fault : Fault
  position : Position
  deriving DecidableEq, Repr, Inhabited

end PageScript.Script
