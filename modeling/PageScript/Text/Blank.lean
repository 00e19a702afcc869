/-!
# Blank characters

The property White_Space, and the three things that are done with it: trimming a text, cutting it
at its first blank, and cutting it into lines.
-/

namespace PageScript.Text

def isBlank (c : Char) : Bool :=
  let code := c.toNat
  (9 ≤ code && code ≤ 13) || code == 0x20 || code == 0x85 || code == 0xa0 || code == 0x1680 ||
    (0x2000 ≤ code && code ≤ 0x200a) || code == 0x2028 || code == 0x2029 || code == 0x202f ||
    code == 0x205f || code == 0x3000

def trimLeft (text : List Char) : List Char := text.dropWhile isBlank

def trimRight (text : List Char) : List Char := (text.reverse.dropWhile isBlank).reverse

def trim (text : List Char) : List Char := trimRight (trimLeft text)

def trimmed (text : String) : String := String.ofList (trim text.toList)

/-- The part before the first blank and, if there is a blank, the part behind it. -/
def cutAtBlank : List Char → List Char × Option (List Char)
  | [] => ([], none)
  | c :: rest =>
    if isBlank c then ([], some rest)
    else
      let (before, behind) := cutAtBlank rest
      (c :: before, behind)

/-- The pieces between newlines; a text without newline is one piece. -/
def splitLines : List Char → List (List Char)
  | [] => [[]]
  | c :: rest =>
    if c = '\n' then [] :: splitLines rest
    else match splitLines rest with
      | [] => [[c]]
      | line :: lines => (c :: line) :: lines

/-- A carriage return right before the newline belongs to the line end. -/
def dropReturn (line : List Char) : List Char :=
  if line.getLast? = some '\r' then line.dropLast else line

/-- Lines of a text. A final newline ends the last line and starts no new one, and a carriage
return counts as part of the line end only in front of a newline. -/
def lines (text : List Char) : List (List Char) :=
  let pieces := splitLines text
  let last := pieces.getLast?.getD []
  pieces.dropLast.map dropReturn ++ if last.isEmpty then [] else [last]

end PageScript.Text
