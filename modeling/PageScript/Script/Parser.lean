import PageScript.Script.Lexeme
import PageScript.Script.Tree

/-!
# Parsing

A script is read by recursive descent over its tokens. A production that fails says what is wrong
with the first token it left; the error is recorded and reading goes on behind the statement or the
item at fault, so that one pass reports every problem.
-/

namespace PageScript.Script

/-- A production takes tokens from the front of a list. Failing, it leaves the list from the token
at fault on. -/
abbrev Production := EStateM Fault (List Token)

namespace Production

variable {α β : Type}

/-- The tokens a production leaves, whether it fails or not. -/
def left : EStateM.Result Fault (List Token) α → List Token
  | .ok _ rest => rest
  | .error _ rest => rest

def expect (kind : Token.Kind) : Production Unit
  | [] => .error (.expected kind) []
  | token :: rest =>
    if token.kind = kind then .ok () rest else .error (.expected kind) (token :: rest)

def identifier : Production String
  | [] => .error .identifierExpected []
  | token :: rest =>
    match token.kind with
    | .identifier name => .ok name rest
    | _ => .error .identifierExpected (token :: rest)

def text : Production String
  | [] => .error (.textExpected none) []
  | token :: rest =>
    match token.kind with
    | .text value => .ok value rest
    | kind => .error (.textExpected (some kind)) (token :: rest)

/-- Segments behind the first one, each after a dot. -/
def moreSegments : Production (List String)
  | [] => .ok [] []
  | [token] => if token.kind = .dot then .error .identifierExpected [] else .ok [] [token]
  | token :: next :: rest =>
    if token.kind = .dot then
      match next.kind with
      | .identifier name =>
        match moreSegments rest with
        | .ok names rest' => .ok (name :: names) rest'
        | .error fault rest' => .error fault rest'
      | _ => .error .identifierExpected (next :: rest)
    else .ok [] (token :: next :: rest)

def startOf (tokens : List Token) : Position := (tokens.head?.map Token.start).getD Position.start

def qualifiedName : Production QualifiedName := do
  let start := startOf (← get)
  let first ← identifier
  let more ← moreSegments
  return { first, more, start }

/-- What stands behind the word `use`. -/
def useTail : Production QualifiedName := do
  let module ← qualifiedName
  expect .semicolon
  return module

/-- What stands between the word `class` and the body. -/
def classHead : Production (String × QualifiedName) := do
  let name ← identifier
  expect .colon
  let base ← qualifiedName
  expect .leftBrace
  return (name, base)

/-! ## Statements -/

def writeTail : Production Statement.Kind := return .write (← text)

def letTail : Production Statement.Kind := do
  let name ← identifier
  expect .equal
  expect .newWord
  return .create name (← qualifiedName)

def setTail : Production Statement.Kind := do
  let target ← identifier
  expect .dot
  let property ← identifier
  expect .equal
  return .assign target property (← text)

def renderTail : Production Statement.Kind := return .render (← identifier)

def includeTail : Production Statement.Kind := return .embed (← identifier)

/-- What has to stand behind the first word of a statement, apart from the semicolon. -/
def tail? : Token.Kind → Option (Production Statement.Kind)
  | .writeWord => some writeTail
  | .letWord => some letTail
  | .setWord => some setTail
  | .renderWord => some renderTail
  | .includeWord => some includeTail
  | _ => none

def finish (start : Position) (tail : Production Statement.Kind) : Production Statement := do
  let kind ← tail
  expect .semicolon
  return ⟨kind, start⟩

/-- A statement from its first token on. -/
def statement (token : Token) (rest : List Token) : EStateM.Result Fault (List Token) Statement :=
  match tail? token.kind with
  | some tail => finish token.start tail rest
  | none => .error (.statementExpected (some token.kind)) (token :: rest)

/-! ## Progress -/

/-- A production never gives back more than it was given. -/
def NonGrowing (p : Production α) : Prop := ∀ tokens, (left (p tokens)).length ≤ tokens.length

theorem nonGrowing_pure (a : α) : NonGrowing (pure a) := fun _ ↦ Nat.le_refl _

theorem NonGrowing.bind {p : Production α} {f : α → Production β} (hp : NonGrowing p)
    (hf : ∀ a, NonGrowing (f a)) : NonGrowing (p >>= f) := by
  intro tokens
  have h := hp tokens
  show (left (EStateM.bind p f tokens)).length ≤ tokens.length
  unfold EStateM.bind
  split
  · rename_i a rest e
    rw [e] at h
    exact Nat.le_trans (hf a rest) h
  · rename_i fault rest e
    rw [e] at h
    exact h

theorem nonGrowing_get : NonGrowing (get : Production (List Token)) := fun _ ↦ Nat.le_refl _

theorem nonGrowing_expect (kind : Token.Kind) : NonGrowing (expect kind) := by
  intro tokens
  cases tokens with
  | nil => exact Nat.le_refl _
  | cons token rest => simp only [expect]; split <;> simp [left]

theorem nonGrowing_identifier : NonGrowing identifier := by
  intro tokens
  cases tokens with
  | nil => exact Nat.le_refl _
  | cons token rest => simp only [identifier]; split <;> simp [left]

theorem nonGrowing_text : NonGrowing text := by
  intro tokens
  cases tokens with
  | nil => exact Nat.le_refl _
  | cons token rest => simp only [text]; split <;> simp [left]

theorem nonGrowing_moreSegments : NonGrowing moreSegments := by
  intro tokens
  fun_induction moreSegments tokens <;> simp_all only [left, List.length_cons] <;> omega

theorem nonGrowing_qualifiedName : NonGrowing qualifiedName :=
  nonGrowing_get.bind fun _ ↦ nonGrowing_identifier.bind fun _ ↦
    nonGrowing_moreSegments.bind fun _ ↦ nonGrowing_pure _

theorem nonGrowing_useTail : NonGrowing useTail :=
  nonGrowing_qualifiedName.bind fun _ ↦ (nonGrowing_expect _).bind fun _ ↦ nonGrowing_pure _

theorem nonGrowing_classHead : NonGrowing classHead :=
  nonGrowing_identifier.bind fun _ ↦ (nonGrowing_expect _).bind fun _ ↦
    nonGrowing_qualifiedName.bind fun _ ↦ (nonGrowing_expect _).bind fun _ ↦ nonGrowing_pure _

theorem nonGrowing_tail {kind : Token.Kind} {tail : Production Statement.Kind}
    (h : tail? kind = some tail) : NonGrowing tail := by
  unfold tail? at h
  split at h <;> cases h
  · exact nonGrowing_text.bind fun _ ↦ nonGrowing_pure _
  · exact nonGrowing_identifier.bind fun _ ↦ (nonGrowing_expect _).bind fun _ ↦
      (nonGrowing_expect _).bind fun _ ↦ nonGrowing_qualifiedName.bind fun _ ↦ nonGrowing_pure _
  · exact nonGrowing_identifier.bind fun _ ↦ (nonGrowing_expect _).bind fun _ ↦
      nonGrowing_identifier.bind fun _ ↦ (nonGrowing_expect _).bind fun _ ↦
        nonGrowing_text.bind fun _ ↦ nonGrowing_pure _
  · exact nonGrowing_identifier.bind fun _ ↦ nonGrowing_pure _
  · exact nonGrowing_identifier.bind fun _ ↦ nonGrowing_pure _

theorem nonGrowing_finish {start : Position} {tail : Production Statement.Kind}
    (h : NonGrowing tail) : NonGrowing (finish start tail) :=
  h.bind fun _ ↦ (nonGrowing_expect _).bind fun _ ↦ nonGrowing_pure _

/-- A statement takes at least its first word, unless that word starts no statement. -/
theorem left_statement (token : Token) (rest : List Token) :
    (left (statement token rest)).length ≤ rest.length ∨
      statement token rest = .error (.statementExpected (some token.kind)) (token :: rest) := by
  unfold statement
  cases h : tail? token.kind with
  | none => exact .inr rfl
  | some tail => exact .inl (nonGrowing_finish (nonGrowing_tail h) rest)

end Production

namespace Parser

open Production

/-! ## Recovery -/

/-- Skips the rest of a statement: through its semicolon, or up to the end of the class. -/
def skipStatement : List Token → List Token
  | [] => []
  | token :: rest =>
    if token.kind = .rightBrace then token :: rest
    else if token.kind = .semicolon then rest
    else skipStatement rest

/-- Skips to the next `use` or `class` outside of all braces opened on the way. -/
def skipItem (depth : Nat) : List Token → List Token
  | [] => []
  | token :: rest =>
    match token.kind with
    | .useWord | .classWord => if depth = 0 then token :: rest else skipItem depth rest
    | .leftBrace => skipItem (depth + 1) rest
    | .rightBrace => skipItem (depth - 1) rest
    | _ => skipItem depth rest

theorem length_skipStatement (tokens : List Token) :
    (skipStatement tokens).length ≤ tokens.length := by
  fun_induction skipStatement tokens with
  | case1 => simp
  | case2 => simp
  | case3 => simp
  | case4 _ _ _ _ ih => simp only [List.length_cons]; omega

theorem length_skipItem (depth : Nat) (tokens : List Token) :
    (skipItem depth tokens).length ≤ tokens.length := by
  fun_induction skipItem depth tokens <;> simp only [List.length_cons, List.length_nil] at * <;>
    omega

/-! ## Classes and items -/

/-- The position that is blamed when reading stops in front of these tokens. -/
def blame (stop : Position) : List Token → Position
  | [] => stop
  | token :: _ => token.start

/-- Statements up to a closing brace or the end, and the errors among them. -/
def body (stop : Position) : List Token → List Statement × List SyntaxError × List Token
  | [] => ([], [], [])
  | token :: rest =>
    if token.kind = .rightBrace then ([], [], token :: rest)
    else match _ : statement token rest with
      | .ok stmt rest' =>
        let (statements, errors, remaining) := body stop rest'
        (stmt :: statements, errors, remaining)
      | .error fault rest' =>
        let (statements, errors, remaining) := body stop (skipStatement rest')
        (statements, ⟨fault, blame stop rest'⟩ :: errors, remaining)
termination_by tokens => tokens.length
decreasing_by
  · rename_i h
    rcases left_statement token rest with le | eq
    · rw [h] at le
      exact Nat.lt_succ_of_le le
    · rw [h] at eq
      cases eq
  · rename_i notBrace h
    rcases left_statement token rest with le | eq
    · rw [h] at le
      exact Nat.lt_succ_of_le (Nat.le_trans (length_skipStatement _) le)
    · rw [h] at eq
      cases eq
      rw [skipStatement, if_neg notBrace]
      split
      · simp
      · exact Nat.lt_succ_of_le (length_skipStatement _)

/-- What became of one item: the item unless it failed, the errors in it, and what is left. -/
structure Step where
  item : Option Item
  errors : List SyntaxError
  rest : List Token

/-- The step for an item that failed in front of `rest`. -/
def failed (stop : Position) (errors : List SyntaxError) (fault : Fault) (rest : List Token) :
    Step :=
  ⟨none, errors ++ [⟨fault, blame stop rest⟩], skipItem 0 rest⟩

/-- A class from behind its first word on. -/
def classTail (stop start : Position) (tokens : List Token) : Step :=
  match classHead tokens with
  | .error fault rest => failed stop [] fault rest
  | .ok (name, base) rest =>
    let (statements, errors, rest) := body stop rest
    match expect .rightBrace rest with
    | .error fault rest => failed stop errors fault rest
    | .ok () rest => ⟨some (.declares ⟨name, base, statements, start⟩), errors, rest⟩

/-- One item from its first token on. -/
def item (stop : Position) (token : Token) (rest : List Token) : Step :=
  match token.kind with
  | .useWord =>
    match useTail rest with
    | .error fault rest => failed stop [] fault rest
    | .ok module rest => ⟨some (.uses module), [], rest⟩
  | .classWord => classTail stop token.start rest
  | kind => failed stop [] (.itemExpected (some kind)) (token :: rest)

theorem length_body (stop : Position) (tokens : List Token) :
    (body stop tokens).2.2.length ≤ tokens.length := by
  fun_induction body stop tokens with
  | case1 => simp
  | case2 => simp
  | case3 token rest _ stmt rest' h statements errors remaining eq ih =>
    rw [eq] at ih
    rcases left_statement token rest with le | eq'
    · rw [h] at le
      simp only [left, List.length_cons] at *
      omega
    · rw [h] at eq'
      cases eq'
  | case4 token rest _ fault rest' h statements errors remaining eq ih =>
    rw [eq] at ih
    have le := length_skipStatement rest'
    rcases left_statement token rest with le' | eq'
    · rw [h] at le'
      simp only [left, List.length_cons] at *
      omega
    · rw [h] at eq'
      cases eq'
      simp only at *
      omega

theorem length_classTail (stop start : Position) (tokens : List Token) :
    (classTail stop start tokens).rest.length ≤ tokens.length := by
  unfold classTail
  have head := nonGrowing_classHead tokens
  split
  · rename_i fault rest h
    rw [h] at head
    exact Nat.le_trans (length_skipItem 0 rest) head
  · rename_i name base rest h
    rw [h] at head
    have bodyLe := length_body stop rest
    have brace := nonGrowing_expect .rightBrace (body stop rest).2.2
    simp only
    split
    · rename_i fault rest' h'
      rw [h'] at brace
      exact Nat.le_trans (length_skipItem 0 rest') (Nat.le_trans brace (Nat.le_trans bodyLe head))
    · rename_i rest' h'
      rw [h'] at brace
      exact Nat.le_trans brace (Nat.le_trans bodyLe head)

/-- An item takes at least its first token. -/
theorem length_item (stop : Position) (token : Token) (rest : List Token) :
    (item stop token rest).rest.length ≤ rest.length := by
  unfold item
  split
  · have tail := nonGrowing_useTail rest
    split
    · rename_i fault rest' h
      rw [h] at tail
      exact Nat.le_trans (length_skipItem 0 rest') tail
    · rename_i module rest' h
      rw [h] at tail
      exact tail
  · exact length_classTail stop token.start rest
  · rename_i notUse notClass
    simp only [failed]
    rw [skipItem.eq_def]
    simp only
    split <;> first | exact length_skipItem _ rest | simp_all

def items (stop : Position) : List Token → List Item × List SyntaxError
  | [] => ([], [])
  | token :: rest =>
    let step := item stop token rest
    let (more, errors) := items stop step.rest
    (step.item.toList ++ more, step.errors ++ errors)
termination_by tokens => tokens.length
decreasing_by exact Nat.lt_succ_of_le (length_item stop token rest)

end Parser

/-- Reads a script, with all its diagnostics: first those of its characters, then those of its
structure. -/
def parse (path source : String) : ScriptUnit × List Diagnostic :=
  let lexed := lex source
  let (items, errors) := Parser.items lexed.stop lexed.tokens
  ({ path, items, lineMap := lexed.lineMap },
    (lexed.errors ++ errors).map (SyntaxError.diagnostic lexed.lineMap path))

end PageScript.Script
