import Mathlib.Data.List.Infix
import PageScript.Proofs.Script.Blame

/-!
# Recovery

An error ends the reading of one statement or one item, not that of the script. Behind a statement
at fault, reading goes on behind its semicolon, so that every statement of a class is judged by
itself. Behind a class whose header is at fault, it goes on behind the body, whatever stands in
there, as long as its braces match.
-/

namespace PageScript.Script

open Mark Production

/-! ## Segments -/

/-- Tokens of which the last one, and no other, is of some kind. -/
def EndsIn (kind : Token.Kind) (tokens : List Token) : Prop :=
  ∃ inner start, tokens = inner ++ [⟨kind, start⟩] ∧ ∀ token ∈ inner, token.kind ≠ kind

/-- A language in which every word ends in its only token of some kind. -/
def Grammar.Closes (kind : Token.Kind) (language : Language Token.Kind) : Prop :=
  ∀ word ∈ language, ∃ inner, word = inner ++ [kind] ∧ kind ∉ inner

variable {kind : Token.Kind} {language : Language Token.Kind}

theorem EndsIn.exists_cons {tokens : List Token} (h : EndsIn kind tokens) :
    ∃ token rest, tokens = token :: rest := by
  obtain ⟨inner, start, rfl, _⟩ := h
  exact List.exists_cons_of_ne_nil (by simp)

/-- What such tokens end in ends in the same way. -/
theorem EndsIn.of_append {front : List Token} {found : Token} {back : List Token}
    (h : EndsIn kind (front ++ found :: back)) : EndsIn kind (found :: back) := by
  obtain ⟨inner, start, heq, hinner⟩ := h
  obtain hnil | ⟨others, last, hlast⟩ := (found :: back).eq_nil_or_concat'
  · contradiction
  · rw [hlast, ← List.append_assoc] at heq
    obtain ⟨rfl, hend⟩ := List.append_inj' heq rfl
    refine ⟨others, start, hlast.trans (congrArg _ hend), ?_⟩
    exact fun token htoken ↦ hinner token (List.mem_append_right _ htoken)

/-- Of two such beginnings of the same tokens, neither is longer. -/
theorem EndsIn.eq_of_append {first second tail rest : List Token} (hfirst : EndsIn kind first)
    (hsecond : EndsIn kind second) (h : first ++ tail = second ++ rest) :
    first = second ∧ tail = rest := by
  obtain ⟨inner, start, rfl, hinner⟩ := hfirst
  obtain ⟨others, start', rfl, hothers⟩ := hsecond
  have htake (before : List Token) (hbefore : ∀ token ∈ before, token.kind ≠ kind)
      (start : Position) (behind : List Token) :
      (before ++ ⟨kind, start⟩ :: behind).takeWhile (·.kind ≠ kind) = before := by
    rw [List.takeWhile_append_of_pos (by simpa using hbefore)]
    simp
  simp only [List.append_assoc, List.singleton_append] at h
  have hsame : inner = others := by
    have hwhile := congrArg (List.takeWhile (·.kind ≠ kind)) h
    rwa [htake inner hinner, htake others hothers] at hwhile
  subst hsame
  cases List.append_cancel_left h
  exact ⟨rfl, rfl⟩

theorem endsIn_of_mem (h : Grammar.Closes kind language) {tokens : List Token}
    (htokens : tokens.map Token.kind ∈ language) : EndsIn kind tokens := by
  obtain ⟨word, hword, hmem⟩ := h _ htokens
  obtain ⟨inner, last, rfl, rfl, hlast⟩ := List.map_eq_append_iff.mp hword
  obtain ⟨⟨_, start⟩, rfl, rfl⟩ := List.map_eq_singleton_iff.mp hlast
  exact ⟨inner, start, rfl, fun token htoken heq ↦ hmem (heq ▸ List.mem_map_of_mem htoken)⟩

/-- Behind a token that ends its words, a language has nothing to want. -/
theorem not_blames_append (h : Grammar.Closes kind language) {segment : List Token}
    (hsegment : EndsIn kind segment) (more : List Token) {fault : Fault}
    {found : Option Token.Kind} :
    ¬Blames language fault ((segment ++ more).map Token.kind) found := by
  intro hblames
  obtain ⟨inner, start, rfl, _⟩ := hsegment
  obtain ⟨wanted, behind, _, hmem⟩ := hblames.wanted
  simp only [List.map_append, List.map_cons, List.append_assoc, List.singleton_append] at hmem
  obtain ⟨word, hword, hnot⟩ := h _ hmem
  have hnil := ((List.append_cons_inj_of_notMem hnot (by simp)).mp hword.symm).2.2
  simp at hnil

/-- A production whose words end in some token reads tokens up to the next one of its kind as a
word, or stops in front of one of them; what stands behind them plays no part. -/
theorem Production.Exact.cases {α : Type} {p : Production α} (hp : Exact language p)
    (hcloses : Grammar.Closes kind language) {segment : List Token} (hsegment : EndsIn kind segment)
    (tail : List Token) :
    (segment.map Token.kind ∈ language ∧ ∃ value, p (segment ++ tail) = .ok value tail) ∨
    ∃ fault front found back, segment = front ++ found :: back ∧
      p (segment ++ tail) = .error fault (found :: back ++ tail) ∧
      Blames language fault (front.map Token.kind) (some found.kind) := by
  cases hread : p (segment ++ tail) with
  | ok value rest =>
    obtain ⟨front, htokens, hfront⟩ := (hp.exactAt _).reads value rest hread
    obtain ⟨rfl, rfl⟩ := hsegment.eq_of_append (endsIn_of_mem hcloses hfront) htokens
    exact .inl ⟨hfront, value, rfl⟩
  | error fault rest =>
    obtain ⟨front, htokens, hblames⟩ := (hp.exactAt _).blames fault rest hread
    obtain ⟨more, rfl, _⟩ | ⟨back, rfl, rfl⟩ := List.append_eq_append_iff.mp htokens
    · exact absurd hblames (not_blames_append hcloses hsegment more)
    · cases back with
      | nil =>
        rw [List.append_nil] at hsegment
        exact absurd hblames (List.append_nil front ▸ not_blames_append hcloses hsegment [])
      | cons found back => exact .inr ⟨fault, front, found, back, rfl, rfl, hblames⟩

/-! ## Statements -/

/-- Tokens that end in their only semicolon and do not close a class. -/
structure IsChunk (chunk : List Token) : Prop where
  endsIn : EndsIn .semicolon chunk
  noBrace : ∀ token ∈ chunk, token.kind ≠ .rightBrace

/-- The tokens of one statement. -/
def IsStatement (tokens : List Token) : Prop := tokens.map Token.kind ∈ Grammar.statement

theorem isStatement_iff {tokens : List Token} :
    IsStatement tokens ↔ ∃ stmt : Statement, Spells stmt.marks tokens := by
  constructor
  · intro h
    obtain ⟨stmt, hstmt⟩ := Grammar.mem_statement.mp h
    obtain ⟨placed, hplaced, _⟩ := placeable_statement stmt tokens hstmt.symm
    exact ⟨placed, hplaced⟩
  · intro ⟨stmt, hstmt⟩
    exact Grammar.mem_statement.mpr ⟨stmt, hstmt.map_kind.symm⟩

/-- Whether tokens are read as a statement, and all of them. -/
def isRead (tokens : List Token) : Bool :=
  match statementFrom tokens with
  | .ok _ [] => true
  | _ => false

theorem isRead_iff {tokens : List Token} : isRead tokens = true ↔ IsStatement tokens := by
  constructor
  · intro h
    unfold isRead at h
    split at h
    · next stmt hread =>
      obtain ⟨front, hfront, htokens⟩ := statementFrom_eq_ok.mp hread
      rw [htokens, List.append_nil]
      exact isStatement_iff.mpr ⟨stmt, hfront⟩
    · contradiction
  · intro h
    obtain ⟨stmt, hstmt⟩ := isStatement_iff.mp h
    have hread : statementFrom tokens = .ok stmt [] :=
      statementFrom_eq_ok.mpr ⟨tokens, hstmt, (List.append_nil _).symm⟩
    rw [isRead, hread]

instance : DecidablePred IsStatement := fun _ ↦ decidable_of_iff _ isRead_iff

/-- A statement has one semicolon, at its end. -/
theorem closes_statement : Grammar.Closes .semicolon Grammar.statement := by
  intro kinds h
  obtain ⟨⟨kind, start⟩, rfl⟩ := Grammar.mem_statement.mp h
  refine ⟨kind.word :: kind.operands.map Mark.kind, by simp [Statement.marks], ?_⟩
  cases kind <;>
    simp [Statement.Kind.word, Statement.Kind.operands, QualifiedName.marks, List.map_flatMap]

namespace Parser

variable {stop : Position}

theorem skipStatement_chunk {chunk : List Token} (h : IsChunk chunk) (tail : List Token) :
    skipStatement (chunk ++ tail) = tail := by
  obtain ⟨⟨inner, start, rfl, hinner⟩, hbrace⟩ := h
  rw [List.append_assoc, List.singleton_append]
  induction inner with
  | nil => simp [skipStatement]
  | cons token others ih =>
    rw [List.forall_mem_cons] at hinner
    rw [List.cons_append, List.forall_mem_cons] at hbrace
    rw [List.cons_append, skipStatement, if_neg hbrace.1, if_neg hinner.1]
    exact ih hinner.2 hbrace.2

variable {chunk : List Token} {chunks : List (List Token)} {statements : List Statement}
  {errors : List SyntaxError}

/-- A chunk is taken off a body as a whole, whether it is a statement or not. -/
theorem body_chunk (stop : Position) (h : IsChunk chunk) (tail : List Token) :
    (∃ stmt : Statement, Spells stmt.marks chunk ∧
      body stop (chunk ++ tail) = Prod.map (stmt :: ·) id (body stop tail)) ∨
    ∃ error, Pinpoints Grammar.statement chunk error ∧
      body stop (chunk ++ tail) = Prod.map id (Prod.map (error :: ·) id) (body stop tail) := by
  obtain ⟨hstatement, _⟩ | ⟨fault, front, found, back, hchunk, hread, hblames⟩ :=
    exact_statementFrom.cases closes_statement h.endsIn tail
  · obtain ⟨stmt, hstmt⟩ := isStatement_iff.mp hstatement
    exact .inl ⟨stmt, hstmt, body_append hstmt tail⟩
  · refine .inr ⟨⟨fault, found.start⟩, ⟨front, found, back, hchunk, rfl, hblames⟩, ?_⟩
    have hrest : IsChunk (found :: back) := by
      rw [hchunk] at h
      refine ⟨h.endsIn.of_append, fun token htoken ↦ ?_⟩
      exact h.noBrace token (List.mem_append_right _ htoken)
    have hskip : skipStatement (found :: back ++ tail) = tail := skipStatement_chunk hrest tail
    obtain ⟨token, rest, rfl⟩ := h.endsIn.exists_cons
    rw [List.cons_append, body, if_neg (h.noBrace token List.mem_cons_self)]
    split
    · next stmt rest' hok => cases hread.symm.trans hok
    · next fault' rest' herror =>
      cases hread.symm.trans herror
      rw [hskip]
      rfl

/-- What reading chunks gives: a statement for each of them that is one, and for each other one an
error that tells what is wrong with it. -/
structure Recovers (chunks : List (List Token)) (statements : List Statement)
    (errors : List SyntaxError) : Prop where
  statements : List.Forall₂ (fun chunk stmt ↦ Spells stmt.marks chunk)
    (chunks.filter (IsStatement ·)) statements
  errors : List.Forall₂ (Pinpoints Grammar.statement) (chunks.filter (¬IsStatement ·)) errors

theorem Recovers.statement (h : Recovers chunks statements errors) {stmt : Statement}
    (hstmt : Spells stmt.marks chunk) : Recovers (chunk :: chunks) (stmt :: statements) errors := by
  have hchunk : IsStatement chunk := isStatement_iff.mpr ⟨stmt, hstmt⟩
  refine ⟨?_, ?_⟩
  · rw [List.filter_cons_of_pos (by simpa using hchunk)]
    exact .cons hstmt h.statements
  · rw [List.filter_cons_of_neg (by simpa using hchunk)]
    exact h.errors

theorem Recovers.error (h : Recovers chunks statements errors) {error : SyntaxError}
    (herror : Pinpoints Grammar.statement chunk error) :
    Recovers (chunk :: chunks) statements (error :: errors) := by
  have hchunk : ¬IsStatement chunk := by
    obtain ⟨front, token, back, rfl, _, hblames⟩ := herror
    rw [IsStatement, List.map_append, List.map_cons]
    exact hblames.unfit token.kind rfl _
  refine ⟨?_, ?_⟩
  · rw [List.filter_cons_of_neg (by simpa using hchunk)]
    exact h.statements
  · rw [List.filter_cons_of_pos (by simpa using hchunk)]
    exact .cons herror h.errors

/-- Every chunk of a body is judged by itself. -/
theorem body_chunks (stop close : Position) (h : ∀ chunk ∈ chunks, IsChunk chunk)
    (rest : List Token) :
    ∃ statements errors, Recovers chunks statements errors ∧
      body stop (chunks.flatten ++ ⟨.rightBrace, close⟩ :: rest) =
        (statements, errors, ⟨.rightBrace, close⟩ :: rest) := by
  induction chunks with
  | nil =>
    refine ⟨[], [], ⟨.nil, .nil⟩, ?_⟩
    rw [List.flatten_nil, List.nil_append, body, if_pos rfl]
  | cons chunk chunks ih =>
    rw [List.forall_mem_cons] at h
    obtain ⟨statements, errors, hrecovers, hbody⟩ := ih h.2
    rw [List.flatten_cons, List.append_assoc]
    obtain ⟨stmt, hstmt, hchunk⟩ | ⟨error, herror, hchunk⟩ :=
      body_chunk stop h.1 (chunks.flatten ++ ⟨.rightBrace, close⟩ :: rest)
    · exact ⟨stmt :: statements, errors, hrecovers.statement hstmt, by rw [hchunk, hbody]; rfl⟩
    · exact ⟨statements, error :: errors, hrecovers.error herror, by rw [hchunk, hbody]; rfl⟩

/-- A class with a good header is read chunk by chunk: it has the statements among its chunks, each
other chunk has one error, and what stands behind the class is read as if all chunks were
statements. -/
theorem items_class_of_chunks (stop close : Position) {start : Position} {head : List Token}
    {name : String} {base : QualifiedName}
    (hhead : Spells (placed .classWord start :: free (.identifier name) :: free .colon ::
      (base.marks ++ [free .leftBrace])) head)
    (hchunks : ∀ chunk ∈ chunks, IsChunk chunk) (rest : List Token) :
    ∃ statements errors, Recovers chunks statements errors ∧
      items stop (head ++ (chunks.flatten ++ ⟨.rightBrace, close⟩ :: rest)) =
        (.declares ⟨name, base, statements, start⟩ :: (items stop rest).1,
          errors ++ (items stop rest).2) := by
  obtain ⟨statements, errors, hrecovers, hbody⟩ := body_chunks stop close hchunks rest
  refine ⟨statements, errors, hrecovers, ?_⟩
  obtain ⟨front, hfront, rfl⟩ := spells_placed_cons.mp hhead
  have hclass : classHead (front ++ (chunks.flatten ++ ⟨.rightBrace, close⟩ :: rest)) =
      .ok (name, base) (chunks.flatten ++ ⟨.rightBrace, close⟩ :: rest) :=
    classHead_eq_ok.mpr ⟨front, hfront, rfl⟩
  rw [List.cons_append, items]
  simp only [item, classTail, hclass, hbody, expect, if_true, Option.toList_some,
    List.singleton_append]

/-- `class B : Page { }`, as it stands behind the classes of the examples. -/
def nextClass : List Token :=
  [⟨.classWord, ⟨1, 34⟩⟩, ⟨.identifier "B", ⟨1, 40⟩⟩, ⟨.colon, ⟨1, 42⟩⟩,
    ⟨.identifier "Page", ⟨1, 44⟩⟩, ⟨.leftBrace, ⟨1, 49⟩⟩, ⟨.rightBrace, ⟨1, 51⟩⟩]

def nextItems : List Item := [.declares ⟨"B", ⟨"Page", [], ⟨1, 44⟩⟩, [], ⟨1, 34⟩⟩]

theorem items_nextClass : items stop nextClass = (nextItems, []) := by
  apply items_eq_iff.mpr
  simp [nextItems, nextClass, marks, Item.marks, ClassDeclaration.marks, QualifiedName.marks]

/-- `class A : Page {`, before the lines of `faultyChunks`. -/
def goodHeader : List Token :=
  [⟨.classWord, ⟨1, 1⟩⟩, ⟨.identifier "A", ⟨1, 7⟩⟩, ⟨.colon, ⟨1, 9⟩⟩, ⟨.identifier "Page", ⟨1, 11⟩⟩,
    ⟨.leftBrace, ⟨1, 16⟩⟩]

/-- `render;`, `write "ok";`, `use class A;` and `;`. -/
def faultyChunks : List (List Token) :=
  [[⟨.renderWord, ⟨2, 1⟩⟩, ⟨.semicolon, ⟨2, 7⟩⟩],
    [⟨.writeWord, ⟨3, 1⟩⟩, ⟨.text "ok", ⟨3, 7⟩⟩, ⟨.semicolon, ⟨3, 11⟩⟩],
    [⟨.useWord, ⟨4, 1⟩⟩, ⟨.classWord, ⟨4, 5⟩⟩, ⟨.identifier "A", ⟨4, 11⟩⟩, ⟨.semicolon, ⟨4, 12⟩⟩],
    [⟨.semicolon, ⟨5, 1⟩⟩]]

theorem items_faultyChunks :
    (∀ chunk ∈ faultyChunks, IsChunk chunk) ∧ ∃ errors : List SyntaxError, errors.length = 3 ∧
      items ⟨7, 1⟩ (goodHeader ++ (faultyChunks.flatten ++ ⟨.rightBrace, ⟨6, 1⟩⟩ :: nextClass)) =
        (.declares ⟨"A", ⟨"Page", [], ⟨1, 11⟩⟩, [⟨.write "ok", ⟨3, 1⟩⟩], ⟨1, 1⟩⟩ :: nextItems,
          errors) := by
  have hchunks : ∀ chunk ∈ faultyChunks, IsChunk chunk := by
    simp only [faultyChunks, List.forall_mem_cons]
    refine ⟨⟨⟨[_], _, rfl, ?_⟩, ?_⟩, ⟨⟨[_, _], _, rfl, ?_⟩, ?_⟩, ⟨⟨[_, _, _], _, rfl, ?_⟩, ?_⟩,
      ⟨⟨[], _, rfl, ?_⟩, ?_⟩, ?_⟩ <;> simp
  have hheader : Spells (placed .classWord ⟨1, 1⟩ :: free (.identifier "A") :: free .colon ::
      ((⟨"Page", [], ⟨1, 11⟩⟩ : QualifiedName).marks ++ [free .leftBrace])) goodHeader := by
    simp [goodHeader, QualifiedName.marks]
  obtain ⟨statements, errors, hrecovers, hitems⟩ :=
    items_class_of_chunks ⟨7, 1⟩ ⟨6, 1⟩ hheader hchunks nextClass
  have hgood : faultyChunks.filter (IsStatement ·) =
      [[⟨.writeWord, ⟨3, 1⟩⟩, ⟨.text "ok", ⟨3, 7⟩⟩, ⟨.semicolon, ⟨3, 11⟩⟩]] := by
    decide +kernel
  have hbad : (faultyChunks.filter (¬IsStatement ·)).length = 3 := by decide +kernel
  obtain ⟨stmt, rest, hstmt, hrest, rfl⟩ :=
    List.forall₂_cons_left_iff.mp (hgood ▸ hrecovers.statements)
  cases hrest
  have hread := statementFrom_eq_ok.mpr ⟨_, hstmt, (List.append_nil _).symm⟩
  cases hread
  refine ⟨hchunks, errors, hrecovers.errors.length_eq.symm.trans hbad, ?_⟩
  rw [hitems, items_nextClass, List.append_nil]

end Parser

/-! ## Braces -/

def opened (tokens : List Token) : Nat := tokens.countP (·.kind = .leftBrace)

def closed (tokens : List Token) : Nat := tokens.countP (·.kind = .rightBrace)

/-- No brace is closed before it is opened, and none is left open. -/
structure Balanced (tokens : List Token) : Prop where
  closed_le : ∀ front, front <+: tokens → closed front ≤ opened front
  closed_eq : closed tokens = opened tokens

theorem opened_cons (token : Token) (rest : List Token) :
    opened (token :: rest) = opened rest + if token.kind = .leftBrace then 1 else 0 := by
  simp [opened, List.countP_cons]

theorem closed_cons (token : Token) (rest : List Token) :
    closed (token :: rest) = closed rest + if token.kind = .rightBrace then 1 else 0 := by
  simp [closed, List.countP_cons]

/-- Neither a brace nor the first word of an item. -/
def Plain (token : Token) : Prop :=
  token.kind ≠ .leftBrace ∧ token.kind ≠ .rightBrace ∧ token.kind ≠ .useWord ∧
    token.kind ≠ .classWord

/-- Where an item can start, or nothing is left. -/
def AtItem (tokens : List Token) : Prop :=
  ∀ token ∈ tokens.head?, token.kind = .useWord ∨ token.kind = .classWord

/-- A header has no brace, so that the brace of the class is the first one behind its word. -/
theorem closes_header : Grammar.Closes .leftBrace (Grammar.header * Grammar.token .leftBrace) := by
  intro word hword
  obtain ⟨_, ⟨_, ⟨_, ⟨name, rfl⟩, _, rfl, rfl⟩, _, hbase, rfl⟩, _, rfl, rfl⟩ := hword
  obtain ⟨base, rfl⟩ := Grammar.mem_name.mp hbase
  refine ⟨_, rfl, ?_⟩
  simp [QualifiedName.marks, List.map_flatMap]

namespace Parser

/-- Inside braces, skipping only counts them: it comes behind any tokens that leave some of them
open throughout. -/
theorem skipItem_append {depth : Nat} {body : List Token}
    (h : ∀ front, front <+: body → closed front ≤ depth + opened front) (rest : List Token) :
    skipItem (depth + 1) (body ++ rest) =
      skipItem (depth + 1 + opened body - closed body) rest := by
  induction body generalizing depth with
  | nil => rfl
  | cons token others ih =>
    have hfront (front : List Token) (hothers : front <+: others) :
        closed (token :: front) ≤ depth + opened (token :: front) :=
      h _ ((List.prefix_cons_inj token).mpr hothers)
    simp only [opened_cons, closed_cons] at hfront ⊢
    rw [List.cons_append, skipItem.eq_def]
    rcases token with ⟨kind, start⟩
    cases kind with
    | leftBrace =>
      simp only [reduceCtorEq, if_true, if_false] at hfront ⊢
      rw [ih fun front hothers ↦ by have := hfront front hothers; omega]
      congr 1
      omega
    | rightBrace =>
      simp only [reduceCtorEq, if_true, if_false] at hfront ⊢
      obtain ⟨outer, rfl⟩ : ∃ outer, depth = outer + 1 := by
        have hpositive := hfront [] List.nil_prefix
        exact Nat.exists_eq_succ_of_ne_zero fun hzero ↦ by simp [hzero, opened] at hpositive
      rw [Nat.add_sub_cancel, ih fun front hothers ↦ by have := hfront front hothers; omega]
      congr 1
      omega
    | _ =>
      simp only [reduceCtorEq, if_false, Nat.add_eq_zero_iff, one_ne_zero, and_false] at hfront ⊢
      exact ih hfront

theorem skipItem_balanced {body : List Token} (h : Balanced body) (close : Position)
    (rest : List Token) :
    skipItem 1 (body ++ ⟨.rightBrace, close⟩ :: rest) = skipItem 0 rest := by
  have hbody : ∀ front, front <+: body → closed front ≤ 0 + opened front := by
    simpa using h.closed_le
  calc
    skipItem 1 (body ++ ⟨.rightBrace, close⟩ :: rest) =
        skipItem (0 + 1 + opened body - closed body) (⟨.rightBrace, close⟩ :: rest) :=
      skipItem_append hbody _
    _ = skipItem 1 (⟨.rightBrace, close⟩ :: rest) := by rw [h.closed_eq, Nat.add_sub_cancel]
    _ = skipItem 0 rest := by simp [skipItem]

theorem skipItem_plain {plain : List Token} (h : ∀ token ∈ plain, Plain token)
    (rest : List Token) : skipItem 0 (plain ++ rest) = skipItem 0 rest := by
  induction plain with
  | nil => rfl
  | cons token others ih =>
    rw [List.forall_mem_cons] at h
    rcases token with ⟨kind, start⟩
    rw [List.cons_append, skipItem.eq_def]
    cases kind with
    | leftBrace | rightBrace | useWord | classWord => simp [Plain] at h
    | _ => exact ih h.2

theorem skipItem_of_atItem {rest : List Token} (h : AtItem rest) : skipItem 0 rest = rest := by
  cases rest with
  | nil => rfl
  | cons token others =>
    rw [skipItem.eq_def]
    rcases h token rfl with hkind | hkind <;> simp [hkind]

/-- From within a header on, skipping comes behind the body. -/
theorem skipItem_header {plain body : List Token} (hplain : ∀ token ∈ plain, Plain token)
    (hbody : Balanced body) (opening closing : Position) {rest : List Token} (hrest : AtItem rest) :
    skipItem 0 (plain ++ ⟨.leftBrace, opening⟩ :: (body ++ ⟨.rightBrace, closing⟩ :: rest)) =
      rest := by
  calc
    _ = skipItem 0 (⟨.leftBrace, opening⟩ :: (body ++ ⟨.rightBrace, closing⟩ :: rest)) :=
      skipItem_plain hplain _
    _ = skipItem 1 (body ++ ⟨.rightBrace, closing⟩ :: rest) := by simp [skipItem]
    _ = skipItem 0 rest := skipItem_balanced hbody closing rest
    _ = rest := skipItem_of_atItem hrest

/-- A class whose header is at fault has one error, at a token of the header or at the brace behind
it, and is skipped as a whole; what stands behind it is read as if it stood alone. -/
theorem items_class_of_bad_header (stop start opening closing : Position)
    {head body rest : List Token}
    (hhead : ∀ token ∈ head, Plain token) (hbad : head.map Token.kind ∉ Grammar.header)
    (hbody : Balanced body) (hrest : AtItem rest) :
    ∃ error, Pinpoints (Grammar.header * Grammar.token .leftBrace)
        (head ++ [⟨.leftBrace, opening⟩]) error ∧
      items stop (⟨.classWord, start⟩ ::
          (head ++ ⟨.leftBrace, opening⟩ :: (body ++ ⟨.rightBrace, closing⟩ :: rest))) =
        ((items stop rest).1, error :: (items stop rest).2) := by
  have hends : EndsIn .leftBrace (head ++ [⟨.leftBrace, opening⟩]) :=
    ⟨head, opening, rfl, fun token htoken ↦ (hhead token htoken).1⟩
  obtain ⟨hgood, _⟩ | ⟨fault, front, found, back, hsegment, hread, hblames⟩ :=
    exact_classHead.cases closes_header hends (body ++ ⟨.rightBrace, closing⟩ :: rest)
  · obtain ⟨word, hword, _, rfl, heq⟩ := hgood
    rw [List.map_append] at heq
    exact absurd (List.append_cancel_right heq ▸ hword) hbad
  · refine ⟨⟨fault, found.start⟩, ⟨front, found, back, hsegment, rfl, hblames⟩, ?_⟩
    obtain ⟨plain, hleft, hplain⟩ : ∃ plain, found :: back = plain ++ [⟨.leftBrace, opening⟩] ∧
        ∀ token ∈ plain, Plain token := by
      obtain ⟨plain, start, hleft, _⟩ := (hsegment ▸ hends).of_append
      rw [hleft, ← List.append_assoc] at hsegment
      obtain ⟨rfl, hlast⟩ := List.append_inj' hsegment rfl
      exact ⟨plain, hleft.trans (congrArg _ hlast.symm),
        fun token htoken ↦ hhead token (List.mem_append_right _ htoken)⟩
    have hskip : skipItem 0 (found :: back ++ (body ++ ⟨.rightBrace, closing⟩ :: rest)) = rest := by
      rw [hleft, List.append_assoc, List.singleton_append]
      exact skipItem_header hplain hbody opening closing hrest
    rw [List.append_assoc, List.singleton_append] at hread
    rw [items]
    simp only [item, classTail, hread, failed, hskip]
    rfl

/-- The header of `class A Page { use { class } ; } class B : Page { }`, on one line. -/
def badHeader : List Token := [⟨.identifier "A", ⟨1, 7⟩⟩, ⟨.identifier "Page", ⟨1, 9⟩⟩]

/-- What stands between the braces of that class. -/
def nestedBody : List Token :=
  [⟨.useWord, ⟨1, 16⟩⟩, ⟨.leftBrace, ⟨1, 20⟩⟩, ⟨.classWord, ⟨1, 22⟩⟩, ⟨.rightBrace, ⟨1, 28⟩⟩,
    ⟨.semicolon, ⟨1, 30⟩⟩]

theorem items_badHeader :
    (∀ token ∈ badHeader, Plain token) ∧ badHeader.map Token.kind ∉ Grammar.header ∧
      Balanced nestedBody ∧ AtItem nextClass ∧ ∃ error,
        items ⟨1, 54⟩ (⟨.classWord, ⟨1, 1⟩⟩ :: (badHeader ++ ⟨.leftBrace, ⟨1, 14⟩⟩ ::
          (nestedBody ++ ⟨.rightBrace, ⟨1, 32⟩⟩ :: nextClass))) = (nextItems, [error]) := by
  have hplain : ∀ token ∈ badHeader, Plain token := by
    simp [badHeader, Plain]
  have hbad : badHeader.map Token.kind ∉ Grammar.header := by
    simp only [Grammar.header, mul_assoc, badHeader, List.map_cons, Grammar.cons_mem_single_mul
      Grammar.single_identifier, Grammar.cons_mem_token_mul]
    simp
  have hbody : Balanced nestedBody := by
    have hinits : ∀ front ∈ nestedBody.inits, closed front ≤ opened front := by decide
    exact ⟨fun front hfront ↦ hinits front ((List.mem_inits _ _).mpr hfront), by decide⟩
  have hrest : AtItem nextClass := by simp [nextClass, AtItem]
  obtain ⟨error, _, hitems⟩ := items_class_of_bad_header ⟨1, 54⟩ ⟨1, 1⟩ ⟨1, 14⟩ ⟨1, 32⟩
    hplain hbad hbody hrest
  refine ⟨hplain, hbad, hbody, hrest, error, ?_⟩
  rw [hitems, items_nextClass]

end Parser

end PageScript.Script
