import Mathlib.Data.List.Infix
import PageScript.Proofs.Script.Blame

/-!
# Progress

The parser loops over the items, over the statements of a class and, behind an error, over the
tokens it skips. A turn of one of these loops takes a token or is the last one, although a failing
production may take nothing and skipping may stop where it starts: what fails without taking a token
is never what stops the skipping. So every loop ends, the one over the items at the end of the
tokens, and an error is paid for with a token.
-/

namespace PageScript.Script

/-! ## Loops over tokens -/

/-- What one turn of a loop comes to: another turn, or the end of the loop. -/
inductive Turn (σ α : Type) where
  | again (state : σ) (rest : List Token)
  | leave (result : α) (rest : List Token)
  deriving Repr

namespace Turn

variable {σ α : Type}

/-- A turn gives back an end of the tokens, and a shorter one unless it is the last. -/
def Progresses (tokens : List Token) : Turn σ α → Prop
  | .again _ rest => rest <:+ tokens ∧ rest.length < tokens.length
  | .leave _ rest => rest <:+ tokens

theorem progresses_again {rest between : List Token} (h : between <:+ rest) (token : Token)
    (state : σ) : (again state between : Turn σ α).Progresses (token :: rest) :=
  ⟨h.trans (List.suffix_cons token rest), Nat.lt_succ_of_le h.length_le⟩

/-- What a turn leaves, in tokens and in what is charged for them, is at most some sum. -/
def AtMost (before : σ → ℕ) (after : α → ℕ) (sum : ℕ) : Turn σ α → Prop
  | .again state rest => before state + rest.length ≤ sum
  | .leave result rest => after result + rest.length ≤ sum

end Turn

/-- A loop over tokens, as what it does in one turn with the tokens still to be read. -/
abbrev Loop (σ α : Type) := σ → List Token → Turn σ α

namespace Loop

variable {σ α : Type} {loop : Loop σ α} {state : σ} {result : α} {tokens rest : List Token}
  {count : ℕ}

/-- Every turn of a loop takes a token or is the last one. -/
def Progresses (loop : Loop σ α) : Prop :=
  ∀ state tokens, (loop state tokens).Progresses tokens

/-- What is charged for by `before` in a state and by `after` in a result is paid for in tokens. -/
def Pays (loop : Loop σ α) (before : σ → ℕ) (after : α → ℕ) : Prop :=
  ∀ state tokens, (loop state tokens).AtMost before after (before state + tokens.length)

/-- Running a loop: it goes round some number of times, and then leaves. -/
inductive Runs (loop : Loop σ α) : ℕ → σ → List Token → α → List Token → Prop
  | leave {state : σ} {tokens rest : List Token} {result : α}
      (h : loop state tokens = .leave result rest) : Runs loop 0 state tokens result rest
  | again {state next : σ} {tokens between rest : List Token} {result : α} {count : ℕ}
      (h : loop state tokens = .again next between)
      (hruns : Runs loop count next between result rest) :
      Runs loop (count + 1) state tokens result rest

/-- What a loop leaves is the end of what it was given. -/
theorem Runs.suffix (hloop : Progresses loop) (h : Runs loop count state tokens result rest) :
    rest <:+ tokens := by
  induction h with
  | @leave state tokens _ _ h =>
    have hturn := hloop state tokens
    rwa [h] at hturn
  | @again state _ tokens _ _ _ _ h _ ih =>
    have hturn := hloop state tokens
    rw [h] at hturn
    exact ih.trans hturn.1

/-- A loop that progresses goes round at most once for every token it takes. -/
theorem Runs.count_add_length_le (hloop : Progresses loop)
    (h : Runs loop count state tokens result rest) : count + rest.length ≤ tokens.length := by
  induction h with
  | leave h =>
    rw [zero_add]
    exact (Runs.leave h).suffix hloop |>.length_le
  | @again state _ tokens _ _ _ _ h _ ih =>
    have hturn := hloop state tokens
    rw [h] at hturn
    have hlt := hturn.2
    omega

/-- Over a whole run, what is paid for is no more than the tokens that are taken. -/
theorem Runs.pays {before : σ → ℕ} {after : α → ℕ} (hloop : Pays loop before after)
    (h : Runs loop count state tokens result rest) :
    after result + rest.length ≤ before state + tokens.length := by
  induction h with
  | @leave state tokens _ _ h =>
    have hturn := hloop state tokens
    rwa [h] at hturn
  | @again state _ tokens _ _ _ _ h _ ih =>
    have hturn := hloop state tokens
    rw [h] at hturn
    exact ih.trans hturn

/-- A function gives what a loop comes to: the result of the last turn, and the tokens left. -/
def Unrolls (loop : Loop σ α) (value : σ → List Token → α × List Token) : Prop :=
  ∀ state tokens, value state tokens =
    match loop state tokens with
    | .again next rest => value next rest
    | .leave result rest => (result, rest)

variable {value : σ → List Token → α × List Token}

/-- A loop that progresses ends, with what such a function gives. -/
theorem Progresses.exists_runs (hloop : Progresses loop) (hvalue : Unrolls loop value) (state : σ)
    (tokens : List Token) :
    ∃ count, Runs loop count state tokens (value state tokens).1 (value state tokens).2 := by
  induction hlength : tokens.length using Nat.strong_induction_on generalizing state tokens with
  | _ length ih =>
  have hturn := hloop state tokens
  rw [hvalue state tokens]
  cases hloop : loop state tokens with
  | leave result rest => exact ⟨0, .leave hloop⟩
  | again next rest =>
    rw [hloop] at hturn
    obtain ⟨count, hruns⟩ := ih rest.length (hlength ▸ hturn.2) next rest rfl
    exact ⟨count + 1, .again hloop hruns⟩

/-- Every turn of a loop progresses, so that it ends: in at most as many rounds as it takes tokens,
and with the value of a function. -/
structure Computes (loop : Loop σ α) (value : σ → List Token → α × List Token) : Prop where
  progresses : Progresses loop
  ends : ∀ state tokens, ∃ count,
    Runs loop count state tokens (value state tokens).1 (value state tokens).2 ∧
      count + (value state tokens).2.length ≤ tokens.length

/-- A loop that takes a token at each turn computes any function that unrolls like it. -/
theorem Progresses.computes (hloop : Progresses loop) (hvalue : Unrolls loop value) :
    Computes loop value where
  progresses := hloop
  ends := fun state tokens ↦ by
    obtain ⟨count, hruns⟩ := hloop.exists_runs hvalue state tokens
    exact ⟨count, hruns, hruns.count_add_length_le hloop⟩

theorem Computes.suffix (h : Computes loop value) (state : σ) (tokens : List Token) :
    (value state tokens).2 <:+ tokens := by
  obtain ⟨_, hruns, _⟩ := h.ends state tokens
  exact hruns.suffix h.progresses

theorem Computes.pays (h : Computes loop value) {before : σ → ℕ} {after : α → ℕ}
    (hloop : Pays loop before after) (state : σ) (tokens : List Token) :
    after (value state tokens).1 + (value state tokens).2.length ≤
      before state + tokens.length := by
  obtain ⟨_, hruns, _⟩ := h.ends state tokens
  exact hruns.pays hloop

end Loop

/-! ## Productions -/

namespace Production

open Grammar

variable {α : Type} {p : Production α} {language : Language Token.Kind} {tokens rest : List Token}

theorem left_of_ok {value : α} (h : p tokens = .ok value rest) : left (p tokens) = rest := by
  rw [h, left]

theorem left_of_error {fault : Fault} (h : p tokens = .error fault rest) :
    left (p tokens) = rest := by
  rw [h, left]

/-- A production gives back an end of its tokens, failing or not. -/
theorem Exact.suffix (h : Exact language p) (tokens : List Token) : left (p tokens) <:+ tokens := by
  cases hread : p tokens with
  | ok value rest =>
    obtain ⟨front, heq, _⟩ := (h.exactAt tokens).reads value rest hread
    exact ⟨front, heq.symm⟩
  | error fault rest =>
    obtain ⟨front, heq, _⟩ := (h.exactAt tokens).blames fault rest hread
    exact ⟨front, heq.symm⟩

/-- Behind the keyword, a declaration is a name and a semicolon. -/
theorem exact_useTail : Exact (name * token .semicolon) useTail := by
  apply exact_qualifiedName
  · intro module
    exact exact_expect_pure .semicolon module
  · intro kinds hmem
    cases hmem

/-- A statement takes its first word, unless that word starts no statement. -/
theorem suffix_statement (token : Token) (rest : List Token) :
    left (statement token rest) <:+ rest ∨
      statement token rest = .error (.statementExpected (some token.kind)) (token :: rest) := by
  apply (left_statement token rest).imp_left
  intro hle
  obtain heq | hsuffix := List.suffix_cons_iff.mp (exact_statementFrom.suffix (token :: rest))
  · -- all tokens are left, of which there are more than behind the first
    have hlength := congrArg List.length heq
    simp only [statementFrom, List.length_cons] at hlength
    omega
  · exact hsuffix

theorem suffix_expect (kind : Token.Kind) (tokens : List Token) :
    left (expect kind tokens) <:+ tokens := by
  obtain ⟨token, rest, value, rfl, _, hread⟩ | ⟨fault, hread, _⟩ :=
    (takesOne_expect kind).reads tokens
  · rw [left_of_ok hread]
    exact List.suffix_cons token rest
  · rw [left_of_error hread]

end Production

namespace Parser

open Production

/-! ## Skipping -/

/-- One turn of skipping the rest of a statement. -/
def skipStatementLoop : Loop Unit Unit
  | (), [] => .leave () []
  | (), token :: rest =>
    if token.kind = .rightBrace then .leave () (token :: rest)
    else if token.kind = .semicolon then .leave () rest
    else .again () rest

/-- One turn of skipping to the next item, inside of some number of braces. -/
def skipItemLoop : Loop ℕ Unit
  | _, [] => .leave () []
  | depth, token :: rest =>
    match token.kind with
    | .useWord | .classWord => if depth = 0 then .leave () (token :: rest) else .again depth rest
    | .leftBrace => .again (depth + 1) rest
    | .rightBrace => .again (depth - 1) rest
    | _ => .again depth rest

/-- Skipping a statement is a loop that ends, and it computes what the parser skips. -/
theorem computes_skipStatement :
    Loop.Computes skipStatementLoop fun _ tokens ↦ ((), skipStatement tokens) := by
  apply Loop.Progresses.computes
  · rintro ⟨⟩ (_ | ⟨token, rest⟩)
    · exact List.suffix_rfl
    · rw [skipStatementLoop]
      split_ifs
      · exact List.suffix_rfl
      · exact List.suffix_cons token rest
      · exact Turn.progresses_again List.suffix_rfl token ()
  · rintro ⟨⟩ (_ | ⟨token, rest⟩)
    · rfl
    · simp only [skipStatement, skipStatementLoop]
      split_ifs <;> rfl

/-- Skipping an item is a loop that counts braces and ends. -/
theorem computes_skipItem :
    Loop.Computes skipItemLoop fun depth tokens ↦ ((), skipItem depth tokens) := by
  apply Loop.Progresses.computes
  · rintro depth (_ | ⟨token, rest⟩)
    · exact List.suffix_rfl
    · rw [skipItemLoop]
      split
      case h_1 | h_2 =>
        split_ifs
        · exact List.suffix_rfl
        · exact Turn.progresses_again List.suffix_rfl token depth
      all_goals exact Turn.progresses_again List.suffix_rfl token _
  · rintro depth (_ | ⟨token, rest⟩)
    · rfl
    · cases hkind : token.kind with
      | useWord | classWord =>
        simp only [skipItem, skipItemLoop, hkind]
        split_ifs <;> rfl
      | _ => simp only [skipItem, skipItemLoop, hkind]

theorem suffix_skipStatement (tokens : List Token) : skipStatement tokens <:+ tokens :=
  computes_skipStatement.suffix () tokens

theorem suffix_skipItem (depth : ℕ) (tokens : List Token) : skipItem depth tokens <:+ tokens :=
  computes_skipItem.suffix depth tokens

/-- Behind a statement at fault, skipping goes past its first token. -/
theorem suffix_skipStatement_of_error {token : Token} {rest rest' : List Token} {fault : Fault}
    (hbrace : token.kind ≠ .rightBrace) (h : statement token rest = .error fault rest') :
    skipStatement rest' <:+ rest := by
  obtain hsuffix | herror := suffix_statement token rest
  · rw [left_of_error h] at hsuffix
    exact (suffix_skipStatement rest').trans hsuffix
  · -- the statement took nothing, but its first token is no brace, so that skipping takes it
    obtain ⟨-, rfl⟩ := EStateM.Result.error.inj (h.symm.trans herror)
    rw [skipStatement, if_neg hbrace]
    split_ifs
    · exact List.suffix_rfl
    · exact suffix_skipStatement rest

/-- Skipping to the next item goes past a token that starts none. -/
theorem suffix_skipItem_cons {token : Token} (huse : token.kind ≠ .useWord)
    (hclass : token.kind ≠ .classWord) (depth : ℕ) (rest : List Token) :
    skipItem depth (token :: rest) <:+ rest := by
  unfold skipItem
  split
  case h_1 hkind => exact absurd hkind huse
  case h_2 hkind => exact absurd hkind hclass
  all_goals exact suffix_skipItem _ rest

/-! ## The body of a class -/

/-- One turn of reading the statements of a class. -/
def bodyLoop (stop : Position) :
    Loop (List Statement × List SyntaxError) (List Statement × List SyntaxError)
  | state, [] => .leave state []
  | (statements, errors), token :: rest =>
    if token.kind = .rightBrace then .leave (statements, errors) (token :: rest)
    else match statement token rest with
      | .ok stmt rest' => .again (statements ++ [stmt], errors) rest'
      | .error fault rest' =>
        .again (statements, errors ++ [⟨fault, blame stop rest'⟩]) (skipStatement rest')

/-- Each turn over a body takes a token, also behind a statement that is malformed. -/
theorem progresses_bodyLoop (stop : Position) : Loop.Progresses (bodyLoop stop) := by
  rintro ⟨statements, errors⟩ (_ | ⟨token, rest⟩)
  · exact List.suffix_rfl
  · rw [bodyLoop]
    split_ifs with hbrace
    · exact List.suffix_rfl
    · split
      case h_1 stmt rest' hread =>
        obtain hsuffix | herror := suffix_statement token rest
        · rw [left_of_ok hread] at hsuffix
          exact Turn.progresses_again hsuffix token _
        · cases hread.symm.trans herror
      case h_2 fault rest' hread =>
        have hsuffix := suffix_skipStatement_of_error hbrace hread
        exact Turn.progresses_again hsuffix token _

/-- The loop over a body adds to what it was given just what the parser finds. -/
theorem computes_body (stop : Position) :
    Loop.Computes (bodyLoop stop) fun (statements, errors) tokens ↦
      ((statements ++ (body stop tokens).1, errors ++ (body stop tokens).2.1),
        (body stop tokens).2.2) := by
  apply (progresses_bodyLoop stop).computes
  rintro ⟨statements, errors⟩ (_ | ⟨token, rest⟩)
  · simp [body, bodyLoop]
  · by_cases hbrace : token.kind = .rightBrace
    · simp [body, bodyLoop, hbrace]
    · dsimp only
      rw [body, bodyLoop, if_neg hbrace, if_neg hbrace]
      split
      case h_1 stmt rest' hread => simp [hread]
      case h_2 fault rest' hread => simp [hread]

theorem suffix_body (stop : Position) (tokens : List Token) : (body stop tokens).2.2 <:+ tokens :=
  (computes_body stop).suffix ([], []) tokens

/-- A statement at fault takes a token for its error, since the turn progresses. -/
theorem pays_bodyLoop (stop : Position) :
    Loop.Pays (bodyLoop stop) (·.2.length) (·.2.length) := by
  rintro ⟨statements, errors⟩ tokens
  have hturn := progresses_bodyLoop stop (statements, errors) tokens
  cases tokens with
  | nil => exact Nat.le_refl _
  | cons token rest =>
    rw [bodyLoop] at hturn ⊢
    split_ifs at hturn ⊢ with hbrace
    · exact Nat.le_refl _
    · split at hturn
      case h_1 => exact Nat.add_le_add_left hturn.2.le _
      case h_2 =>
        have hlt := hturn.2
        simp only [Turn.AtMost, List.length_append, List.length_singleton]
        omega

/-- In a body, each error is paid for by a token that was taken. -/
theorem errors_body (stop : Position) (tokens : List Token) :
    (body stop tokens).2.1.length + (body stop tokens).2.2.length ≤ tokens.length := by
  simpa using (computes_body stop).pays (pays_bodyLoop stop) ([], []) tokens

/-! ## Items -/

/-- One turn of reading the items of a script. -/
def itemLoop (stop : Position) :
    Loop (List Item × List SyntaxError) (List Item × List SyntaxError)
  | state, [] => .leave state []
  | (items, errors), token :: rest =>
    let step := item stop token rest
    .again (items ++ step.item.toList, errors ++ step.errors) step.rest

/-- What a step takes from tokens is an initial part of them, in which there is a token for each of
its errors but one. -/
structure Step.Takes (tokens : List Token) (step : Step) : Prop where
  suffix : step.rest <:+ tokens
  errors : step.errors.length + step.rest.length ≤ tokens.length + 1

variable {stop : Position} {tokens rest : List Token} {errors : List SyntaxError}

theorem takes_failed (hrest : rest <:+ tokens)
    (herrors : errors.length + rest.length ≤ tokens.length) (fault : Fault) :
    (failed stop errors fault rest).Takes tokens where
  suffix := (suffix_skipItem 0 rest).trans hrest
  errors := by
    have hskip := length_skipItem 0 rest
    simp only [failed, List.length_append, List.length_singleton]
    omega

theorem takes_failed_nil (hrest : rest <:+ tokens) (fault : Fault) :
    (failed stop [] fault rest).Takes tokens :=
  takes_failed hrest (by simpa using hrest.length_le) fault

/-- A class takes as many tokens as it reports errors, at least. -/
theorem takes_classTail (start : Position) (tokens : List Token) :
    (classTail stop start tokens).Takes tokens := by
  have hhead := exact_classHead.suffix tokens
  unfold classTail
  split
  case h_1 fault rest hread =>
    rw [left_of_error hread] at hhead
    exact takes_failed_nil hhead fault
  case h_2 name base rest hread =>
    rw [left_of_ok hread] at hhead
    have herrors := (errors_body stop rest).trans hhead.length_le
    have hbody := (suffix_body stop rest).trans hhead
    generalize body stop rest = read at herrors hbody ⊢
    obtain ⟨statements, errors, between⟩ := read
    have hbrace := suffix_expect .rightBrace between
    dsimp only at herrors hbody ⊢
    split
    case h_1 fault rest' hexpect =>
      have hrest : rest' <:+ between := left_of_error hexpect ▸ hbrace
      have hle := hrest.length_le
      exact takes_failed (hrest.trans hbody) (by omega) fault
    case h_2 rest' hexpect =>
      have hrest : rest' <:+ between := left_of_ok hexpect ▸ hbrace
      have hle := hrest.length_le
      exact ⟨hrest.trans hbody, by dsimp only; omega⟩

theorem takes_item (token : Token) (rest : List Token) : (item stop token rest).Takes rest := by
  unfold item
  split
  case h_1 =>
    have htail := exact_useTail.suffix rest
    split
    case h_1 fault rest' hread =>
      rw [left_of_error hread] at htail
      exact takes_failed_nil htail fault
    case h_2 module rest' hread =>
      rw [left_of_ok hread] at htail
      refine ⟨htail, ?_⟩
      rw [List.length_nil, zero_add]
      exact htail.length_le.trans (Nat.le_succ _)
  case h_2 => exact takes_classTail token.start rest
  case h_3 huse hclass =>
    have hskip := suffix_skipItem_cons huse hclass 0 rest
    refine ⟨hskip, ?_⟩
    rw [Nat.add_comm]
    exact Nat.add_le_add_right hskip.length_le 1

theorem progresses_itemLoop (stop : Position) : Loop.Progresses (itemLoop stop) := by
  rintro ⟨items, errors⟩ (_ | ⟨token, rest⟩)
  · exact List.suffix_rfl
  · have hsuffix : (item stop token rest).rest <:+ rest := (takes_item token rest).suffix
    exact Turn.progresses_again hsuffix token _

/-- The loop over items adds to what it was given just what the parser finds, and leaves no tokens.
-/
theorem computes_items (stop : Position) :
    Loop.Computes (itemLoop stop) fun (before, errors) tokens ↦
      ((before ++ (items stop tokens).1, errors ++ (items stop tokens).2), []) := by
  apply (progresses_itemLoop stop).computes
  rintro ⟨before, errors⟩ (_ | ⟨token, rest⟩)
  · simp [items, itemLoop]
  · simp [items, itemLoop]

/-- Each error of an item is paid for by a token that was taken. -/
theorem pays_itemLoop (stop : Position) : Loop.Pays (itemLoop stop) (·.2.length) (·.2.length) := by
  rintro ⟨items, errors⟩ (_ | ⟨token, rest⟩)
  · exact Nat.le_refl _
  · have hitem : (item stop token rest).Takes rest := takes_item token rest
    have herrors := hitem.errors
    simp only [itemLoop, Turn.AtMost, List.length_append, List.length_cons]
    omega

/-- The parser always makes progress. In every turn, whatever the tokens and whatever was read
before, each of its loops takes a token or ends. So each loop ends, with what the parser gives; the
one over the items ends behind the last token, and there are at most as many errors as tokens. -/
theorem loops_progress (stop : Position) :
    Loop.Computes skipStatementLoop (fun _ tokens ↦ ((), skipStatement tokens)) ∧
    Loop.Computes skipItemLoop (fun depth tokens ↦ ((), skipItem depth tokens)) ∧
    Loop.Computes (bodyLoop stop) (fun (statements, errors) tokens ↦
      ((statements ++ (body stop tokens).1, errors ++ (body stop tokens).2.1),
        (body stop tokens).2.2)) ∧
    Loop.Computes (itemLoop stop) (fun (before, errors) tokens ↦
      ((before ++ (items stop tokens).1, errors ++ (items stop tokens).2), [])) ∧
    ∀ tokens, (items stop tokens).2.length ≤ tokens.length := by
  refine ⟨computes_skipStatement, computes_skipItem, computes_body stop, computes_items stop, ?_⟩
  intro tokens
  simpa using (computes_items stop).pays (pays_itemLoop stop) ([], []) tokens

end Parser

end PageScript.Script
