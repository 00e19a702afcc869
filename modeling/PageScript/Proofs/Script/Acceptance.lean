import PageScript.Proofs.Script.Grammar
import PageScript.Script.Parser

/-!
# What the parser accepts

The parser finds no error in a token list exactly if the list belongs to the grammar, and then gives
the one list of trees that spells it. Each production takes exactly the tokens of the tree it gives,
so the claim is carried from productions to statements, bodies, items and whole scripts. Recovery
plays no part: whoever skips a token has recorded an error before.
-/

namespace PageScript.Script

open Mark

namespace Production

variable {α β : Type}

theorem bind_eq_ok {p : Production α} {f : α → Production β} {tokens rest : List Token}
    {result : β} :
    (p >>= f) tokens = .ok result rest ↔
      ∃ value middle, p tokens = .ok value middle ∧ f value middle = .ok result rest := by
  change EStateM.bind p f tokens = _ ↔ _
  unfold EStateM.bind
  cases p tokens with
  | ok value middle => simp
  | error fault middle => simp

theorem pure_eq_ok {value result : α} {tokens rest : List Token} :
    (pure value : Production α) tokens = .ok result rest ↔ value = result ∧ tokens = rest := by
  change EStateM.Result.ok value tokens = _ ↔ _
  simp

theorem get_eq_ok {tokens rest found : List Token} :
    (get : Production (List Token)) tokens = .ok found rest ↔ tokens = found ∧ tokens = rest := by
  change EStateM.Result.ok tokens tokens = _ ↔ _
  simp

theorem expect_eq_ok {kind : Token.Kind} {tokens rest : List Token} {value : Unit} :
    expect kind tokens = .ok value rest ↔ ∃ start, tokens = ⟨kind, start⟩ :: rest := by
  cases tokens with
  | nil => simp [expect]
  | cons token others =>
    rcases token with ⟨found, start⟩
    by_cases hkind : found = kind <;> simp [expect, hkind]

theorem identifier_eq_ok {tokens rest : List Token} {name : String} :
    identifier tokens = .ok name rest ↔ ∃ start, tokens = ⟨.identifier name, start⟩ :: rest := by
  cases tokens with
  | nil => simp [identifier]
  | cons token others =>
    rcases token with ⟨found, start⟩
    cases found <;> simp [identifier]

theorem text_eq_ok {tokens rest : List Token} {value : String} :
    text tokens = .ok value rest ↔ ∃ start, tokens = ⟨.text value, start⟩ :: rest := by
  cases tokens with
  | nil => simp [text]
  | cons token others =>
    rcases token with ⟨found, start⟩
    cases found <;> simp [text]

/-- No further segment of a name follows. -/
def Ended (rest : List Token) : Prop := ∀ token ∈ rest.head?, token.kind ≠ .dot

theorem moreSegments_of_ended {rest : List Token} (h : Ended rest) :
    moreSegments rest = .ok [] rest := by
  match rest with
  | [] => rfl
  | [token] => rw [moreSegments, if_neg (h token rfl)]
  | token :: next :: others => rw [moreSegments, if_neg (h token rfl)]

theorem moreSegments_eq_ok {tokens rest : List Token} {names : List String} :
    moreSegments tokens = .ok names rest ↔
      (∃ front, Spells (names.flatMap fun segment ↦ [free .dot, free (.identifier segment)]) front ∧
        tokens = front ++ rest) ∧ Ended rest := by
  constructor
  · intro h
    fun_induction moreSegments tokens generalizing names with
    | case1 =>
      cases h
      exact ⟨⟨[], by simp⟩, by simp [Ended]⟩
    | case2 token hdot => cases h
    | case3 token hdot =>
      cases h
      exact ⟨⟨[], by simp⟩, by simpa [Ended] using hdot⟩
    | case4 token next others hdot name hname more rest' hmore ih =>
      cases h
      obtain ⟨⟨front, hfront, rfl⟩, hended⟩ := ih hmore
      refine ⟨⟨token :: next :: front, ?_, rfl⟩, hended⟩
      rcases token with ⟨_, start⟩
      rcases next with ⟨_, start'⟩
      cases hdot
      cases hname
      simpa using hfront
    | case5 token next others hdot name hname fault rest' hmore ih => cases h
    | case6 token next others hdot hname => cases h
    | case7 token next others hdot =>
      cases h
      exact ⟨⟨[], by simp⟩, by simpa [Ended] using hdot⟩
  · rintro ⟨⟨front, hfront, rfl⟩, hended⟩
    induction names generalizing front with
    | nil =>
      rw [List.flatMap_nil, spells_nil] at hfront
      subst hfront
      exact moreSegments_of_ended hended
    | cons name names ih =>
      simp only [List.flatMap_cons, List.cons_append, List.nil_append, spells_free_cons] at hfront
      obtain ⟨start, _, ⟨start', front, hfront, rfl⟩, rfl⟩ := hfront
      rw [List.cons_append, List.cons_append, moreSegments, if_pos rfl, ih front hfront]

theorem qualifiedName_eq_ok {tokens rest : List Token} {name : QualifiedName} :
    qualifiedName tokens = .ok name rest ↔
      (∃ front, Spells name.marks front ∧ tokens = front ++ rest) ∧ Ended rest := by
  unfold qualifiedName
  simp only [bind_eq_ok, get_eq_ok, identifier_eq_ok, moreSegments_eq_ok, pure_eq_ok]
  constructor
  · rintro ⟨_, _, ⟨rfl, rfl⟩, first, _, ⟨start, rfl⟩, more, _, ⟨⟨front, hfront, rfl⟩, hended⟩,
      rfl, rfl⟩
    refine ⟨⟨⟨.identifier first, start⟩ :: front, ?_, rfl⟩, hended⟩
    exact spells_placed_cons.mpr ⟨front, hfront, rfl⟩
  · rintro ⟨⟨front, hfront, rfl⟩, hended⟩
    rw [QualifiedName.marks, spells_placed_cons] at hfront
    obtain ⟨front, hfront, rfl⟩ := hfront
    exact ⟨_, _, ⟨rfl, rfl⟩, name.first, front ++ rest, ⟨name.start, rfl⟩, name.more, rest,
      ⟨⟨front, hfront, rfl⟩, hended⟩, rfl, rfl⟩

/-- A name in front of another token than a dot takes exactly its own tokens. -/
theorem qualifiedName_eq_ok_cons {tokens rest : List Token} {name : QualifiedName} {token : Token}
    (htoken : token.kind ≠ .dot) :
    qualifiedName tokens = .ok name (token :: rest) ↔
      ∃ front, Spells name.marks front ∧ tokens = front ++ token :: rest := by
  rw [qualifiedName_eq_ok, and_iff_left]
  intro other hother
  rwa [← Option.some.inj hother]

theorem useTail_eq_ok {tokens rest : List Token} {module : QualifiedName} :
    useTail tokens = .ok module rest ↔
      ∃ front, Spells (module.marks ++ [free .semicolon]) front ∧ tokens = front ++ rest := by
  unfold useTail
  simp only [bind_eq_ok, expect_eq_ok, pure_eq_ok, spells_append_free_cons, spells_nil]
  constructor
  · rintro ⟨_, _, hname, _, _, ⟨start, rfl⟩, rfl, rfl⟩
    rw [qualifiedName_eq_ok_cons (by simp)] at hname
    obtain ⟨front, hfront, rfl⟩ := hname
    exact ⟨_, ⟨front, start, [], hfront, rfl, rfl⟩, by simp⟩
  · rintro ⟨_, ⟨front, start, _, hfront, rfl, rfl⟩, rfl⟩
    refine ⟨module, _, ?_, (), rest, ⟨start, rfl⟩, rfl, rfl⟩
    rw [qualifiedName_eq_ok_cons (by simp)]
    exact ⟨front, hfront, by simp⟩

/-- What a class has in front of its body, from behind its first word on. -/
theorem classHead_eq_ok {tokens rest : List Token} {name : String} {base : QualifiedName} :
    classHead tokens = .ok (name, base) rest ↔
      ∃ front, Spells (free (.identifier name) :: free .colon :: (base.marks ++ [free .leftBrace]))
        front ∧ tokens = front ++ rest := by
  unfold classHead
  simp only [bind_eq_ok, identifier_eq_ok, expect_eq_ok, pure_eq_ok, spells_free_cons,
    spells_append_free_cons, spells_nil, Prod.mk.injEq]
  constructor
  · rintro ⟨_, _, ⟨start, rfl⟩, _, _, ⟨start', rfl⟩, _, _, hbase, _, _, ⟨start'', rfl⟩,
      ⟨rfl, rfl⟩, rfl⟩
    rw [qualifiedName_eq_ok_cons (by simp)] at hbase
    obtain ⟨front, hfront, rfl⟩ := hbase
    exact ⟨_, ⟨start, _, ⟨start', _, ⟨front, start'', [], hfront, rfl, rfl⟩, rfl⟩, rfl⟩, by simp⟩
  · rintro ⟨_, ⟨start, _, ⟨start', _, ⟨front, start'', _, hfront, rfl, rfl⟩, rfl⟩, rfl⟩, rfl⟩
    refine ⟨name, _, ⟨start, rfl⟩, (), _, ⟨start', rfl⟩, base, _, ?_, (), rest, ⟨start'', rfl⟩,
      ⟨rfl, rfl⟩, rfl⟩
    rw [qualifiedName_eq_ok_cons (by simp)]
    exact ⟨front, hfront, by simp⟩

/-! ## Statements -/

theorem letTail_eq_ok {tokens rest : List Token} {kind : Statement.Kind} {start : Position} :
    letTail tokens = .ok kind (⟨.semicolon, start⟩ :: rest) ↔
      kind.word = .letWord ∧
        ∃ front, Spells kind.operands front ∧ tokens = front ++ ⟨.semicolon, start⟩ :: rest := by
  unfold letTail
  simp only [bind_eq_ok, identifier_eq_ok, expect_eq_ok, pure_eq_ok]
  constructor
  · rintro ⟨name, _, ⟨atName, rfl⟩, _, _, ⟨atEqual, rfl⟩, _, _, ⟨atNew, rfl⟩, type, _, htype, rfl,
      rfl⟩
    rw [qualifiedName_eq_ok_cons (by simp)] at htype
    obtain ⟨front, hfront, rfl⟩ := htype
    refine ⟨rfl, ⟨.identifier name, atName⟩ :: ⟨.equal, atEqual⟩ :: ⟨.newWord, atNew⟩ :: front, ?_,
      rfl⟩
    simpa [Statement.Kind.operands] using hfront
  · rintro ⟨hword, front, hfront, rfl⟩
    cases kind with
    | create name type =>
      simp only [Statement.Kind.operands, spells_free_cons] at hfront
      obtain ⟨atName, _, ⟨atEqual, _, ⟨atNew, front, hfront, rfl⟩, rfl⟩, rfl⟩ := hfront
      refine ⟨name, _, ⟨atName, rfl⟩, (), _, ⟨atEqual, rfl⟩, (), _, ⟨atNew, rfl⟩, type, _, ?_, rfl,
        rfl⟩
      exact (qualifiedName_eq_ok_cons (by simp)).mpr ⟨front, hfront, rfl⟩
    | write | assign | render | embed => cases hword

theorem setTail_eq_ok {tokens rest : List Token} {kind : Statement.Kind} :
    setTail tokens = .ok kind rest ↔
      kind.word = .setWord ∧ ∃ front, Spells kind.operands front ∧ tokens = front ++ rest := by
  unfold setTail
  simp only [bind_eq_ok, identifier_eq_ok, expect_eq_ok, text_eq_ok, pure_eq_ok]
  constructor
  · rintro ⟨target, _, ⟨atTarget, rfl⟩, _, _, ⟨atDot, rfl⟩, property, _, ⟨atProperty, rfl⟩, _, _,
      ⟨atEqual, rfl⟩, value, _, ⟨atValue, rfl⟩, rfl, rfl⟩
    exact ⟨rfl, [⟨.identifier target, atTarget⟩, ⟨.dot, atDot⟩, ⟨.identifier property, atProperty⟩,
      ⟨.equal, atEqual⟩, ⟨.text value, atValue⟩], by simp [Statement.Kind.operands], rfl⟩
  · rintro ⟨hword, front, hfront, rfl⟩
    cases kind with
    | assign target property value =>
      simp only [Statement.Kind.operands, spells_free_cons, spells_nil] at hfront
      obtain ⟨atTarget, _, ⟨atDot, _, ⟨atProperty, _, ⟨atEqual, _, ⟨atValue, _, rfl, rfl⟩, rfl⟩,
        rfl⟩, rfl⟩, rfl⟩ := hfront
      exact ⟨target, _, ⟨atTarget, rfl⟩, (), _, ⟨atDot, rfl⟩, property, _, ⟨atProperty, rfl⟩, (), _,
        ⟨atEqual, rfl⟩, value, _, ⟨atValue, rfl⟩, rfl, rfl⟩
    | write | create | render | embed => cases hword

/-- In front of a semicolon, the first word of a statement decides which operands are taken. -/
theorem tail_eq_ok {word : Token.Kind} {tail : Production Statement.Kind}
    (h : tail? word = some tail) {tokens rest : List Token} {kind : Statement.Kind}
    {start : Position} :
    tail tokens = .ok kind (⟨.semicolon, start⟩ :: rest) ↔
      kind.word = word ∧
        ∃ front, Spells kind.operands front ∧ tokens = front ++ ⟨.semicolon, start⟩ :: rest := by
  unfold tail? at h
  split at h <;> cases h
  case h_1 =>
    simp only [writeTail, bind_eq_ok, text_eq_ok, pure_eq_ok]
    cases kind <;> simp [Statement.Kind.word, Statement.Kind.operands]
  case h_2 => exact letTail_eq_ok
  case h_3 => exact setTail_eq_ok
  case h_4 =>
    simp only [renderTail, bind_eq_ok, identifier_eq_ok, pure_eq_ok]
    cases kind <;> simp [Statement.Kind.word, Statement.Kind.operands]
  case h_5 =>
    simp only [includeTail, bind_eq_ok, identifier_eq_ok, pure_eq_ok]
    cases kind <;> simp [Statement.Kind.word, Statement.Kind.operands]

theorem exists_tail (kind : Statement.Kind) : ∃ tail, tail? kind.word = some tail := by
  cases kind <;> exact ⟨_, rfl⟩

theorem finish_eq_ok {word : Token.Kind} {tail : Production Statement.Kind}
    (h : tail? word = some tail) {tokens rest : List Token} {stmt : Statement} {start : Position} :
    finish start tail tokens = .ok stmt rest ↔
      stmt.kind.word = word ∧ stmt.start = start ∧
        ∃ front, Spells (stmt.kind.operands ++ [free .semicolon]) front ∧
          tokens = front ++ rest := by
  unfold finish
  simp only [bind_eq_ok, expect_eq_ok, pure_eq_ok, spells_append_free_cons, spells_nil]
  constructor
  · rintro ⟨kind, _, hkind, _, _, ⟨atEnd, rfl⟩, rfl, rfl⟩
    obtain ⟨hword, front, hfront, rfl⟩ := (tail_eq_ok h).mp hkind
    exact ⟨hword, rfl, _, ⟨front, atEnd, [], hfront, rfl, rfl⟩, by simp⟩
  · rintro ⟨hword, rfl, _, ⟨front, atEnd, _, hfront, rfl, rfl⟩, rfl⟩
    refine ⟨stmt.kind, _, (tail_eq_ok h).mpr ⟨hword, front, hfront, ?_⟩, (), rest, ⟨atEnd, rfl⟩,
      rfl, rfl⟩
    simp

theorem statement_eq_ok {token : Token} {tokens rest : List Token} {stmt : Statement} :
    statement token tokens = .ok stmt rest ↔
      ∃ front, Spells stmt.marks front ∧ token :: tokens = front ++ rest := by
  simp only [Statement.marks, spells_placed_cons]
  constructor
  · intro h
    unfold statement at h
    split at h
    case h_1 tail htail =>
      obtain ⟨hword, hstart, front, hfront, rfl⟩ := (finish_eq_ok htail).mp h
      refine ⟨token :: front, ⟨front, hfront, ?_⟩, rfl⟩
      rw [hword, hstart]
    case h_2 => cases h
  · rintro ⟨_, ⟨front, hfront, rfl⟩, htokens⟩
    obtain ⟨rfl, rfl⟩ := List.cons.inj htokens
    obtain ⟨tail, htail⟩ := exists_tail stmt.kind
    simp only [statement, htail]
    exact (finish_eq_ok htail).mpr ⟨rfl, rfl, front, hfront, rfl⟩

end Production

/-! ## Bodies, items and scripts -/

namespace Parser

open Production

variable {stop : Position}

theorem word_ne_rightBrace (kind : Statement.Kind) : kind.word ≠ .rightBrace := by
  cases kind <;> simp [Statement.Kind.word]

/-- A well-formed statement is taken off the front of a body. -/
theorem body_append {stmt : Statement} {front : List Token} (h : Spells stmt.marks front)
    (rest : List Token) :
    body stop (front ++ rest) = Prod.map (stmt :: ·) id (body stop rest) := by
  obtain ⟨others, _, rfl⟩ := spells_placed_cons.mp h
  have hstmt : statement ⟨stmt.kind.word, stmt.start⟩ (others ++ rest) = .ok stmt rest :=
    statement_eq_ok.mpr ⟨_, h, rfl⟩
  rw [List.cons_append, body, if_neg (word_ne_rightBrace _)]
  split
  · next found rest' hfound =>
    obtain ⟨rfl, rfl⟩ := EStateM.Result.ok.inj (hstmt.symm.trans hfound)
    rfl
  · next fault rest' hfault =>
    rw [hstmt] at hfault
    cases hfault

/-- A body without errors is taken up to a closing brace or the end of the tokens. -/
theorem body_eq {tokens remaining : List Token} {statements : List Statement} :
    body stop tokens = (statements, [], remaining) ↔
      (∃ front, Spells (statements.flatMap Statement.marks) front ∧ tokens = front ++ remaining) ∧
        ∀ token ∈ remaining.head?, token.kind = .rightBrace := by
  constructor
  · intro h
    fun_induction body stop tokens generalizing statements with
    | case1 =>
      cases h
      exact ⟨⟨[], by simp⟩, by simp⟩
    | case2 token rest hbrace =>
      cases h
      exact ⟨⟨[], by simp⟩, by simpa using hbrace⟩
    | case3 token rest hbrace stmt rest' hstmt others errors remaining' hothers ih =>
      cases h
      obtain ⟨⟨back, hback, rfl⟩, hend⟩ := ih hothers
      obtain ⟨front, hfront, htokens⟩ := statement_eq_ok.mp hstmt
      refine ⟨⟨front ++ back, List.rel_append hfront hback, ?_⟩, hend⟩
      rw [htokens, List.append_assoc]
    | case4 =>
      -- the fault of the statement is in the list of errors
      cases h
  · rintro ⟨⟨front, hfront, rfl⟩, hend⟩
    induction statements generalizing front with
    | nil =>
      obtain rfl := spells_nil.mp hfront
      cases remaining with
      | nil => rw [List.nil_append, body]
      | cons token rest => rw [List.nil_append, body, if_pos (hend token rfl)]
    | cons stmt others ih =>
      rw [List.flatMap_cons, spells_append] at hfront
      obtain ⟨first, back, hfirst, hback, rfl⟩ := hfront
      rw [List.append_assoc, body_append hfirst, ih back hback]
      rfl

/-- An item that fails has an error. -/
theorem failed_ne {errors : List SyntaxError} {fault : Fault} {rest rest' : List Token}
    {found : Option Item} : failed stop errors fault rest ≠ ⟨found, [], rest'⟩ := by
  simp [failed]

/-- A class is its first word, its head and its body with the closing brace. -/
theorem spells_class {declaration : ClassDeclaration} {tokens : List Token} :
    Spells declaration.marks tokens ↔ ∃ head inner atEnd,
      Spells (free (.identifier declaration.name) :: free .colon ::
        (declaration.base.marks ++ [free .leftBrace])) head ∧
      Spells (declaration.body.flatMap Statement.marks) inner ∧
      tokens = ⟨.classWord, declaration.start⟩ :: (head ++ (inner ++ [⟨.rightBrace, atEnd⟩])) := by
  have hmarks : declaration.marks = placed .classWord declaration.start ::
      ((free (.identifier declaration.name) :: free .colon ::
        (declaration.base.marks ++ [free .leftBrace])) ++
      (declaration.body.flatMap Statement.marks ++ [free .rightBrace])) := by
    simp [ClassDeclaration.marks]
  rw [hmarks]
  constructor
  · intro h
    obtain ⟨_, hothers, rfl⟩ := spells_placed_cons.mp h
    obtain ⟨head, back, hhead, hback, rfl⟩ := spells_append.mp hothers
    obtain ⟨inner, atEnd, _, hinner, hnil, rfl⟩ := spells_append_free_cons.mp hback
    exact ⟨head, inner, atEnd, hhead, hinner, by rw [spells_nil.mp hnil]⟩
  · rintro ⟨head, inner, atEnd, hhead, hinner, rfl⟩
    refine spells_placed_cons.mpr ⟨_, spells_append.mpr ⟨head, _, hhead, ?_, rfl⟩, rfl⟩
    exact spells_append_free_cons.mpr ⟨inner, atEnd, [], hinner, spells_nil.mpr rfl, rfl⟩

theorem classTail_eq {start : Position} {tokens rest : List Token} {found : Option Item} :
    classTail stop start tokens = ⟨found, [], rest⟩ ↔
      ∃ declaration front, found = some (.declares declaration) ∧
        Spells declaration.marks front ∧ ⟨.classWord, start⟩ :: tokens = front ++ rest := by
  constructor
  · intro h
    unfold classTail at h
    split at h
    case h_1 => exact (failed_ne h).elim
    case h_2 name base inner hhead =>
      obtain ⟨statements, errors, remaining, hbody⟩ :
          ∃ statements errors remaining, body stop inner = (statements, errors, remaining) :=
        ⟨_, _, _, rfl⟩
      simp only [hbody] at h
      split at h
      case h_1 => exact (failed_ne h).elim
      case h_2 rest' hexpect =>
        cases h
        obtain ⟨head, hspells, rfl⟩ := classHead_eq_ok.mp hhead
        obtain ⟨⟨front, hfront, rfl⟩, _⟩ := body_eq.mp hbody
        obtain ⟨atEnd, rfl⟩ := expect_eq_ok.mp hexpect
        exact ⟨⟨name, base, statements, start⟩, _, rfl,
          spells_class.mpr ⟨head, front, atEnd, hspells, hfront, rfl⟩, by simp⟩
  · rintro ⟨declaration, _, rfl, hspells, htokens⟩
    obtain ⟨head, inner, atEnd, hhead, hinner, rfl⟩ := spells_class.mp hspells
    obtain ⟨hstart, rfl⟩ := List.cons.inj htokens
    have hbody : body stop (inner ++ ⟨.rightBrace, atEnd⟩ :: rest) =
        (declaration.body, [], ⟨.rightBrace, atEnd⟩ :: rest) :=
      body_eq.mpr ⟨⟨inner, hinner, rfl⟩, by simp⟩
    have hclass : classHead (head ++ (inner ++ ⟨.rightBrace, atEnd⟩ :: rest)) =
        .ok (declaration.name, declaration.base) (inner ++ ⟨.rightBrace, atEnd⟩ :: rest) :=
      classHead_eq_ok.mpr ⟨head, hhead, rfl⟩
    obtain rfl : start = declaration.start := congrArg Token.start hstart
    simp only [List.append_eq, List.append_assoc, List.singleton_append, classTail, hclass, hbody,
      expect, if_true]

theorem item_eq {token : Token} {tokens rest : List Token} {found : Option Item} :
    item stop token tokens = ⟨found, [], rest⟩ ↔
      ∃ it front, found = some it ∧ Spells it.marks front ∧ token :: tokens = front ++ rest := by
  rcases token with ⟨kind, start⟩
  constructor
  · intro h
    unfold item at h
    split at h
    case h_1 hkind =>
      split at h
      case h_1 => exact (failed_ne h).elim
      case h_2 module rest' htail =>
        cases h
        obtain ⟨front, hfront, rfl⟩ := useTail_eq_ok.mp htail
        refine ⟨.uses module, ⟨kind, start⟩ :: front, rfl, ?_, rfl⟩
        exact spells_free_cons.mpr ⟨start, front, hfront, by rw [← hkind]⟩
    case h_2 hkind =>
      obtain ⟨declaration, front, hfound, hfront, htokens⟩ := classTail_eq.mp h
      refine ⟨.declares declaration, front, hfound, hfront, ?_⟩
      rw [← htokens, ← hkind]
    case h_3 => exact (failed_ne h).elim
  · rintro ⟨it, front, rfl, hfront, htokens⟩
    cases it with
    | uses module =>
      obtain ⟨start, others, hothers, rfl⟩ := spells_free_cons.mp hfront
      obtain ⟨htoken, rfl⟩ := List.cons.inj htokens
      rw [htoken]
      have htail : useTail (others ++ rest) = .ok module rest :=
        useTail_eq_ok.mpr ⟨others, hothers, rfl⟩
      simp only [item, List.append_eq, htail]
    | declares declaration =>
      obtain ⟨others, hothers, rfl⟩ := spells_placed_cons.mp hfront
      cases htokens
      exact classTail_eq.mpr ⟨declaration, _, rfl, hfront, rfl⟩

theorem exists_cons {it : Item} {tokens : List Token} (h : Spells it.marks tokens) :
    ∃ token rest, tokens = token :: rest := by
  cases it with
  | uses module =>
    obtain ⟨start, rest, _, rfl⟩ := spells_free_cons.mp h
    exact ⟨_, rest, rfl⟩
  | declares declaration =>
    obtain ⟨rest, _, rfl⟩ := spells_placed_cons.mp h
    exact ⟨_, rest, rfl⟩

/-- The parser gives trees without an error exactly if they spell its tokens. -/
theorem items_eq_iff {tokens : List Token} {found : List Item} :
    items stop tokens = (found, []) ↔ Spells (marks found) tokens := by
  constructor
  · intro h
    fun_induction items stop tokens generalizing found with
    | case1 =>
      cases h
      exact spells_nil.mpr rfl
    | case2 token rest step more errors hmore =>
      rename_i ih
      -- no errors at all, so none in the first item, which is therefore there
      obtain ⟨rfl, herrors⟩ := Prod.mk.inj h
      obtain ⟨hstep, rfl⟩ := List.append_eq_nil_iff.mp herrors
      have hitem : item stop token rest = ⟨step.item, [], step.rest⟩ := by rw [← hstep]
      obtain ⟨it, front, hsome, hfront, htokens⟩ := item_eq.mp hitem
      rw [hsome, htokens]
      exact List.rel_append hfront (ih hmore)
  · intro h
    induction found generalizing tokens with
    | nil =>
      obtain rfl := spells_nil.mp h
      rw [items]
    | cons it others ih =>
      obtain ⟨front, back, hfront, hback, rfl⟩ := spells_append.mp h
      -- the first token decides how the item is read, so it has to be laid open
      obtain ⟨token, tokens, rfl⟩ := exists_cons hfront
      have hitem : item stop token (tokens ++ back) = ⟨some it, [], back⟩ :=
        item_eq.mpr ⟨it, _, rfl, hfront, rfl⟩
      rw [List.cons_append, items, hitem, ih hback]
      rfl

/-- The trees of a token list are found in only one way. -/
theorem eq_of_spells {tokens : List Token} {first second : List Item}
    (hfirst : Spells (marks first) tokens) (hsecond : Spells (marks second) tokens) :
    first = second := by
  have h : items .start tokens = (first, []) := items_eq_iff.mpr hfirst
  rw [items_eq_iff.mpr hsecond] at h
  exact (Prod.mk.inj h).1.symm

/-- Derivations of one token list are the same up to positions. -/
theorem unplaced_eq_of_spells {tokens : List Token} {found others : List Item}
    (hfound : Spells (marks found) tokens)
    (hothers : (marks others).map Mark.kind = tokens.map Token.kind) :
    others.map Item.unplaced = found.map Item.unplaced := by
  obtain ⟨placed, hplaced, hsame⟩ := placeable_marks others tokens hothers.symm
  rw [← hsame, eq_of_spells hplaced hfound]

/-- The parser accepts exactly the grammar, and what it gives is the derivation of its input: the
items spell the tokens back, with the positions of the tokens they start at, and no others do. -/
theorem items_accepts_exactly_grammar (stop : Position) (tokens : List Token) :
    ((items stop tokens).2 = [] ↔ tokens.map Token.kind ∈ Grammar.unit) ∧
    ((items stop tokens).2 = [] →
      Spells (marks (items stop tokens).1) tokens ∧
      (∀ others, Spells (marks others) tokens → others = (items stop tokens).1) ∧
      ∀ others, (marks others).map Mark.kind = tokens.map Token.kind →
        others.map Item.unplaced = (items stop tokens).1.map Item.unplaced) := by
  have hspells (herrors : (items stop tokens).2 = []) :
      Spells (marks (items stop tokens).1) tokens :=
    items_eq_iff.mp (Prod.ext rfl herrors)
  refine ⟨⟨fun herrors ↦ ?_, fun hunit ↦ ?_⟩, fun herrors ↦ ⟨hspells herrors, ?_, ?_⟩⟩
  · exact Grammar.mem_unit.mpr ⟨_, (hspells herrors).map_kind.symm⟩
  · obtain ⟨derived, hderived⟩ := Grammar.mem_unit.mp hunit
    obtain ⟨placed, hplaced, _⟩ := placeable_marks derived tokens hderived.symm
    rw [items_eq_iff.mpr hplaced]
  · intro others hothers
    exact eq_of_spells hothers (hspells herrors)
  · intro others hothers
    exact unplaced_eq_of_spells (hspells herrors) hothers

/-- `use ui; class Home : ui.Page { let l = new Link; }`, on two lines. -/
def homeTokens : List Token :=
  [⟨.useWord, ⟨1, 1⟩⟩, ⟨.identifier "ui", ⟨1, 5⟩⟩, ⟨.semicolon, ⟨1, 7⟩⟩,
    ⟨.classWord, ⟨2, 1⟩⟩, ⟨.identifier "Home", ⟨2, 7⟩⟩, ⟨.colon, ⟨2, 12⟩⟩,
    ⟨.identifier "ui", ⟨2, 14⟩⟩, ⟨.dot, ⟨2, 16⟩⟩, ⟨.identifier "Page", ⟨2, 17⟩⟩,
    ⟨.leftBrace, ⟨2, 22⟩⟩, ⟨.letWord, ⟨2, 24⟩⟩, ⟨.identifier "l", ⟨2, 28⟩⟩, ⟨.equal, ⟨2, 30⟩⟩,
    ⟨.newWord, ⟨2, 32⟩⟩, ⟨.identifier "Link", ⟨2, 36⟩⟩, ⟨.semicolon, ⟨2, 40⟩⟩,
    ⟨.rightBrace, ⟨2, 42⟩⟩]

def homeItems : List Item :=
  [.uses ⟨"ui", [], ⟨1, 5⟩⟩,
    .declares ⟨"Home", ⟨"ui", ["Page"], ⟨2, 14⟩⟩, [⟨.create "l" ⟨"Link", [], ⟨2, 36⟩⟩, ⟨2, 24⟩⟩],
      ⟨2, 1⟩⟩]

theorem items_homeTokens : items ⟨3, 1⟩ homeTokens = (homeItems, []) := by
  have hspells : Spells (marks homeItems) homeTokens := by
    simp [homeItems, homeTokens, marks, Item.marks, ClassDeclaration.marks, QualifiedName.marks,
      Statement.marks, Statement.Kind.word, Statement.Kind.operands]
  have haccepts := items_accepts_exactly_grammar ⟨3, 1⟩ homeTokens
  have herrors := haccepts.1.mpr (Grammar.mem_unit.mpr ⟨homeItems, hspells.map_kind.symm⟩)
  exact Prod.ext ((haccepts.2 herrors).2.1 homeItems hspells).symm herrors

end Parser

end PageScript.Script
