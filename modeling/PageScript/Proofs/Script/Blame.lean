import PageScript.Proofs.Outcome
import PageScript.Proofs.Script.Acceptance

/-!
# Where errors stand

A production that fails blames the first token that cannot be right. The tokens in front of it start
some word of the grammar, no word goes on with that token, and some word goes on with what the fault
asks for. The proof follows a production token by token, together with the language of all that is
still to be read.
-/

namespace PageScript.Script

open Computability

/-- What a fault tells: `found` stands where a token of the kind `wanted` could stand. -/
inductive Fault.Tells (found : Option Token.Kind) : Fault → Token.Kind → Prop
  | expected (kind : Token.Kind) : Tells found (.expected kind) kind
  | identifier (name : String) : Tells found .identifierExpected (.identifier name)
  | text (value : String) : Tells found (.textExpected found) (.text value)
  | statement (kind : Statement.Kind) : Tells found (.statementExpected found) kind.word

/-- A fault is right about a language: behind `front`, no word of it has the kind `found` next, and
some word has what the fault tells. -/
structure Blames (language : Language Token.Kind) (fault : Fault) (front : List Token.Kind)
    (found : Option Token.Kind) : Prop where
  wanted : ∃ kind more, fault.Tells found kind ∧ front ++ kind :: more ∈ language
  unfit : ∀ kind ∈ found, ∀ more, front ++ kind :: more ∉ language

/-- An error in tokens that belong to no word of a language: it stands at the token that is
blamed. -/
def Pinpoints (language : Language Token.Kind) (tokens : List Token) (error : SyntaxError) : Prop :=
  ∃ front token back, tokens = front ++ token :: back ∧ error.position = token.start ∧
    Blames language error.fault (front.map Token.kind) (some token.kind)

variable {language larger single : Language Token.Kind}

/-- What is right about a language is right about one in which its words go on behind a token. -/
theorem Blames.cons {fault : Fault} {front : List Token.Kind} {found : Option Token.Kind}
    (h : Blames language fault front found) {first : Token.Kind}
    (hfirst : ∀ kinds, first :: kinds ∈ larger ↔ kinds ∈ language) :
    Blames larger fault (first :: front) found where
  wanted := by
    obtain ⟨kind, more, htells, hmem⟩ := h.wanted
    exact ⟨kind, more, htells, (hfirst _).mpr hmem⟩
  unfit := fun kind hkind more hmem ↦ h.unfit kind hkind more ((hfirst _).mp hmem)

/-! ## Languages token by token -/

namespace Grammar

/-- A language of single tokens. -/
def Single (single : Language Token.Kind) : Prop := ∀ word ∈ single, ∃ kind, word = [kind]

theorem single_token (kind : Token.Kind) : Single (token kind) := fun _ hword ↦ ⟨kind, hword⟩

theorem single_identifier : Single identifier := by
  rintro _ ⟨name, rfl⟩
  exact ⟨_, rfl⟩

theorem single_text : Single text := by
  rintro _ ⟨value, rfl⟩
  exact ⟨_, rfl⟩

/-- Whether a token can come first, and whether the others can follow, are separate questions if the
first symbol of a language is one token. -/
theorem cons_mem_single_mul (h : Single single) {kind : Token.Kind} {kinds : List Token.Kind} :
    kind :: kinds ∈ single * language ↔ [kind] ∈ single ∧ kinds ∈ language := by
  rw [Language.mem_mul]
  constructor
  · rintro ⟨word, hword, rest, hrest, heq⟩
    obtain ⟨first, rfl⟩ := h word hword
    obtain ⟨rfl, rfl⟩ := List.cons.inj heq
    exact ⟨hword, hrest⟩
  · intro ⟨hkind, hkinds⟩
    exact ⟨[kind], hkind, kinds, hkinds, rfl⟩

theorem singleton_mem_token {kind other : Token.Kind} : [kind] ∈ token other ↔ kind = other := by
  rw [mem_token, List.singleton_inj]

theorem cons_mem_token_mul {kind other : Token.Kind} {kinds : List Token.Kind} :
    kind :: kinds ∈ token other * language ↔ kind = other ∧ kinds ∈ language := by
  rw [cons_mem_single_mul (single_token other), singleton_mem_token]

/-- The segments of a name behind its first one. -/
def segments : Language Token.Kind := (token .dot * identifier)∗

/-- Behind a name there is either a dot with another segment or what follows the name. -/
theorem segments_mul_eq :
    segments * language = language + token .dot * (identifier * (segments * language)) := by
  calc
    segments * language = (1 + token .dot * identifier * segments) * language := by
      rw [segments, Language.one_add_self_mul_kstar_eq_kstar]
    _ = language + token .dot * (identifier * (segments * language)) := by
      rw [add_mul, one_mul, mul_assoc, mul_assoc]

theorem mem_segments_mul {kinds : List Token.Kind} (h : kinds ∈ language) :
    kinds ∈ segments * language := by
  rw [segments_mul_eq, Language.mem_add]
  exact .inl h

/-- A dot behind a name always goes on with the name. -/
theorem cons_mem_segments_mul {kind : Token.Kind} {kinds : List Token.Kind} :
    kind :: kinds ∈ segments * language ↔ kind :: kinds ∈ language ∨
      kind = .dot ∧ kinds ∈ identifier * (segments * language) := by
  rw [segments_mul_eq, Language.mem_add, cons_mem_token_mul, ← segments_mul_eq]

/-- What has to stand between the word `class` and the body: a name, a colon and a base. -/
def header : Language Token.Kind := identifier * token .colon * name

/-- What has to stand behind the first word of a statement. -/
def operands : Token.Kind → Language Token.Kind
  | .writeWord => text * token .semicolon
  | .letWord => identifier * (token .equal * (token .newWord * (name * token .semicolon)))
  | .setWord => identifier *
      (token .dot * (identifier * (token .equal * (text * token .semicolon))))
  | .renderWord => identifier * token .semicolon
  | .includeWord => identifier * token .semicolon
  | _ => 0

/-- The keyword of a statement decides what operands it takes. -/
theorem cons_mem_statement {word : Token.Kind} {kinds : List Token.Kind} :
    word :: kinds ∈ statement ↔ kinds ∈ operands word := by
  simp only [statement, mul_assoc, Language.mem_add, cons_mem_token_mul]
  cases word <;> simp [operands]

end Grammar

/-! ## Productions -/

namespace Production

open Grammar
open Outcome (bind_of_ok bind_of_error)

variable {α β : Type} {p : Production α} {f : α → Production β}

/-- On some tokens, a production reads a word of a language, or blames what is wrong with them. -/
structure ExactAt (language : Language Token.Kind) (p : Production α) (tokens : List Token) :
    Prop where
  reads : ∀ value rest, p tokens = .ok value rest →
    ∃ front, tokens = front ++ rest ∧ front.map Token.kind ∈ language
  blames : ∀ fault rest, p tokens = .error fault rest → ∃ front, tokens = front ++ rest ∧
    Blames language fault (front.map Token.kind) (rest.head?.map Token.kind)

/-- A production that reads words of a language, wherever it is used. -/
structure Exact (language : Language Token.Kind) (p : Production α) : Prop where
  inhabited : ∃ word, word ∈ language
  exactAt : ∀ tokens, ExactAt language p tokens

/-- A production that takes one token, or takes none and tells which it wants. -/
structure TakesOne (single : Language Token.Kind) (p : Production α) : Prop where
  isSingle : Single single
  wanted : ∃ kind, [kind] ∈ single
  reads : ∀ tokens, (∃ token rest value, tokens = token :: rest ∧ [token.kind] ∈ single ∧
      p tokens = .ok value rest) ∨
    ∃ fault, p tokens = .error fault tokens ∧
      (∀ kind, [kind] ∈ single → fault.Tells (tokens.head?.map Token.kind) kind) ∧
      ∀ token ∈ tokens.head?, [token.kind] ∉ single

theorem takesOne_expect (kind : Token.Kind) : TakesOne (token kind) (expect kind) where
  isSingle := single_token kind
  wanted := ⟨kind, rfl⟩
  reads := by
    intro tokens
    have htells (found : Option Token.Kind) (other : Token.Kind) (hother : [other] ∈ token kind) :
        Fault.Tells found (.expected kind) other := by
      rw [singleton_mem_token.mp hother]
      exact .expected kind
    cases tokens with
    | nil => exact .inr ⟨_, rfl, htells _, by simp⟩
    | cons first rest =>
      by_cases hkind : first.kind = kind
      · exact .inl ⟨first, rest, (), rfl, singleton_mem_token.mpr hkind, if_pos hkind⟩
      · refine .inr ⟨_, if_neg hkind, htells _, ?_⟩
        simpa [singleton_mem_token] using hkind

/-- An identifier takes one token, and any other token is to blame. -/
theorem takesOne_identifier : TakesOne Grammar.identifier identifier where
  isSingle := single_identifier
  wanted := ⟨.identifier "", "", rfl⟩
  reads := by
    intro tokens
    have htells (found : Option Token.Kind) (other : Token.Kind)
        (hother : [other] ∈ Grammar.identifier) : Fault.Tells found .identifierExpected other := by
      obtain ⟨name, hname⟩ := hother
      rw [← List.singleton_inj.mp hname]
      exact .identifier name
    cases tokens with
    | nil => exact .inr ⟨_, rfl, htells _, by simp⟩
    | cons first rest =>
      rcases first with ⟨kind, start⟩
      cases kind with
      | identifier name => exact .inl ⟨_, rest, name, rfl, ⟨name, rfl⟩, rfl⟩
      | _ => exact .inr ⟨_, rfl, htells _, by simp [mem_identifier]⟩

theorem takesOne_text : TakesOne Grammar.text text where
  isSingle := single_text
  wanted := ⟨.text "", "", rfl⟩
  reads := by
    intro tokens
    have htells (found : Option Token.Kind) (other : Token.Kind)
        (hother : [other] ∈ Grammar.text) : Fault.Tells found (.textExpected found) other := by
      obtain ⟨value, hvalue⟩ := hother
      rw [← List.singleton_inj.mp hvalue]
      exact .text value
    cases tokens with
    | nil => exact .inr ⟨_, rfl, htells _, by simp⟩
    | cons first rest =>
      rcases first with ⟨kind, start⟩
      cases kind with
      | text value => exact .inl ⟨_, rest, value, rfl, ⟨value, rfl⟩, rfl⟩
      | _ => exact .inr ⟨_, rfl, htells _, by simp [mem_text]⟩

theorem exact_pure (value : α) : Exact 1 (pure value : Production α) where
  inhabited := ⟨[], rfl⟩
  exactAt := fun tokens ↦ by
    refine ⟨fun _ rest h ↦ ?_, fun _ _ h ↦ by cases h⟩
    obtain ⟨_, rfl⟩ := pure_eq_ok.mp h
    exact ⟨[], rfl, rfl⟩

/-- A production that looks ahead is exact if it is so for whatever it may see. -/
theorem exact_get {f : List Token → Production β} (h : ∀ tokens, Exact language (f tokens)) :
    Exact language (get >>= f) where
  inhabited := (h []).inhabited
  exactAt := fun tokens ↦
    ⟨((h tokens).exactAt tokens).reads, ((h tokens).exactAt tokens).blames⟩

/-- A token that a production skips without a look may be put in front of it. -/
theorem ExactAt.cons {kind : Token.Kind} {start : Position} {tokens : List Token}
    (h : ExactAt language p tokens) {q : Production α}
    (heq : q (⟨kind, start⟩ :: tokens) = p tokens)
    (hmem : ∀ kinds, kind :: kinds ∈ larger ↔ kinds ∈ language) :
    ExactAt larger q (⟨kind, start⟩ :: tokens) where
  reads := by
    intro value rest hq
    obtain ⟨front, rfl, hfront⟩ := h.reads value rest (heq ▸ hq)
    exact ⟨⟨kind, start⟩ :: front, rfl, (hmem _).mpr hfront⟩
  blames := by
    intro fault rest hq
    obtain ⟨front, rfl, hblames⟩ := h.blames fault rest (heq ▸ hq)
    exact ⟨⟨kind, start⟩ :: front, rfl, hblames.cons hmem⟩

/-- Behind one token that is taken, blame falls on what the rest of the production blames. -/
theorem TakesOne.exactAt (h : TakesOne single p) (hlanguage : ∃ word, word ∈ language)
    {tokens : List Token}
    (hnext : ∀ value rest, p tokens = .ok value rest → ExactAt language (f value) rest) :
    ExactAt (single * language) (p >>= f) tokens := by
  obtain ⟨⟨kind, start⟩, others, value, rfl, hkind, hp⟩ | ⟨refused, hp, htells, hunfit⟩ :=
    h.reads tokens
  · apply (hnext value others hp).cons (bind_of_ok hp)
    intro kinds
    rw [cons_mem_single_mul h.isSingle, and_iff_right hkind]
  · refine ⟨fun value rest hok ↦ ?_, fun fault rest hfault ↦ ?_⟩
    · rw [bind_of_error hp] at hok
      cases hok
    · rw [bind_of_error hp] at hfault
      cases hfault
      obtain ⟨kind, hkind⟩ := h.wanted
      obtain ⟨word, hword⟩ := hlanguage
      refine ⟨[], rfl, ⟨kind, word, htells kind hkind, ?_⟩, ?_⟩
      · exact (cons_mem_single_mul h.isSingle).mpr ⟨hkind, hword⟩
      · intro found hfound more hmore
        obtain ⟨token, htoken, rfl⟩ := Option.map_eq_some_iff.mp hfound
        exact hunfit token htoken ((cons_mem_single_mul h.isSingle).mp hmore).1

theorem TakesOne.exists_value (h : TakesOne single p) : Nonempty α := by
  obtain ⟨kind, hkind⟩ := h.wanted
  obtain ⟨_, _, value, _⟩ | ⟨_, _, _, hunfit⟩ := h.reads [⟨kind, .start⟩]
  · exact ⟨value⟩
  · exact absurd hkind (hunfit _ rfl)

/-- Productions that take one token first are exact if what comes behind is exact. -/
theorem TakesOne.exact (h : TakesOne single p) (hnext : ∀ value, Exact language (f value)) :
    Exact (single * language) (p >>= f) := by
  obtain ⟨kind, hkind⟩ := h.wanted
  obtain ⟨value⟩ := h.exists_value
  obtain ⟨word, hword⟩ := (hnext value).inhabited
  refine ⟨⟨_, Language.append_mem_mul hkind hword⟩, fun tokens ↦ ?_⟩
  exact h.exactAt ⟨word, hword⟩ fun value rest _ ↦ (hnext value).exactAt rest

/-! ## Names -/

/-- Where no further segment follows, the rest of the word does. -/
theorem blames_of_ended {fault : Fault} {front rest : List Token} (hended : Ended (front ++ rest))
    (h : Blames language fault (front.map Token.kind) (rest.head?.map Token.kind)) :
    Blames (segments * language) fault (front.map Token.kind) (rest.head?.map Token.kind) where
  wanted := by
    obtain ⟨kind, more, htells, hmem⟩ := h.wanted
    exact ⟨kind, more, htells, mem_segments_mul hmem⟩
  unfit := by
    intro kind hkind more hmem
    obtain ⟨token, htoken, rfl⟩ := Option.map_eq_some_iff.mp hkind
    have hunfit := h.unfit token.kind hkind more
    cases front with
    | nil =>
      have hdot : token.kind ≠ .dot := hended token htoken
      exact hunfit (by simpa [hdot] using cons_mem_segments_mul.mp hmem)
    | cons first others =>
      have hdot : first.kind ≠ .dot := hended first rfl
      exact hunfit (by simpa [hdot] using cons_mem_segments_mul.mp hmem)

/-- Behind a dot, a segment and further ones are read. -/
theorem bind_moreSegments_dot (f : List String → Production β) (start : Position)
    (rest : List Token) :
    (moreSegments >>= f) (⟨.dot, start⟩ :: rest) =
      (identifier >>= fun name ↦ moreSegments >>= fun names ↦ f (name :: names)) rest := by
  cases rest with
  | nil => rfl
  | cons next others =>
    rcases next with ⟨kind, atNext⟩
    cases kind with
    | identifier name =>
      have hname : identifier (⟨.identifier name, atNext⟩ :: others) = .ok name others := rfl
      rw [bind_of_ok hname]
      cases h : moreSegments others with
      | ok names rest =>
        rw [bind_of_ok h]
        apply bind_of_ok
        simp only [moreSegments, if_true, h]
      | error fault rest =>
        rw [bind_of_error h]
        apply bind_of_error
        simp only [moreSegments, if_true, h]
    | _ => rfl

/-- The segments of a name are taken greedily, which is right because nothing behind a name starts
with a dot. -/
theorem exactAt_moreSegments {f : List String → Production β}
    (hnext : ∀ names, Exact language (f names)) (hdot : ∀ kinds, .dot :: kinds ∉ language)
    (tokens : List Token) : ExactAt (segments * language) (moreSegments >>= f) tokens := by
  induction hlength : tokens.length using Nat.strong_induction_on generalizing f tokens with
  | _ length ih =>
  by_cases hended : Ended tokens
  · have hstop : (moreSegments >>= f) tokens = f [] tokens :=
      bind_of_ok (moreSegments_of_ended hended)
    refine ⟨fun value rest hok ↦ ?_, fun fault rest hfault ↦ ?_⟩
    · obtain ⟨front, rfl, hfront⟩ := ((hnext []).exactAt tokens).reads value rest (hstop ▸ hok)
      exact ⟨front, rfl, mem_segments_mul hfront⟩
    · obtain ⟨front, rfl, hblames⟩ :=
        ((hnext []).exactAt tokens).blames fault rest (hstop ▸ hfault)
      exact ⟨front, rfl, blames_of_ended hended hblames⟩
  · simp only [Ended, Option.mem_def, List.head?_eq_some_iff, not_forall, not_not] at hended
    obtain ⟨⟨_, start⟩, ⟨others, rfl⟩, rfl⟩ := hended
    obtain ⟨word, hword⟩ := (hnext []).inhabited
    have hothers : ExactAt (Grammar.identifier * (segments * language))
        (identifier >>= fun name ↦ moreSegments >>= fun names ↦ f (name :: names)) others := by
      apply takesOne_identifier.exactAt ⟨word, mem_segments_mul hword⟩
      intro name rest htaken
      obtain ⟨_, rfl⟩ := identifier_eq_ok.mp htaken
      have hlt : rest.length < length := by
        simp only [← hlength, List.length_cons]
        omega
      exact ih rest.length hlt (fun names ↦ hnext (name :: names)) rest rfl
    apply hothers.cons (bind_moreSegments_dot f start others)
    intro kinds
    rw [cons_mem_segments_mul, or_iff_right (hdot kinds), and_iff_right rfl]

/-- A name ends at the first token that is no dot. -/
theorem exact_qualifiedName {f : QualifiedName → Production β}
    (hnext : ∀ name, Exact language (f name)) (hdot : ∀ kinds, .dot :: kinds ∉ language) :
    Exact (name * language) (qualifiedName >>= f) := by
  have hmore (tokens : List Token) (first : String) :
      Exact (segments * language) (moreSegments >>= fun more ↦ f ⟨first, more, startOf tokens⟩) :=
    ⟨(hnext ⟨first, [], .start⟩).inhabited.imp fun _ ↦ mem_segments_mul,
      exactAt_moreSegments (fun more ↦ hnext ⟨first, more, startOf tokens⟩) hdot⟩
  have hname : name * language = Grammar.identifier * (segments * language) := mul_assoc _ _ _
  simp only [qualifiedName, bind_assoc, pure_bind, hname]
  exact exact_get fun tokens ↦ takesOne_identifier.exact (hmore tokens)

/-! ## Statements and heads of classes -/

theorem exact_expect_pure (kind : Token.Kind) (value : α) :
    Exact (token kind) (expect kind >>= fun _ ↦ pure value) := by
  rw [← mul_one (token kind)]
  exact (takesOne_expect kind).exact fun _ ↦ exact_pure value

theorem exact_classHead : Exact (header * token .leftBrace) classHead := by
  simp only [header, mul_assoc]
  apply takesOne_identifier.exact
  intro first
  apply (takesOne_expect .colon).exact
  intro _
  apply exact_qualifiedName
  · intro base
    exact exact_expect_pure .leftBrace (first, base)
  · intro kinds hmem
    cases hmem

/-- Once the keyword is taken, a statement is read as far as its operands go. -/
theorem exact_finish {word : Token.Kind} {tail : Production Statement.Kind}
    (h : tail? word = some tail) (start : Position) :
    Exact (operands word) (finish start tail) := by
  have hlast (kind : Statement.Kind) :
      Exact (token .semicolon) (expect .semicolon >>= fun _ ↦ pure (⟨kind, start⟩ : Statement)) :=
    exact_expect_pure .semicolon _
  unfold tail? at h
  split at h <;> cases h
  case h_1 =>
    simp only [finish, writeTail, bind_assoc, pure_bind]
    exact takesOne_text.exact fun text ↦ hlast (.write text)
  case h_2 =>
    simp only [finish, letTail, bind_assoc, pure_bind]
    apply takesOne_identifier.exact
    intro name
    apply (takesOne_expect .equal).exact
    intro _
    apply (takesOne_expect .newWord).exact
    intro _
    apply exact_qualifiedName
    · intro type
      exact hlast (.create name type)
    · intro kinds hmem
      cases hmem
  case h_3 =>
    simp only [finish, setTail, bind_assoc, pure_bind]
    apply takesOne_identifier.exact
    intro target
    apply (takesOne_expect .dot).exact
    intro _
    apply takesOne_identifier.exact
    intro property
    apply (takesOne_expect .equal).exact
    intro _
    exact takesOne_text.exact fun value ↦ hlast (.assign target property value)
  case h_4 =>
    simp only [finish, renderTail, bind_assoc, pure_bind]
    exact takesOne_identifier.exact fun name ↦ hlast (.render name)
  case h_5 =>
    simp only [finish, includeTail, bind_assoc, pure_bind]
    exact takesOne_identifier.exact fun className ↦ hlast (.embed className)

/-- Reading a statement from its first token on, as a production. -/
def statementFrom : Production Statement
  | [] => .error (.statementExpected none) []
  | token :: rest => statement token rest

/-- A statement that is read is spelled by the tokens that were taken. -/
theorem statementFrom_eq_ok {tokens rest : List Token} {stmt : Statement} :
    statementFrom tokens = .ok stmt rest ↔
      ∃ front, Spells stmt.marks front ∧ tokens = front ++ rest := by
  cases tokens with
  | nil => simp [statementFrom, Statement.marks]
  | cons token tokens => exact statement_eq_ok

theorem exact_statementFrom : Exact Grammar.statement statementFrom := by
  have hwrite : [.writeWord, .text "", .semicolon] ∈ Grammar.statement :=
    mem_statement.mpr ⟨⟨.write "", .start⟩, rfl⟩
  refine ⟨⟨_, hwrite⟩, fun tokens ↦ ?_⟩
  cases tokens with
  | nil =>
    refine ⟨fun _ _ h ↦ (by cases h), fun fault rest h ↦ ?_⟩
    cases h
    exact ⟨[], rfl, ⟨.writeWord, _, .statement (.write ""), hwrite⟩, by simp⟩
  | cons token tokens =>
    cases htail : tail? token.kind with
    | some tail =>
      apply ((exact_finish htail token.start).exactAt tokens).cons
      · simp only [statementFrom, statement, htail]
      · intro kinds
        rw [cons_mem_statement]
    | none =>
      have hread : statementFrom (token :: tokens) =
          .error (.statementExpected (some token.kind)) (token :: tokens) := by
        simp only [statementFrom, statement, htail]
      refine ⟨fun _ _ h ↦ (by cases hread.symm.trans h), fun fault rest h ↦ ?_⟩
      cases hread.symm.trans h
      refine ⟨[], rfl, ⟨.writeWord, _, .statement (.write ""), hwrite⟩, ?_⟩
      intro kind hkind more hmem
      obtain rfl : token.kind = kind := Option.some.inj hkind
      obtain ⟨stmt, hstmt⟩ := mem_statement.mp hmem
      obtain ⟨tail, hsome⟩ := exists_tail stmt.kind
      rw [show stmt.kind.word = token.kind from (List.cons.inj hstmt).1, htail] at hsome
      contradiction

end Production

end PageScript.Script
