import Mathlib.Computability.Language
import Mathlib.Data.List.Forall2
import PageScript.Script.Tree

/-!
# The grammar of scripts

Which token lists are scripts is said twice. The grammar is a regular expression over the kinds of
tokens. Syntax trees are its derivations: a tree spells out the tokens it stands for, together with
the positions of those whose place it keeps. A list belongs to the grammar exactly if some trees
spell it, and the trees can then be placed so that every position is that of the token it belongs
to.
-/

namespace PageScript.Script

/-! ## The grammar -/

namespace Grammar

open Computability

def token (kind : Token.Kind) : Language Token.Kind := {[kind]}

def identifier : Language Token.Kind := Set.range fun name ↦ [.identifier name]

def text : Language Token.Kind := Set.range fun value ↦ [.text value]

def name : Language Token.Kind := identifier * (token .dot * identifier)∗

def statement : Language Token.Kind :=
  token .writeWord * text * token .semicolon +
  token .letWord * identifier * token .equal * token .newWord * name * token .semicolon +
  token .setWord * identifier * token .dot * identifier * token .equal * text * token .semicolon +
  token .renderWord * identifier * token .semicolon +
  token .includeWord * identifier * token .semicolon

def item : Language Token.Kind :=
  token .useWord * name * token .semicolon +
  token .classWord * identifier * token .colon * name * token .leftBrace * statement∗ *
    token .rightBrace

/-- The scripts, without the mark for the end of the file. -/
def unit : Language Token.Kind := item∗

end Grammar

/-! ## Trees as derivations -/

/-- A token as a tree knows it: its kind, and its position if the tree keeps it. -/
structure Mark where
  kind : Token.Kind
  start : Option Position
  deriving DecidableEq, Repr, Inhabited

namespace Mark

def free (kind : Token.Kind) : Mark := ⟨kind, none⟩

def placed (kind : Token.Kind) (start : Position) : Mark := ⟨kind, some start⟩

/-- A token is of the kind of a mark, and stands where the mark says. -/
def Fits (mark : Mark) (token : Token) : Prop :=
  token.kind = mark.kind ∧ ∀ start ∈ mark.start, token.start = start

end Mark

open Mark

def QualifiedName.marks (name : QualifiedName) : List Mark :=
  placed (.identifier name.first) name.start ::
    name.more.flatMap fun segment ↦ [free .dot, free (.identifier segment)]

/-- The word that a statement starts with. -/
def Statement.Kind.word : Statement.Kind → Token.Kind
  | .write _ => .writeWord
  | .create _ _ => .letWord
  | .assign _ _ _ => .setWord
  | .render _ => .renderWord
  | .embed _ => .includeWord

/-- The tokens between the first word of a statement and its semicolon. -/
def Statement.Kind.operands : Statement.Kind → List Mark
  | .write text => [free (.text text)]
  | .create name type => free (.identifier name) :: free .equal :: free .newWord :: type.marks
  | .assign target property value =>
    [free (.identifier target), free .dot, free (.identifier property), free .equal,
      free (.text value)]
  | .render name => [free (.identifier name)]
  | .embed className => [free (.identifier className)]

def Statement.marks (stmt : Statement) : List Mark :=
  placed stmt.kind.word stmt.start :: (stmt.kind.operands ++ [free .semicolon])

def ClassDeclaration.marks (declaration : ClassDeclaration) : List Mark :=
  placed .classWord declaration.start :: free (.identifier declaration.name) :: free .colon ::
    (declaration.base.marks ++ free .leftBrace ::
      (declaration.body.flatMap Statement.marks ++ [free .rightBrace]))

def Item.marks : Item → List Mark
  | .uses module => free .useWord :: (module.marks ++ [free .semicolon])
  | .declares declaration => declaration.marks

/-- The tokens that items stand for, with the positions of classes, names and statements at their
first tokens. -/
def marks (items : List Item) : List Mark := items.flatMap Item.marks

/-- Tokens are those that some marks ask for. -/
def Spells (marks : List Mark) (tokens : List Token) : Prop := List.Forall₂ Mark.Fits marks tokens

/-! ## Spelling -/

@[simp] theorem Mark.kind_free (kind : Token.Kind) : (free kind).kind = kind := rfl

@[simp] theorem Mark.start_free (kind : Token.Kind) : (free kind).start = none := rfl

@[simp] theorem Mark.kind_placed (kind : Token.Kind) (start : Position) :
    (placed kind start).kind = kind := rfl

/-- A mark without a place asks for the kind of a token and not for where it stands. -/
@[simp] theorem Mark.fits_free {kind : Token.Kind} {token : Token} :
    (free kind).Fits token ↔ token.kind = kind := by
  simp [free, Fits]

/-- A mark with a place is fitted by one token only. -/
@[simp] theorem Mark.fits_placed {kind : Token.Kind} {start : Position} {token : Token} :
    (placed kind start).Fits token ↔ token = ⟨kind, start⟩ := by
  cases token
  simp [placed, Fits]

@[simp] theorem spells_nil {tokens : List Token} : Spells [] tokens ↔ tokens = [] :=
  List.forall₂_nil_left_iff

/-- The first token may stand anywhere if the tree does not say where. -/
@[simp] theorem spells_free_cons {kind : Token.Kind} {rest : List Mark} {tokens : List Token} :
    Spells (free kind :: rest) tokens ↔
      ∃ start others, Spells rest others ∧ tokens = ⟨kind, start⟩ :: others := by
  unfold Spells
  rw [List.forall₂_cons_left_iff]
  constructor
  · rintro ⟨⟨_, start⟩, others, ⟨rfl, _⟩, hothers, rfl⟩
    exact ⟨start, others, hothers, rfl⟩
  · rintro ⟨start, others, hothers, rfl⟩
    exact ⟨_, others, by simp, hothers, rfl⟩

/-- The first token stands where the tree says. -/
@[simp] theorem spells_placed_cons {kind : Token.Kind} {start : Position} {rest : List Mark}
    {tokens : List Token} :
    Spells (placed kind start :: rest) tokens ↔
      ∃ others, Spells rest others ∧ tokens = ⟨kind, start⟩ :: others := by
  unfold Spells
  rw [List.forall₂_cons_left_iff]
  constructor
  · rintro ⟨token, others, htoken, hothers, rfl⟩
    rw [fits_placed] at htoken
    exact ⟨others, hothers, by rw [htoken]⟩
  · rintro ⟨others, hothers, rfl⟩
    exact ⟨_, others, by simp, hothers, rfl⟩

/-- Tokens of two parts of a tree are cut between the parts, in one way at least. -/
theorem spells_append {first second : List Mark} {tokens : List Token} :
    Spells (first ++ second) tokens ↔
      ∃ front back, Spells first front ∧ Spells second back ∧ tokens = front ++ back := by
  constructor
  · intro h
    refine ⟨tokens.take first.length, tokens.drop first.length, ?_, ?_,
      (List.take_append_drop _ _).symm⟩
    · exact List.forall₂_take_append tokens first second h.flip |>.flip
    · exact List.forall₂_drop_append tokens first second h.flip |>.flip
  · rintro ⟨front, back, hfirst, hsecond, rfl⟩
    exact List.rel_append hfirst hsecond

/-- A separator between two parts of a tree is a token of its own. -/
theorem spells_append_free_cons {kind : Token.Kind} {first second : List Mark}
    {tokens : List Token} :
    Spells (first ++ free kind :: second) tokens ↔ ∃ front start back,
      Spells first front ∧ Spells second back ∧ tokens = front ++ ⟨kind, start⟩ :: back := by
  simp only [spells_append, spells_free_cons]
  constructor
  · rintro ⟨front, _, hfront, ⟨start, back, hback, rfl⟩, rfl⟩
    exact ⟨front, start, back, hfront, hback, rfl⟩
  · rintro ⟨front, start, back, hfront, hback, rfl⟩
    exact ⟨front, _, hfront, ⟨start, back, hback, rfl⟩, rfl⟩

/-- Places apart, a tree leaves no choice of tokens. -/
theorem Spells.map_kind {marks : List Mark} {tokens : List Token} (h : Spells marks tokens) :
    tokens.map Token.kind = marks.map Mark.kind := by
  induction h with
  | nil => rfl
  | cons first _ ih => rw [List.map_cons, List.map_cons, first.1, ih]

/-! ## Trees spell exactly the grammar -/

namespace Grammar

open Computability

theorem mem_token {kind : Token.Kind} {kinds : List Token.Kind} :
    kinds ∈ token kind ↔ kinds = [kind] := Iff.rfl

theorem mem_identifier {kinds : List Token.Kind} :
    kinds ∈ identifier ↔ ∃ name, [.identifier name] = kinds := Iff.rfl

theorem mem_text {kinds : List Token.Kind} : kinds ∈ text ↔ ∃ value, [.text value] = kinds :=
  Iff.rfl

/-- If a language holds the spellings of some values, its closure holds those of their lists. -/
theorem mem_kstar_iff_flatMap {α : Type} {language : Language Token.Kind}
    {spelling : α → List Token.Kind}
    (h : ∀ {kinds}, kinds ∈ language ↔ ∃ value, spelling value = kinds)
    {kinds : List Token.Kind} :
    kinds ∈ language∗ ↔ ∃ values : List α, values.flatMap spelling = kinds := by
  rw [Language.mem_kstar]
  constructor
  · rintro ⟨pieces, rfl, hpieces⟩
    induction pieces with
    | nil => exact ⟨[], rfl⟩
    | cons piece rest ih =>
      rw [List.forall_mem_cons] at hpieces
      obtain ⟨value, rfl⟩ := h.mp hpieces.1
      obtain ⟨values, hvalues⟩ := ih hpieces.2
      exact ⟨value :: values, by rw [List.flatten_cons, ← hvalues, List.flatMap_cons]⟩
  · rintro ⟨values, rfl⟩
    refine ⟨values.map spelling, List.flatMap_def, fun piece hpiece ↦ ?_⟩
    obtain ⟨value, _, rfl⟩ := List.mem_map.mp hpiece
    exact h.mpr ⟨value, rfl⟩

/-- The kinds of tokens that make up a name are those of some tree of a name. -/
theorem mem_name {kinds : List Token.Kind} :
    kinds ∈ name ↔ ∃ name : QualifiedName, name.marks.map Mark.kind = kinds := by
  have hsegment : ∀ {kinds}, kinds ∈ token .dot * identifier ↔
      ∃ segment, [.dot, .identifier segment] = kinds := by
    simp [Language.mem_mul, mem_token, mem_identifier]
  simp only [name, Language.mem_mul, mem_identifier, mem_kstar_iff_flatMap hsegment,
    exists_exists_eq_and]
  constructor
  · rintro ⟨first, more, rfl⟩
    exact ⟨⟨first, more, .start⟩, by simp [QualifiedName.marks, List.map_flatMap]⟩
  · rintro ⟨name, rfl⟩
    exact ⟨name.first, name.more, by simp [QualifiedName.marks, List.map_flatMap]⟩

/-- The kinds of tokens that make up a statement are those of some tree of a statement. -/
theorem mem_statement {kinds : List Token.Kind} :
    kinds ∈ statement ↔ ∃ stmt : Statement, stmt.marks.map Mark.kind = kinds := by
  simp only [statement, Language.mem_add, Language.mem_mul, mem_token, mem_identifier, mem_text,
    mem_name, exists_exists_eq_and, exists_eq_left, exists_exists_exists_and_eq]
  constructor
  · rintro ((((⟨text, rfl⟩ | ⟨name, type, rfl⟩) | ⟨_, ⟨target, property, value, rfl⟩, rfl⟩) |
      ⟨name, rfl⟩) | ⟨name, rfl⟩)
    · exact ⟨⟨.write text, .start⟩, rfl⟩
    · exact ⟨⟨.create name type, .start⟩, by
        simp [Statement.marks, Statement.Kind.word, Statement.Kind.operands]⟩
    · exact ⟨⟨.assign target property value, .start⟩, rfl⟩
    · exact ⟨⟨.render name, .start⟩, rfl⟩
    · exact ⟨⟨.embed name, .start⟩, rfl⟩
  · rintro ⟨⟨kind, start⟩, rfl⟩
    cases kind with
    | write text => exact .inl (.inl (.inl (.inl ⟨text, rfl⟩)))
    | create name type =>
      exact .inl (.inl (.inl (.inr ⟨name, type, by
        simp [Statement.marks, Statement.Kind.word, Statement.Kind.operands]⟩)))
    | assign target property value =>
      exact .inl (.inl (.inr ⟨_, ⟨target, property, value, rfl⟩, rfl⟩))
    | render name => exact .inl (.inr ⟨name, rfl⟩)
    | embed name => exact .inr ⟨name, rfl⟩

/-- The kinds of tokens that make up an item are those of some tree of an item. -/
theorem mem_item {kinds : List Token.Kind} :
    kinds ∈ item ↔ ∃ item : Item, item.marks.map Mark.kind = kinds := by
  simp only [item, Language.mem_add, Language.mem_mul, mem_token, mem_identifier, mem_name,
    mem_kstar_iff_flatMap mem_statement, exists_exists_eq_and, exists_eq_left,
    exists_exists_exists_and_eq]
  constructor
  · rintro (⟨module, rfl⟩ | ⟨_, ⟨name, base, body, rfl⟩, rfl⟩)
    · exact ⟨.uses module, by simp [Item.marks]⟩
    · exact ⟨.declares ⟨name, base, body, .start⟩, by
        simp [Item.marks, ClassDeclaration.marks, List.map_flatMap]⟩
  · rintro ⟨item, rfl⟩
    cases item with
    | uses module => exact .inl ⟨module, by simp [Item.marks]⟩
    | declares declaration =>
      exact .inr ⟨_, ⟨declaration.name, declaration.base, declaration.body, rfl⟩, by
        simp [Item.marks, ClassDeclaration.marks, List.map_flatMap]⟩

/-- The grammar holds the spellings of trees and no others. -/
theorem mem_unit {kinds : List Token.Kind} :
    kinds ∈ unit ↔ ∃ items : List Item, (marks items).map Mark.kind = kinds := by
  simp only [unit, mem_kstar_iff_flatMap mem_item, marks, List.map_flatMap]

end Grammar

/-! ## Placing trees -/

/-- Trees without their positions. -/
def QualifiedName.unplaced (name : QualifiedName) : QualifiedName := { name with start := .start }

def Statement.Kind.unplaced : Statement.Kind → Statement.Kind
  | .create name type => .create name type.unplaced
  | kind => kind

def Statement.unplaced (stmt : Statement) : Statement := ⟨stmt.kind.unplaced, .start⟩

def ClassDeclaration.unplaced (declaration : ClassDeclaration) : ClassDeclaration where
  name := declaration.name
  base := declaration.base.unplaced
  body := declaration.body.map Statement.unplaced
  start := .start

def Item.unplaced : Item → Item
  | .uses module => .uses module.unplaced
  | .declares declaration => .declares declaration.unplaced

/-- Tokens of the right kinds are spelled by a tree that differs in its positions only. -/
def Placeable {α : Type} (spelling : α → List Mark) (unplaced : α → α) : Prop :=
  ∀ (value : α) (tokens : List Token),
    tokens.map Token.kind = (spelling value).map Mark.kind →
      ∃ placed, Spells (spelling placed) tokens ∧ unplaced placed = unplaced value

/-- Where no mark has a place, the kinds of tokens are all that counts. -/
theorem spells_of_map_kind {marks : List Mark} {tokens : List Token}
    (hfree : ∀ mark ∈ marks, mark.start = none)
    (h : tokens.map Token.kind = marks.map Mark.kind) : Spells marks tokens := by
  induction marks generalizing tokens with
  | nil => simpa using h
  | cons mark rest ih =>
    rw [List.forall_mem_cons] at hfree
    obtain ⟨token, others, rfl, hkind, hothers⟩ := List.map_eq_cons_iff.mp h
    refine .cons ⟨hkind, ?_⟩ (ih hfree.2 hothers)
    simp [hfree.1]

theorem placeable_name : Placeable QualifiedName.marks QualifiedName.unplaced := by
  intro name tokens h
  obtain ⟨token, others, rfl, hkind, hothers⟩ := List.map_eq_cons_iff.mp h
  have hfree : ∀ mark ∈ name.more.flatMap fun segment ↦ [free .dot, free (.identifier segment)],
      mark.start = none := by
    intro mark hmark
    obtain ⟨segment, _, hsegment⟩ := List.mem_flatMap.mp hmark
    rcases List.mem_pair.mp hsegment with rfl | rfl <;> rfl
  have hmore := spells_of_map_kind hfree hothers
  exact ⟨{ name with start := token.start }, .cons ⟨hkind, by simp [placed]⟩ hmore, rfl⟩

/-- If each tree of a list can be put where its tokens stand, so can the whole list. -/
theorem Placeable.flatMap {α : Type} {spelling : α → List Mark} {unplaced : α → α}
    (h : Placeable spelling unplaced) :
    Placeable (List.flatMap spelling) (List.map unplaced) := by
  intro values
  induction values with
  | nil =>
    intro tokens htokens
    exact ⟨[], by simpa using htokens, rfl⟩
  | cons value rest ih =>
    intro tokens htokens
    rw [List.flatMap_cons, List.map_append] at htokens
    obtain ⟨front, back, rfl, hfront, hback⟩ := List.map_eq_append_iff.mp htokens
    obtain ⟨first, hfirst, hsame⟩ := h value front hfront
    obtain ⟨others, hothers, hsameOthers⟩ := ih back hback
    refine ⟨first :: others, List.rel_append hfirst hothers, ?_⟩
    rw [List.map_cons, List.map_cons, hsame, hsameOthers]

/-- Operands of a statement can be put where their tokens stand, and stay operands of the same
keyword. -/
theorem exists_operands {kind : Statement.Kind} {tokens : List Token}
    (h : tokens.map Token.kind = kind.operands.map Mark.kind) :
    ∃ placed : Statement.Kind, Spells placed.operands tokens ∧ placed.word = kind.word ∧
      placed.unplaced = kind.unplaced := by
  cases kind with
  | create name type =>
    have hsplit : tokens.map Token.kind =
        [.identifier name, .equal, .newWord] ++ type.marks.map Mark.kind := h
    obtain ⟨front, back, rfl, hfront, hback⟩ := List.map_eq_append_iff.mp hsplit
    obtain ⟨placed, hplaced, hsame⟩ := placeable_name type back hback
    have hfree : Spells [free (.identifier name), free .equal, free .newWord] front :=
      spells_of_map_kind (by simp) hfront
    refine ⟨.create name placed, List.rel_append hfree hplaced, rfl, ?_⟩
    rw [Statement.Kind.unplaced, Statement.Kind.unplaced, hsame]
  | _ => exact ⟨_, spells_of_map_kind (by simp [Statement.Kind.operands]) h, rfl, rfl⟩

theorem placeable_statement : Placeable Statement.marks Statement.unplaced := by
  intro stmt tokens h
  obtain ⟨token, others, rfl, hkind, hothers⟩ := List.map_eq_cons_iff.mp h
  rw [List.map_append] at hothers
  obtain ⟨front, back, rfl, hfront, hback⟩ := List.map_eq_append_iff.mp hothers
  obtain ⟨kind, hoperands, hword, hsame⟩ := exists_operands hfront
  have hsemicolon := spells_of_map_kind (by simp) hback
  refine ⟨⟨kind, token.start⟩, .cons ⟨?_, by simp [placed]⟩
    (List.rel_append hoperands hsemicolon), ?_⟩
  · rw [kind_placed, hword]
    exact hkind
  · rw [Statement.unplaced, Statement.unplaced, hsame]

theorem placeable_class : Placeable ClassDeclaration.marks ClassDeclaration.unplaced := by
  intro declaration tokens h
  obtain ⟨token, others, rfl, hkind, hothers⟩ := List.map_eq_cons_iff.mp h
  have hsplit : others.map Token.kind = [.identifier declaration.name, .colon] ++
      (declaration.base.marks.map Mark.kind ++ ([.leftBrace] ++
        ((declaration.body.flatMap Statement.marks).map Mark.kind ++ [.rightBrace]))) := by
    rw [hothers]
    simp
  obtain ⟨head, rest, rfl, hhead, hrest⟩ := List.map_eq_append_iff.mp hsplit
  obtain ⟨base, rest, rfl, hbase, hrest⟩ := List.map_eq_append_iff.mp hrest
  obtain ⟨brace, rest, rfl, hbrace, hrest⟩ := List.map_eq_append_iff.mp hrest
  obtain ⟨body, last, rfl, hbody, hlast⟩ := List.map_eq_append_iff.mp hrest
  obtain ⟨placedBase, hplacedBase, hsameBase⟩ := placeable_name declaration.base base hbase
  obtain ⟨placedBody, hplacedBody, hsameBody⟩ :=
    placeable_statement.flatMap declaration.body body hbody
  have hplacedHead : Spells [free (.identifier declaration.name), free .colon] head :=
    spells_of_map_kind (by simp) hhead
  have hplacedBrace : Spells [free .leftBrace] brace := spells_of_map_kind (by simp) hbrace
  have hplacedLast : Spells [free .rightBrace] last := spells_of_map_kind (by simp) hlast
  refine ⟨⟨declaration.name, placedBase, placedBody, token.start⟩,
    .cons ⟨hkind, by simp [placed]⟩ ?_, ?_⟩
  · exact List.rel_append hplacedHead (List.rel_append hplacedBase
      (List.rel_append hplacedBrace (List.rel_append hplacedBody hplacedLast)))
  · simp only [ClassDeclaration.unplaced, hsameBase, hsameBody]

theorem placeable_item : Placeable Item.marks Item.unplaced := by
  intro item tokens h
  cases item with
  | uses module =>
    have hsplit : tokens.map Token.kind =
        [.useWord] ++ (module.marks.map Mark.kind ++ [.semicolon]) := by
      rw [h]
      simp [Item.marks]
    obtain ⟨word, rest, rfl, hword, hrest⟩ := List.map_eq_append_iff.mp hsplit
    obtain ⟨name, last, rfl, hname, hlast⟩ := List.map_eq_append_iff.mp hrest
    obtain ⟨placed, hplaced, hsame⟩ := placeable_name module name hname
    have hplacedWord : Spells [free .useWord] word := spells_of_map_kind (by simp) hword
    have hplacedLast : Spells [free .semicolon] last := spells_of_map_kind (by simp) hlast
    refine ⟨.uses placed, ?_, congrArg Item.uses hsame⟩
    exact List.rel_append hplacedWord (List.rel_append hplaced hplacedLast)
  | declares declaration =>
    obtain ⟨placed, hplaced, hsame⟩ := placeable_class declaration tokens h
    exact ⟨.declares placed, hplaced, congrArg Item.declares hsame⟩

theorem placeable_marks : Placeable marks (List.map Item.unplaced) := placeable_item.flatMap

end PageScript.Script
