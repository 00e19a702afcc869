import PageScript.Proofs.Script.Acceptance
import PageScript.Proofs.Script.Lexemes

/-!
# Printing scripts

A script is printed token by token, with spaces and newlines between the tokens and texts in
quotes. Reading the printed script gives the trees back, whatever the layout and whatever the texts
hold: each token is cut off as it was written, since a blank or the end of the script follows it, so
the tokens read have the kinds that the trees spell, and these have only one derivation.
-/

namespace PageScript.Script

/-! ## The printer -/

/-- How a character is written inside of a text. -/
def escaped : Char → List Char
  | '\n' => ['\\', 'n']
  | '\t' => ['\\', 't']
  | '\r' => ['\\', 'r']
  | '"' => ['\\', '"']
  | '\\' => ['\\', '\\']
  | c => [c]

def Token.Kind.spelling : Token.Kind → List Char
  | identifier name => name.toList
  | text value => '"' :: (value.toList.flatMap escaped ++ ['"'])
  | kind => kind.display.toList

/-- Spaces and newlines around and between tokens. -/
structure Layout where
  before : List Char
  between : Nat → List Char
  behind : List Char
  before_blank : ∀ c ∈ before, c = ' ' ∨ c = '\n'
  between_blank : ∀ n, ∀ c ∈ between n, c = ' ' ∨ c = '\n'
  behind_blank : ∀ c ∈ behind, c = ' ' ∨ c = '\n'
  between_ne_nil : ∀ n, between n ≠ []

namespace Layout

/-- The text of tokens, the first of which is the `n`th of the script. -/
def writeFrom (layout : Layout) (n : Nat) : List Token.Kind → List Char
  | [] => []
  | [kind] => kind.spelling ++ layout.behind
  | kind :: next :: rest =>
    kind.spelling ++ (layout.between n ++ layout.writeFrom (n + 1) (next :: rest))

def print (layout : Layout) (items : List Item) : String :=
  String.ofList (layout.before ++ layout.writeFrom 0 ((marks items).map Mark.kind))

end Layout

/-- Whether a name is a word, and none with a meaning of its own. -/
def isIdentifier (name : String) : Bool :=
  match name.toList with
  | [] => false
  | c :: more => isWordStart c && more.all isWordPart && (Token.Kind.keyword? name).isNone

/-- An identifier is a word that is no keyword. -/
theorem isIdentifier_iff {name : String} :
    isIdentifier name = true ↔ ∃ c more, name.toList = c :: more ∧ isWordStart c = true ∧
      more.all isWordPart = true ∧ Token.Kind.keyword? name = none := by
  unfold isIdentifier
  split
  · next hchars => simp [hchars]
  · next c more hchars => simp [hchars, and_assoc]

/-- An identifier is read back as itself. -/
theorem ofWord_of_isIdentifier {name : String} (h : isIdentifier name = true) :
    Token.Kind.ofWord name = .identifier name := by
  obtain ⟨_, _, _, _, _, hkeyword⟩ := isIdentifier_iff.mp h
  rw [Token.Kind.ofWord, hkeyword, Option.getD_none]

def Statement.Kind.identifiers : Statement.Kind → List String
  | .write _ => []
  | .create name type => name :: type.segments
  | .assign target property _ => [target, property]
  | .render name => [name]
  | .embed className => [className]

/-- All names in an item. -/
def Item.identifiers : Item → List String
  | .uses module => module.segments
  | .declares declaration =>
    declaration.name :: (declaration.base.segments ++
      declaration.body.flatMap fun stmt ↦ stmt.kind.identifiers)

/-! ## Characters -/

theorem ne_of_isWordStart {c mark : Char} (h : isWordStart c = true)
    (hmark : isWordStart mark = false) : c ≠ mark := by
  rintro rfl
  rw [hmark] at h
  cases h

/-- A word ends at a separator. -/
theorem isWordPart_eq_false {c : Char} (h : c = ' ' ∨ c = '\n') : isWordPart c = false := by
  rcases h with rfl | rfl <;> decide +kernel

theorem isBlank_of_separator {c : Char} (h : c = ' ' ∨ c = '\n') : Text.isBlank c = true := by
  rcases h with rfl | rfl <;> rfl

/-! ## Cutting off one token -/

/-- A character of a text is read back from its spelling, be it escaped or not. -/
theorem scan_escaped (offset : Nat) (c : Char) (rest : List Char) :
    Quoted.scan offset (escaped c ++ rest) =
      (Quoted.scan (offset + (escaped c).length) rest).cons (escaped c).length c := by
  fun_cases escaped c with
  | case6 c hnewline htab hreturn hquote hslash =>
    rw [List.singleton_append, Quoted.scan] <;> simp_all
  | _ => simp [Quoted.scan, Quoted.escape?]

/-- A text is read up to the quote that ends it, without complaint. -/
theorem scan_flatMap_escaped (offset : Nat) (value rest : List Char) :
    Quoted.scan offset (value.flatMap escaped ++ '"' :: rest) =
      ⟨value, [], true, (value.flatMap escaped).length + 1⟩ := by
  induction value generalizing offset with
  | nil => simp [Quoted.scan]
  | cons c value ih =>
    rw [List.flatMap_cons, List.append_assoc, scan_escaped, ih, List.length_append]
    simp only [Quoted.cons, Quoted.mk.injEq, true_and]
    omega

/-- A token may end in front of this text. -/
def Parted (rest : List Char) : Prop := ∀ c ∈ rest.head?, c = ' ' ∨ c = '\n'

theorem takeWhile_append {p : Char → Bool} {front rest : List Char} (hfront : ∀ c ∈ front, p c)
    (hrest : ∀ c ∈ rest.head?, p c = false) : (front ++ rest).takeWhile p = front := by
  rw [List.takeWhile_append_of_pos hfront]
  cases rest with
  | nil => simp
  | cons c rest => simp [hrest c rfl]

/-- A word is cut off whole where a separator follows. -/
theorem munch_word {c : Char} {more rest : List Char} (lineStart : Bool)
    (hstart : isWordStart c = true) (hmore : ∀ c ∈ more, isWordPart c = true)
    (hrest : Parted rest) :
    Lexeme.munch lineStart c (more ++ rest) =
      (.token (.ofWord (String.ofList (c :: more))), more.length) := by
  have hblank := isBlank_eq_false_of_isWordStart hstart
  have hslash : c ≠ '/' := ne_of_isWordStart hstart rfl
  have hhash : c ≠ '#' := ne_of_isWordStart hstart rfl
  have hquote : c ≠ '"' := ne_of_isWordStart hstart rfl
  have htake : (more ++ rest).takeWhile isWordPart = more :=
    takeWhile_append hmore fun c hc ↦ isWordPart_eq_false (hrest c hc)
  simp [Lexeme.munch, hblank, hslash, hhash, hquote, hstart, htake]

/-- A text is cut off at its closing quote, whatever characters it holds. -/
theorem munch_text (lineStart : Bool) (value rest : List Char) :
    Lexeme.munch lineStart '"' (value.flatMap escaped ++ ['"'] ++ rest) =
      (.text ⟨value, [], true, (value.flatMap escaped).length + 1⟩,
        (value.flatMap escaped ++ ['"']).length) := by
  have hscan := scan_flatMap_escaped 1 value rest
  simp [Lexeme.munch, hscan, Text.isBlank]

/-- A lexeme of this shape gives a token of this kind, if any, and no error. -/
structure Means (shape : Shape) (kind? : Option Token.Kind) : Prop where
  token : ∀ start spelling, (Lexeme.token? ⟨shape, start, spelling⟩).map Token.kind = kind?
  survey : ∀ map start spelling, Lexeme.survey map ⟨shape, start, spelling⟩ = (map, [])

theorem means_blank : Means .blank none := ⟨fun _ _ ↦ rfl, fun _ _ _ ↦ rfl⟩

theorem means_token (kind : Token.Kind) : Means (.token kind) (some kind) :=
  ⟨fun _ _ ↦ rfl, fun _ _ _ ↦ rfl⟩

theorem means_text (value : String) (length : Nat) :
    Means (.text ⟨value.toList, [], true, length⟩) (some (.text value)) := by
  constructor
  · intro start spelling
    simp [Lexeme.token?]
  · intro map start spelling
    rfl

/-- A token can be written if it is no identifier that would be read as something else. -/
def Writable (kind : Token.Kind) : Prop :=
  ∀ name, kind = .identifier name → isIdentifier name = true

/-- A punctuation mark is a token of its own, whatever follows. -/
theorem munch_punctuation {c : Char} {kind : Token.Kind}
    (h : Token.Kind.punctuation? c = some kind) (lineStart : Bool) (rest : List Char) :
    Text.isBlank c = false ∧ Lexeme.munch lineStart c rest = (.token kind, 0) := by
  unfold Token.Kind.punctuation? at h
  split at h <;> cases h <;> exact ⟨rfl, rfl⟩

/-- A token is cut off in front of `rest` as it was written. -/
def Cut (kind : Token.Kind) (rest : List Char) : Prop :=
  ∃ c more shape, kind.spelling = c :: more ∧ Text.isBlank c = false ∧ Means shape (some kind) ∧
    ∀ lineStart, Lexeme.munch lineStart c (more ++ rest) = (shape, more.length)

theorem cut_word {kind : Token.Kind} {c : Char} {more rest : List Char}
    (hspelling : kind.spelling = c :: more) (hstart : isWordStart c = true)
    (hmore : more.all isWordPart = true) (hkind : .ofWord (String.ofList (c :: more)) = kind)
    (hrest : Parted rest) : Cut kind rest := by
  refine ⟨c, more, .token kind, hspelling, ?_, means_token kind, fun lineStart ↦ ?_⟩
  · exact isBlank_eq_false_of_isWordStart hstart
  · rw [munch_word lineStart hstart (by simpa using hmore) hrest, hkind]

theorem cut_punctuation {kind : Token.Kind} {c : Char} (hspelling : kind.spelling = [c])
    (h : Token.Kind.punctuation? c = some kind) (rest : List Char) : Cut kind rest :=
  ⟨c, [], .token kind, hspelling, (munch_punctuation h true []).1, means_token kind,
    fun lineStart ↦ (munch_punctuation h lineStart rest).2⟩

theorem cut_identifier {name : String} (hname : isIdentifier name = true) {rest : List Char}
    (hrest : Parted rest) : Cut (.identifier name) rest := by
  obtain ⟨c, more, hchars, hstart, hmore, _⟩ := isIdentifier_iff.mp hname
  refine cut_word hchars hstart hmore ?_ hrest
  rw [← hchars, String.ofList_toList, ofWord_of_isIdentifier hname]

/-- A text needs no separator behind it. -/
theorem cut_text (value : String) (rest : List Char) : Cut (.text value) rest :=
  ⟨'"', _, _, rfl, rfl, means_text value _, fun lineStart ↦ munch_text lineStart value.toList rest⟩

/-- Every token is cut off as it was written in front of a blank or the end. -/
theorem cut_of_parted {kind : Token.Kind} (hkind : Writable kind) {rest : List Char}
    (hrest : Parted rest) : Cut kind rest := by
  cases kind with
  | identifier name => exact cut_identifier (hkind name rfl) hrest
  | text value => exact cut_text value rest
  | useWord | classWord | writeWord | letWord | newWord | setWord | renderWord | includeWord =>
    exact cut_word rfl (by decide +kernel) (by decide +kernel) (by decide +kernel) hrest
  | leftBrace | rightBrace | semicolon | colon | dot | equal => exact cut_punctuation rfl rfl rest

/-! ## Reading a printed script -/

/-- Wherever this text stands, its tokens are of these kinds and it has no errors or directives. -/
structure Reads (text : List Char) (kinds : List Token.Kind) : Prop where
  tokens : ∀ lineStart start,
    ((Lexeme.listFrom lineStart start text).filterMap Lexeme.token?).map Token.kind = kinds
  survey : ∀ lineStart start map,
    Lexeme.surveyAll map (Lexeme.listFrom lineStart start text) = (map, [])

theorem reads_nil : Reads [] [] := by
  constructor
  · intro lineStart start
    rw [Lexeme.listFrom]
    rfl
  · intro lineStart start map
    rw [Lexeme.listFrom, Lexeme.surveyAll]

theorem listFrom_of_munch {lineStart : Bool} {c : Char} {more rest : List Char} {shape : Shape}
    (h : Lexeme.munch lineStart c (more ++ rest) = (shape, more.length)) (start : Position) :
    Lexeme.listFrom lineStart start (c :: more ++ rest) =
      ⟨shape, start, c :: more⟩ ::
        Lexeme.listFrom (Lexeme.leavesLineStart lineStart shape (c :: more))
          (start.advance (c :: more)) rest := by
  rw [List.cons_append, Lexeme.listFrom, h]
  simp only [List.take_left, List.drop_left]

/-- One lexeme in front of a text. -/
theorem Reads.cons {c : Char} {more rest : List Char} {shape : Shape} {kind? : Option Token.Kind}
    {kinds : List Token.Kind}
    (hmunch : ∀ lineStart, Lexeme.munch lineStart c (more ++ rest) = (shape, more.length))
    (hshape : Means shape kind?) (hrest : Reads rest kinds) :
    Reads (c :: more ++ rest) (kind?.toList ++ kinds) := by
  constructor
  · intro lineStart start
    rw [listFrom_of_munch (hmunch lineStart), ← hshape.token start (c :: more)]
    cases h : Lexeme.token? ⟨shape, start, c :: more⟩ with
    | none => simp [h, hrest.tokens]
    | some token => simp [h, hrest.tokens]
  · intro lineStart start map
    rw [listFrom_of_munch (hmunch lineStart), Lexeme.surveyAll, hshape.survey]
    simp only [hrest.survey, List.append_nil]

/-- Blanks in front of a text change nothing. -/
theorem Reads.blanks {blanks rest : List Char} {kinds : List Token.Kind} (h : Reads rest kinds)
    (hblanks : ∀ c ∈ blanks, c = ' ' ∨ c = '\n')
    (hrest : ∀ c ∈ rest.head?, Text.isBlank c = false) : Reads (blanks ++ rest) kinds := by
  cases blanks with
  | nil => exact h
  | cons c more =>
    rw [List.forall_mem_cons] at hblanks
    have hmore : (more ++ rest).takeWhile Text.isBlank = more :=
      takeWhile_append (fun c hc ↦ isBlank_of_separator (hblanks.2 c hc)) hrest
    refine Reads.cons (fun lineStart ↦ ?_) means_blank h
    rw [Lexeme.munch, if_pos (isBlank_of_separator hblanks.1), hmore]

/-- A token in front of a text that it can end at. -/
theorem Reads.token {kind : Token.Kind} {rest : List Char} {kinds : List Token.Kind}
    (h : Reads rest kinds) (hkind : Writable kind) (hrest : Parted rest) :
    Reads (kind.spelling ++ rest) (kind :: kinds) := by
  obtain ⟨c, more, shape, hspelling, _, hshape, hmunch⟩ := cut_of_parted hkind hrest
  rw [hspelling]
  exact Reads.cons hmunch hshape h

theorem head_spelling {kind : Token.Kind} (hkind : Writable kind) (rest : List Char) :
    ∀ c ∈ (kind.spelling ++ rest).head?, Text.isBlank c = false := by
  obtain ⟨c, more, _, hspelling, hblank, _⟩ := cut_of_parted hkind (by simp [Parted] : Parted [])
  simpa [hspelling] using hblank

namespace Layout

variable (layout : Layout)

theorem reads_behind : Reads layout.behind [] := by
  have h := reads_nil.blanks layout.behind_blank (by simp)
  rwa [List.append_nil] at h

theorem parted_behind : Parted layout.behind :=
  fun c hc ↦ layout.behind_blank c (List.mem_of_mem_head? hc)

theorem parted_between (n : Nat) (rest : List Char) : Parted (layout.between n ++ rest) := by
  intro c hc
  rw [List.head?_append_of_ne_nil _ (layout.between_ne_nil n)] at hc
  exact layout.between_blank n c (List.mem_of_mem_head? hc)

/-- A written list of tokens starts with its first token. -/
theorem head_writeFrom {kind : Token.Kind} (hkind : Writable kind) (n : Nat)
    (rest : List Token.Kind) :
    ∀ c ∈ (layout.writeFrom n (kind :: rest)).head?, Text.isBlank c = false := by
  cases rest with
  | nil => exact head_spelling hkind _
  | cons next rest => exact head_spelling hkind _

/-- Tokens are read back from any layout, since separators stand between them. -/
theorem reads_writeFrom (n : Nat) {kinds : List Token.Kind}
    (hkinds : ∀ kind ∈ kinds, Writable kind) : Reads (layout.writeFrom n kinds) kinds := by
  fun_induction writeFrom layout n kinds with
  | case1 => exact reads_nil
  | case2 n kind =>
    exact layout.reads_behind.token (hkinds kind (by simp)) layout.parted_behind
  | case3 n kind next rest ih =>
    rw [List.forall_mem_cons] at hkinds
    have hnext : Writable next := hkinds.2 next (by simp)
    have hrest := (ih hkinds.2).blanks (layout.between_blank n)
      (layout.head_writeFrom hnext (n + 1) rest)
    exact hrest.token hkinds.1 (layout.parted_between n _)

theorem reads_print {kinds : List Token.Kind} (hkinds : ∀ kind ∈ kinds, Writable kind) :
    Reads (layout.before ++ layout.writeFrom 0 kinds) kinds := by
  apply (layout.reads_writeFrom 0 hkinds).blanks layout.before_blank
  cases kinds with
  | nil => simp [writeFrom]
  | cons kind rest => exact layout.head_writeFrom (hkinds kind (by simp)) 0 rest

end Layout

/-! ## Names in trees -/

theorem QualifiedName.mem_segments {qualified : QualifiedName} {name : String}
    (h : .identifier name ∈ qualified.marks.map Mark.kind) : name ∈ qualified.segments := by
  simpa [QualifiedName.marks, QualifiedName.segments, List.map_flatMap] using h

theorem Statement.mem_identifiers {stmt : Statement} {name : String}
    (h : .identifier name ∈ stmt.marks.map Mark.kind) : name ∈ stmt.kind.identifiers := by
  rcases stmt with ⟨kind, start⟩
  cases kind with
  | create created type =>
    have hmem : name = created ∨ .identifier name ∈ type.marks.map Mark.kind := by
      simpa [Statement.marks, Statement.Kind.word, Statement.Kind.operands] using h
    exact List.mem_cons.mpr (hmem.imp_right QualifiedName.mem_segments)
  | write text => simp [Statement.marks, Statement.Kind.word, Statement.Kind.operands] at h
  | assign | render | embed =>
    simpa [Statement.marks, Statement.Kind.word, Statement.Kind.operands,
      Statement.Kind.identifiers] using h

theorem Item.mem_identifiers {item : Item} {name : String}
    (h : .identifier name ∈ item.marks.map Mark.kind) : name ∈ item.identifiers := by
  cases item with
  | uses module =>
    have hmem : .identifier name ∈ module.marks.map Mark.kind := by
      simpa [Item.marks] using h
    exact QualifiedName.mem_segments hmem
  | declares declaration =>
    simp only [Item.marks, ClassDeclaration.marks, List.map_cons, List.map_append, List.mem_cons,
      List.mem_append, List.map_flatMap, List.mem_flatMap, Mark.kind_free, Mark.kind_placed,
      List.map_nil, List.not_mem_nil, reduceCtorEq, false_or, or_false,
      Token.Kind.identifier.injEq] at h
    simp only [Item.identifiers, List.mem_cons, List.mem_append, List.mem_flatMap]
    rcases h with rfl | hbase | ⟨stmt, hstmt, hname⟩
    · exact .inl rfl
    · exact .inr (.inl (QualifiedName.mem_segments hbase))
    · exact .inr (.inr ⟨stmt, hstmt, Statement.mem_identifiers hname⟩)

/-- With legal names, all tokens of a tree can be written. -/
theorem writable_marks {items : List Item}
    (h : ∀ item ∈ items, ∀ name ∈ item.identifiers, isIdentifier name = true) :
    ∀ kind ∈ (marks items).map Mark.kind, Writable kind := by
  rintro _ hkind name rfl
  rw [marks, List.map_flatMap, List.mem_flatMap] at hkind
  obtain ⟨item, hitem, hname⟩ := hkind
  exact h item hitem name (Item.mem_identifiers hname)

/-- A printed script is read without a diagnostic, has no directives, and gives the items that were
printed, up to positions. -/
theorem parse_print (path : String) (layout : Layout) (items : List Item)
    (h : ∀ item ∈ items, ∀ name ∈ item.identifiers, isIdentifier name = true) :
    ∃ placed, parse path (layout.print items) = (⟨path, placed, .empty⟩, []) ∧
      placed.map Item.unplaced = items.map Item.unplaced := by
  have hreads := layout.reads_print (writable_marks h)
  have htokens : (lex (layout.print items)).tokens.map Token.kind =
      (marks items).map Mark.kind := by
    rw [lex, Layout.print, String.toList_ofList]
    exact hreads.tokens true Position.start
  have hsurvey : (lex (layout.print items)).lineMap = .empty ∧
      (lex (layout.print items)).errors = [] := by
    have hall := hreads.survey true Position.start .empty
    rw [lex, Layout.print, String.toList_ofList]
    exact ⟨congrArg Prod.fst hall, congrArg Prod.snd hall⟩
  obtain ⟨placed, hplaced, hsame⟩ := placeable_marks items _ htokens
  have hitems : Parser.items (lex (layout.print items)).stop (lex (layout.print items)).tokens =
      (placed, []) := Parser.items_eq_iff.mpr hplaced
  refine ⟨placed, ?_, hsame⟩
  unfold parse
  simp only [hitems, hsurvey.1, hsurvey.2, List.append_nil, List.map_nil]

/-- One space between tokens, and a newline at the end. -/
def Layout.plain : Layout where
  before := []
  between := fun _ ↦ [' ']
  behind := ['\n']
  before_blank := by simp
  between_blank := by simp
  behind_blank := by simp
  between_ne_nil := by simp

/-- A class whose text holds quotes, backslashes, line ends and what looks like a comment and a
directive. -/
def quotingItems : List Item :=
  [.uses ⟨"ui", ["größe"], .start⟩,
    .declares ⟨"Home_1", ⟨"ui", ["Page"], .start⟩,
      [⟨.write "\"\\\n#line 7 // \r\t'", .start⟩, ⟨.create "l" ⟨"Link", [], .start⟩, .start⟩,
        ⟨.assign "l" "text" "", .start⟩, ⟨.render "l", .start⟩], .start⟩]

theorem parse_print_quotingItems :
    (∀ item ∈ quotingItems, ∀ name ∈ item.identifiers, isIdentifier name = true) ∧
      ∃ placed,
        parse "a" (Layout.plain.print quotingItems) = (⟨"a", placed, .empty⟩, []) ∧
          placed.map Item.unplaced = quotingItems.map Item.unplaced := by
  have hnames : ∀ item ∈ quotingItems, ∀ name ∈ item.identifiers, isIdentifier name = true := by
    decide +kernel
  exact ⟨hnames, parse_print "a" Layout.plain quotingItems hnames⟩

end PageScript.Script
