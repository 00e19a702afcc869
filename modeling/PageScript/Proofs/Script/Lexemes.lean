import Mathlib.Data.List.DropRight
import Mathlib.Data.List.Pairwise
import PageScript.Proofs.Script.Directives
import PageScript.Script.Lexeme

/-!
# Scripts as lexemes

The lexemes of a script are its characters in pieces: nothing is left out, and each piece is where
the newlines and characters before it put it. What a piece may look like is said of the text before
it and the text behind it, so that a word cannot end early and a hash sign is a directive only where
nothing but blanks stands before it on its line. The tokens and the stray characters of a script are
read off its pieces.
-/

namespace PageScript.Script

/-! ## Characters -/

/-- The codes of blank characters. -/
def blankCodes : List Nat :=
  List.range' 9 5 ++ [0x20, 0x85, 0xa0, 0x1680] ++ List.range' 0x2000 11 ++
    [0x2028, 0x2029, 0x202f, 0x205f, 0x3000]

theorem toNat_mem_blankCodes {c : Char} (h : Text.isBlank c = true) : c.toNat ∈ blankCodes := by
  simp only [Text.isBlank, Bool.or_eq_true, Bool.and_eq_true, decide_eq_true_eq,
    beq_iff_eq] at h
  simp only [blankCodes, List.mem_append, List.mem_range'_1, List.mem_cons, List.not_mem_nil]
  omega

theorem isWordStart_blankCodes : ∀ code ∈ blankCodes, isWordStart (Char.ofNat code) = false := by
  decide +kernel

/-- No blank starts a word, as the tables have it. -/
theorem isBlank_eq_false_of_isWordStart {c : Char} (h : isWordStart c = true) :
    Text.isBlank c = false := by
  by_contra hblank
  have hcode := isWordStart_blankCodes c.toNat (toNat_mem_blankCodes (by simpa using hblank))
  rw [Char.ofNat_toNat, h] at hcode
  cases hcode

theorem isWordPart_newline : isWordPart '\n' = false := by
  decide +kernel

theorem isBlank_eq_false_of_punctuation {c : Char} {kind : Token.Kind}
    (h : Token.Kind.punctuation? c = some kind) : Text.isBlank c = false := by
  unfold Token.Kind.punctuation? at h
  split at h <;> first | rfl | cases h

/-! ## Positions -/

/-- What stands behind the last newline, or all of it. -/
def lastLine (text : List Char) : List Char := text.rtakeWhile Lexeme.notNewline

/-- The line and the column of the character behind a text, both counted from one. -/
def Position.behind (text : List Char) : Position :=
  ⟨text.count '\n' + 1, (lastLine text).length + 1⟩

/-- Only blanks stand on the line that a text leaves unfinished. -/
def LineStart (text : List Char) : Prop := ∀ c ∈ lastLine text, Text.isBlank c = true

/-- A line ends in front of this text. -/
def LineEnd (text : List Char) : Prop := ∀ c ∈ text.head?, c = '\n'

/-- An earlier line, or the same line and an earlier column. -/
def Position.Before (first second : Position) : Prop :=
  first.line < second.line ∨ first.line = second.line ∧ first.column < second.column

theorem lastLine_newline (text : List Char) : lastLine (text ++ ['\n']) = [] :=
  List.rtakeWhile_concat_neg _ _ _ (by decide)

theorem lastLine_concat {c : Char} (text : List Char) (h : c ≠ '\n') :
    lastLine (text ++ [c]) = lastLine text ++ [c] :=
  List.rtakeWhile_concat_pos _ _ _ (by simpa [Lexeme.notNewline] using h)

/-- Text without a newline goes on in the line that it is put behind. -/
theorem lastLine_append {text : List Char} (front : List Char) (h : '\n' ∉ text) :
    lastLine (front ++ text) = lastLine front ++ text := by
  induction text generalizing front with
  | nil => simp
  | cons c text ih =>
    rw [List.mem_cons, not_or] at h
    rw [List.append_cons, ih _ h.2, lastLine_concat _ (Ne.symm h.1), ← List.append_cons]

/-- Reading one more character leads to the position behind it. -/
theorem next_behind (text : List Char) (c : Char) :
    (Position.behind text).next c = Position.behind (text ++ [c]) := by
  by_cases h : c = '\n'
  · subst h
    simp [Position.next, Position.behind, lastLine_newline]
  · simp [Position.next, Position.behind, lastLine_concat text h, h]

/-- Positions depend on the text before them only. -/
theorem advance_behind (front text : List Char) :
    (Position.behind front).advance text = Position.behind (front ++ text) := by
  induction text generalizing front with
  | nil => simp [Position.advance]
  | cons c text ih =>
    rw [List.append_cons, ← ih, ← next_behind]
    rfl

theorem Position.Before.trans {first second third : Position} (h : first.Before second)
    (h' : second.Before third) : first.Before third := by
  unfold Position.Before at *
  omega

/-- Every character, a newline included, leads on. -/
theorem before_next (position : Position) (c : Char) : position.Before (position.next c) := by
  unfold Position.Before Position.next
  split <;> simp

/-- A text that is not empty leads to a later position. -/
theorem before_behind {text : List Char} (front : List Char) (h : text ≠ []) :
    (Position.behind front).Before (Position.behind (front ++ text)) := by
  induction text using List.reverseRecOn with
  | nil => contradiction
  | append_singleton text c ih =>
    rw [← List.append_assoc, ← next_behind]
    by_cases htext : text = []
    · subst htext
      rw [List.append_nil]
      exact before_next _ c
    · exact (ih htext).trans (before_next _ c)

/-! ## What a piece looks like -/

/-- How the characters behind an opening quote are read: the value that they stand for, and whether
a quote closes the literal. A literal that none closes ends with its line. -/
inductive Literal (after : List Char) : List Char → List Char → Bool → Prop where
  | closed : Literal after ['"'] [] true
  | unfinished : LineEnd after → Literal after [] [] false
  | dangling : LineEnd after → Literal after ['\\'] [] false
  | escape {c value : Char} {body values : List Char} {closed : Bool} :
      Quoted.escape? c = some value → Literal after body values closed →
      Literal after ('\\' :: c :: body) (value :: values) closed
  | unknown {c : Char} {body values : List Char} {closed : Bool} :
      c ≠ '\n' → Quoted.escape? c = none → Literal after body values closed →
      Literal after ('\\' :: c :: body) (c :: values) closed
  | plain {c : Char} {body values : List Char} {closed : Bool} :
      c ≠ '"' → c ≠ '\\' → c ≠ '\n' → Literal after body values closed →
      Literal after (c :: body) (c :: values) closed

/-- A token of some kind as it stands in front of `after`. A word goes as far as it can. -/
inductive Wording (after : List Char) : Token.Kind → List Char → Prop where
  | word {c : Char} {more : List Char} :
      isWordStart c = true → (∀ d ∈ more, isWordPart d = true) →
      (∀ d ∈ after.head?, isWordPart d = false) →
      Wording after (.ofWord (String.ofList (c :: more))) (c :: more)
  | mark {c : Char} {kind : Token.Kind} :
      Token.Kind.punctuation? c = some kind → Wording after kind [c]
  | text {body values : List Char} {closed : Bool} :
      Literal after body values closed → Wording after (.text (String.ofList values)) ('"' :: body)

/-- A character that starts nothing between `before` and `after`. -/
structure Stray (before : List Char) (c : Char) (after : List Char) : Prop where
  notBlank : Text.isBlank c = false
  notQuote : c ≠ '"'
  notWord : isWordStart c = false
  notMark : Token.Kind.punctuation? c = none
  notComment : c = '/' → after.head? ≠ some '/'
  notDirective : c = '#' → ¬LineStart before

/-- What stands between `before` and `after` as one piece. -/
inductive Piece (before after : List Char) : Shape → List Char → Prop where
  | blank {spelling : List Char} :
      spelling ≠ [] → (∀ c ∈ spelling, Text.isBlank c = true) →
      (∀ c ∈ after.head?, Text.isBlank c = false) → Piece before after .blank spelling
  | comment {text : List Char} :
      '\n' ∉ text → LineEnd after → Piece before after .comment ('/' :: '/' :: text)
  | directive {text : List Char} :
      LineStart before → '\n' ∉ text → LineEnd after → Piece before after .directive ('#' :: text)
  | token {kind : Token.Kind} {spelling : List Char} :
      Wording after kind spelling → Piece before after (.token kind) spelling
  | text {literal : Quoted} {spelling : List Char} :
      Wording after (.text (String.ofList literal.value)) spelling →
      Piece before after (.text literal) spelling
  | stray {c : Char} : Stray before c after → Piece before after .stray [c]

/-- Lexemes that follow each other behind `before`, each one where the text before it puts it. -/
inductive Pieces : List Char → List Lexeme → Prop where
  | nil {before : List Char} : Pieces before []
  | cons {before spelling : List Char} {shape : Shape} {rest : List Lexeme} :
      Piece before (rest.flatMap Lexeme.spelling) shape spelling →
      Pieces (before ++ spelling) rest →
      Pieces before (⟨shape, .behind before, spelling⟩ :: rest)

/-! ## Cutting off one piece -/

theorem take_takeWhile (p : Char → Bool) (text : List Char) :
    text.take (text.takeWhile p).length = text.takeWhile p :=
  (List.prefix_iff_eq_take.mp (List.takeWhile_prefix p)).symm

theorem drop_takeWhile (p : Char → Bool) (text : List Char) :
    text.drop (text.takeWhile p).length = text.dropWhile p := by
  conv_lhs => enter [2]; rw [← List.takeWhile_append_dropWhile (p := p) (l := text)]
  exact List.drop_left

theorem lineEnd_dropWhile (text : List Char) : LineEnd (text.dropWhile Lexeme.notNewline) := by
  intro c hc
  simpa [Lexeme.notNewline] using Text.head_dropWhile _ _ c hc

theorem newline_notMem_takeWhile (text : List Char) :
    '\n' ∉ text.takeWhile Lexeme.notNewline := fun h ↦ by
  simpa [Lexeme.notNewline] using List.mem_takeWhile_imp h

/-- A character that no case for backslashes applies to is none. -/
theorem ne_backslash {c : Char} {rest : List Char} (hend : c = '\\' → rest = [] → False)
    (hmore : ∀ d more, c = '\\' → rest = d :: more → False) : c ≠ '\\' := by
  rintro rfl
  cases rest with
  | nil => exact hend rfl rfl
  | cons d more => exact hmore d more rfl rfl

/-- What is read behind an opening quote is a literal. -/
theorem literal_scan (offset : Nat) (text : List Char) :
    Literal (text.drop (Quoted.scan offset text).length)
      (text.take (Quoted.scan offset text).length) (Quoted.scan offset text).value
      (Quoted.scan offset text).closed := by
  fun_induction Quoted.scan offset text with
  | case1 => exact .unfinished (by simp [LineEnd])
  | case2 => exact .closed
  | case3 => exact .unfinished (by simp [LineEnd])
  | case4 => exact .dangling (by simp [LineEnd])
  | case5 => exact .dangling (by simp [LineEnd])
  | case6 offset c rest hnewline value hvalue ih => exact .escape hvalue ih
  | case7 offset c rest hnewline hvalue literal ih => exact .unknown hnewline hvalue ih
  | case8 offset c rest hquote hnewline hend hslash ih =>
    exact .plain hquote (ne_backslash hend hslash) hnewline ih

/-- The piece that is cut off, wherever the text before it ends. -/
theorem piece_munch {before : List Char} {lineStart : Bool}
    (hstart : lineStart = true ↔ LineStart before) (c : Char) (rest : List Char) :
    Piece before (rest.drop (Lexeme.munch lineStart c rest).2) (Lexeme.munch lineStart c rest).1
      (c :: rest.take (Lexeme.munch lineStart c rest).2) := by
  fun_cases Lexeme.munch lineStart c rest with
  | case1 hblank =>
    rw [take_takeWhile, drop_takeWhile]
    refine .blank (List.cons_ne_nil _ _) ?_ (Text.head_dropWhile _ _)
    exact List.forall_mem_cons.mpr ⟨hblank, fun d hd ↦ List.mem_takeWhile_imp hd⟩
  | case2 hblank hslash hnext =>
    subst hslash
    obtain ⟨rest, rfl⟩ := List.head?_eq_some_iff.mp hnext
    rw [take_takeWhile, drop_takeWhile, List.takeWhile_cons_of_pos (by rfl),
      List.dropWhile_cons_of_pos (by rfl)]
    exact .comment (newline_notMem_takeWhile rest) (lineEnd_dropWhile rest)
  | case3 hblank hslash hnext =>
    subst hslash
    exact .stray ⟨rfl, by decide, by decide +kernel, rfl, fun _ ↦ hnext, by simp⟩
  | case4 hblank hslash hhash =>
    rw [Bool.and_eq_true, decide_eq_true_eq] at hhash
    obtain ⟨rfl, hline⟩ := hhash
    rw [take_takeWhile, drop_takeWhile]
    exact .directive (hstart.mp hline) (newline_notMem_takeWhile rest) (lineEnd_dropWhile rest)
  | case5 hblank hslash hhash hquote literal =>
    subst hquote
    exact .text (.text (literal_scan 1 rest))
  | case6 hblank hslash hhash hquote hword more =>
    rw [take_takeWhile, drop_takeWhile]
    exact .token (.word hword (fun d hd ↦ List.mem_takeWhile_imp hd) (Text.head_dropWhile _ _))
  | case7 hblank hslash hhash hquote hword kind hkind => exact .token (.mark hkind)
  | case8 hblank hslash hhash hquote hword hkind =>
    refine .stray ⟨by simpa using hblank, hquote, by simpa using hword, hkind,
      fun h ↦ absurd h hslash, fun h hline ↦ hhash ?_⟩
    rw [h, hstart.mpr hline]
    rfl

/-! ## Where a line starts -/

/-- A blank keeps to the start of a line, and a newline starts one. -/
theorem lineStart_concat {text : List Char} {c : Char} (h : Text.isBlank c = true) :
    LineStart (text ++ [c]) ↔ c = '\n' ∨ LineStart text := by
  by_cases hnewline : c = '\n'
  · subst hnewline
    simp [LineStart, lastLine_newline]
  · simp [LineStart, lastLine_concat text hnewline, hnewline, or_imp, forall_and, h]

theorem lineStart_append {text blanks : List Char} (h : ∀ c ∈ blanks, Text.isBlank c = true) :
    LineStart (text ++ blanks) ↔ '\n' ∈ blanks ∨ LineStart text := by
  induction blanks generalizing text with
  | nil => simp
  | cons c blanks ih =>
    rw [List.forall_mem_cons] at h
    rw [List.append_cons, ih h.2, lineStart_concat h.1, List.mem_cons, or_left_comm, or_assoc,
      @eq_comm _ c]

/-- A literal never goes on over the end of a line. -/
theorem Literal.newline_notMem {after body values : List Char} {closed : Bool}
    (h : Literal after body values closed) : '\n' ∉ body := by
  induction h with
  | closed => decide
  | unfinished => exact List.not_mem_nil
  | dangling => decide
  | @escape c value body values closed hvalue _ ih =>
    have hc : c ≠ '\n' := by
      rintro rfl
      cases hvalue
    simp [hc.symm, ih]
  | unknown hc _ _ ih => simp [hc.symm, ih]
  | plain _ _ hc _ ih => simp [hc.symm, ih]

/-- A token stays on its line and is more than blanks. -/
theorem Wording.solid {after spelling : List Char} {kind : Token.Kind}
    (h : Wording after kind spelling) :
    '\n' ∉ spelling ∧ ∃ c ∈ spelling, Text.isBlank c = false := by
  cases h with
  | word hstart hmore hafter =>
    have hblank := isBlank_eq_false_of_isWordStart hstart
    refine ⟨fun hnewline ↦ ?_, _, List.mem_cons_self, hblank⟩
    rcases List.mem_cons.mp hnewline with rfl | hnewline
    · cases hblank
    · cases (hmore _ hnewline).symm.trans isWordPart_newline
  | mark hkind =>
    have hblank := isBlank_eq_false_of_punctuation hkind
    refine ⟨fun hnewline ↦ ?_, _, List.mem_cons_self, hblank⟩
    rw [← List.mem_singleton.mp hnewline] at hblank
    cases hblank
  | text hliteral => exact ⟨by simp [hliteral.newline_notMem], '"', List.mem_cons_self, rfl⟩

/-- So is everything but blanks. -/
theorem Piece.solid {before after spelling : List Char} {shape : Shape}
    (h : Piece before after shape spelling) (hshape : shape ≠ .blank) :
    '\n' ∉ spelling ∧ ∃ c ∈ spelling, Text.isBlank c = false := by
  cases h with
  | blank => contradiction
  | comment htext => exact ⟨by simp [htext], '/', List.mem_cons_self, rfl⟩
  | directive _ htext => exact ⟨by simp [htext], '#', List.mem_cons_self, rfl⟩
  | token hwording => exact hwording.solid
  | text hwording => exact hwording.solid
  | stray hstray =>
    refine ⟨fun hnewline ↦ ?_, _, List.mem_cons_self, hstray.notBlank⟩
    have hblank := hstray.notBlank
    rw [← List.mem_singleton.mp hnewline] at hblank
    cases hblank

/-- The flag for the start of a line tells whether only blanks stand before. -/
theorem Piece.leavesLineStart {before after spelling : List Char} {shape : Shape}
    {lineStart : Bool} (h : Piece before after shape spelling)
    (hstart : lineStart = true ↔ LineStart before) :
    Lexeme.leavesLineStart lineStart shape spelling = true ↔ LineStart (before ++ spelling) := by
  by_cases hshape : shape = .blank
  · subst hshape
    cases h with
    | blank _ hblanks _ =>
      simp [Lexeme.leavesLineStart, lineStart_append hblanks, hstart, or_comm]
  · obtain ⟨hnewline, c, hc, hblank⟩ := h.solid hshape
    simp only [Lexeme.leavesLineStart, hshape, decide_false, Bool.false_and, Bool.false_eq_true,
      false_iff]
    intro hline
    have := hline c (by simp [lastLine_append before hnewline, hc])
    rw [hblank] at this
    cases this

/-! ## Cutting a whole text -/

/-- Nothing is left out and nothing is added. -/
theorem flatMap_listFrom (lineStart : Bool) (start : Position) (text : List Char) :
    (Lexeme.listFrom lineStart start text).flatMap Lexeme.spelling = text := by
  fun_induction Lexeme.listFrom lineStart start text with
  | case1 => rfl
  | case2 lineStart start c rest shape n hmunch spelling ih =>
    rw [List.flatMap_cons, ih]
    simp [spelling]

/-- Cutting a text from any place gives pieces that fit what stands before and behind them. -/
theorem pieces_listFrom (before : List Char) (lineStart : Bool) (text : List Char)
    (hstart : lineStart = true ↔ LineStart before) :
    Pieces before (Lexeme.listFrom lineStart (.behind before) text) := by
  generalize hposition : Position.behind before = start
  fun_induction Lexeme.listFrom lineStart start text generalizing before with
  | case1 => exact .nil
  | case2 lineStart start c rest shape n hmunch spelling ih =>
    subst hposition
    have hpiece := piece_munch hstart c rest
    rw [hmunch] at hpiece
    refine .cons ?_ (ih _ (hpiece.leavesLineStart hstart) (advance_behind before spelling).symm)
    rwa [flatMap_listFrom]

/-- Every piece stands right behind those before it. -/
theorem Pieces.split {before : List Char} {front back : List Lexeme} {piece : Lexeme}
    (h : Pieces before (front ++ piece :: back)) :
    piece.start = .behind (before ++ front.flatMap Lexeme.spelling) ∧
      Piece (before ++ front.flatMap Lexeme.spelling) (back.flatMap Lexeme.spelling) piece.shape
        piece.spelling := by
  induction front generalizing before with
  | nil =>
    cases h with
    | cons hpiece _ => simpa using hpiece
  | cons first front ih =>
    cases h with
    | cons _ hrest =>
      simpa only [List.flatMap_cons, List.append_assoc] using ih hrest

theorem Piece.ne_nil {before after spelling : List Char} {shape : Shape}
    (h : Piece before after shape spelling) : spelling ≠ [] := by
  by_cases hshape : shape = .blank
  · subst hshape
    cases h with
    | blank hne _ _ => exact hne
  · obtain ⟨-, c, hc, -⟩ := h.solid hshape
    exact List.ne_nil_of_mem hc

/-- Pieces start one behind the other, and before the end of their text. -/
theorem Pieces.pairwise {before : List Char} {pieces : List Lexeme} (h : Pieces before pieces) :
    (pieces.map Lexeme.start ++
      [Position.behind (before ++ pieces.flatMap Lexeme.spelling)]).Pairwise Position.Before := by
  induction h with
  | nil => exact List.pairwise_singleton _ _
  | @cons before spelling shape rest hpiece hrest ih =>
    simp only [List.map_cons, List.flatMap_cons, List.cons_append, ← List.append_assoc]
    refine .cons (fun later hlater ↦ ?_) ih
    rcases List.mem_append.mp hlater with hlater | hlater
    · obtain ⟨piece, hmem, rfl⟩ := List.mem_map.mp hlater
      obtain ⟨front, back, rfl⟩ := List.append_of_mem hmem
      rw [hrest.split.1, List.append_assoc]
      exact before_behind before (List.append_ne_nil_of_left_ne_nil hpiece.ne_nil _)
    · rw [List.mem_singleton.mp hlater, List.append_assoc]
      exact before_behind before (List.append_ne_nil_of_left_ne_nil hpiece.ne_nil _)

/-! ## Tokens and stray characters -/

def Token.Kind.isWord : Token.Kind → Bool
  | text _ | leftBrace | rightBrace | semicolon | colon | dot | equal => false
  | _ => true

/-- A token stands behind `before`, at the line and column that it tells. No word could be longer
than it is. -/
structure Occurs (source : List Char) (token : Token) (before spelling after : List Char) :
    Prop where
  cover : source = before ++ spelling ++ after
  start : token.start = .behind before
  wording : Wording after token.kind spelling
  maximal : token.kind.isWord = true → ∀ c ∈ after.head?, isWordPart c = false

/-- The errors for the stray characters among some pieces. -/
def strays (pieces : List Lexeme) : List SyntaxError :=
  pieces.flatMap fun piece ↦
    if piece.shape = .stray then
      piece.spelling.map fun c ↦ ⟨.strayCharacter c, piece.start⟩
    else []

/-- No word could be longer where it stands. -/
theorem Wording.maximal {after spelling : List Char} {kind : Token.Kind}
    (h : Wording after kind spelling) (hword : kind.isWord = true) :
    ∀ c ∈ after.head?, isWordPart c = false := by
  cases h with
  | word _ _ hafter => exact hafter
  | mark hkind =>
    unfold Token.Kind.punctuation? at hkind
    split at hkind <;> cases hkind <;> cases hword
  | text => cases hword

/-- A token starts where its piece starts, and is worded by it. -/
theorem Piece.wording {before after : List Char} {piece : Lexeme} {token : Token}
    (h : Piece before after piece.shape piece.spelling) (htoken : piece.token? = some token) :
    token.start = piece.start ∧ Wording after token.kind piece.spelling := by
  obtain ⟨shape, start, spelling⟩ := piece
  cases h with
  | token hwording | text hwording =>
    obtain rfl := Option.some.inj htoken
    exact ⟨rfl, hwording⟩
  | blank | comment | directive | stray => cases htoken

/-- Each token among pieces stands in their text. -/
theorem Pieces.exists_occurs {pieces : List Lexeme} (h : Pieces [] pieces) {token : Token}
    (htoken : token ∈ pieces.filterMap Lexeme.token?) :
    ∃ before spelling after,
      Occurs (pieces.flatMap Lexeme.spelling) token before spelling after := by
  obtain ⟨piece, hpiece, hmeans⟩ := List.mem_filterMap.mp htoken
  obtain ⟨front, back, rfl⟩ := List.append_of_mem hpiece
  obtain ⟨hstart, hspelled⟩ := h.split
  rw [List.nil_append] at hstart
  obtain ⟨htoken, hwording⟩ := hspelled.wording hmeans
  refine ⟨front.flatMap Lexeme.spelling, piece.spelling, back.flatMap Lexeme.spelling, ?_,
    htoken.trans hstart, hwording, hwording.maximal⟩
  simp only [List.flatMap_append, List.flatMap_cons, List.append_assoc]

/-- Where no stray character is reported, there is none. -/
theorem Pieces.shape_ne_stray {before : List Char} {pieces : List Lexeme}
    (h : Pieces before pieces) (hstrays : strays pieces = []) :
    ∀ piece ∈ pieces, piece.shape ≠ .stray := by
  intro piece hpiece hshape
  have hnil := List.flatMap_eq_nil_iff.mp hstrays piece hpiece
  rw [if_pos hshape, List.map_eq_nil_iff] at hnil
  obtain ⟨front, back, rfl⟩ := List.append_of_mem hpiece
  exact h.split.2.ne_nil hnil

theorem start_of_token? {piece : Lexeme} {token : Token} (h : piece.token? = some token) :
    token.start = piece.start := by
  unfold Lexeme.token? at h
  split at h <;> cases h <;> rfl

theorem starts_sublist (pieces : List Lexeme) :
    ((pieces.filterMap Lexeme.token?).map Token.start).Sublist (pieces.map Lexeme.start) := by
  induction pieces with
  | nil => exact .slnil
  | cons piece rest ih =>
    rw [List.filterMap_cons, List.map_cons]
    split
    · exact ih.cons _
    · next token htoken =>
      rw [List.map_cons, start_of_token? htoken]
      exact ih.cons_cons _

theorem filter_survey (map : LineMap) (piece : Lexeme) :
    (piece.survey map).2.filter (·.fault.id = "KP1056") = strays [piece] := by
  fun_cases Lexeme.survey map piece with
  | case1 hshape => simp [strays, hshape]
  | case2 hshape fault hfault =>
    rcases Directive.fault_cases hfault with rfl | rfl | rfl <;> simp [strays, hshape, Fault.id]
  | case3 literal hshape =>
    simp only [Lexeme.literalErrors]
    split <;> simp [strays, hshape, List.filter_map, Function.comp_def, Fault.id]
  | case4 hshape => simp [strays, hshape, List.filter_map, Function.comp_def, Fault.id]
  | case5 _ _ hshape =>
    have hne : piece.shape ≠ .stray := hshape
    simp [strays, hne]

/-- Stray characters are the only ones reported by their number, each once and in order. -/
theorem filter_surveyAll (map : LineMap) (pieces : List Lexeme) :
    (Lexeme.surveyAll map pieces).2.filter (·.fault.id = "KP1056") = strays pieces := by
  induction pieces generalizing map with
  | nil => rfl
  | cons piece rest ih =>
    rw [Lexeme.surveyAll, List.filter_append, filter_survey, ih]
    simp [strays]

/-! ## The account of a script -/

/-- Pieces that make up a script, and how its tokens and errors come from them. -/
structure Accounted (source : List Char) (lexed : Lexed) (pieces : List Lexeme) : Prop where
  cover : pieces.flatMap Lexeme.spelling = source
  placed : Pieces [] pieces
  tokens : lexed.tokens = pieces.filterMap Lexeme.token?
  strays : lexed.errors.filter (·.fault.id = "KP1056") = strays pieces
  clean : lexed.errors = [] → ∀ piece ∈ pieces, piece.shape ≠ .stray
  occurs : ∀ token ∈ lexed.tokens, ∃ before spelling after,
    Occurs source token before spelling after
  increasing : (lexed.tokens.map Token.start ++ [lexed.stop]).Pairwise Position.Before
  stop : lexed.stop = .behind source

/-- Every character of a script belongs to one piece, whatever the script holds. -/
theorem accounted_lex (source : String) :
    Accounted source.toList (lex source) (Lexeme.list source.toList) := by
  generalize hpieces : Lexeme.list source.toList = pieces
  have hcover : pieces.flatMap Lexeme.spelling = source.toList :=
    hpieces ▸ flatMap_listFrom true Position.start source.toList
  have hplaced : Pieces [] pieces :=
    hpieces ▸ pieces_listFrom [] true source.toList (by simp [LineStart, lastLine])
  have htokens : (lex source).tokens = pieces.filterMap Lexeme.token? := hpieces ▸ rfl
  have hstrays : (lex source).errors.filter (·.fault.id = "KP1056") = strays pieces :=
    hpieces ▸ filter_surveyAll .empty _
  have hstop : (lex source).stop = .behind source.toList := advance_behind [] source.toList
  refine ⟨hcover, hplaced, htokens, hstrays, fun hclean ↦ ?_, fun token htoken ↦ ?_, ?_, hstop⟩
  · rw [hclean, List.filter_nil] at hstrays
    exact hplaced.shape_ne_stray hstrays.symm
  · rw [← hcover]
    exact hplaced.exists_occurs (htokens ▸ htoken)
  · have hall := hplaced.pairwise
    rw [List.nil_append, hcover] at hall
    rw [htokens, hstop]
    exact hall.sublist ((starts_sublist pieces).append_right _)

end PageScript.Script
