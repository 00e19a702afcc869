import PageScript.Proofs.Pieces
import PageScript.Proofs.Script.Lexemes

/-!
# Scripts line by line

No lexeme but blanks reaches over the end of a line, and a line that ends leaves no trace: whatever
an earlier line holds, a quote that none closes or a comment, the next one is cut as if it stood
alone. So the lexemes of a script, blanks apart, are those of its lines, and a line is a directive
exactly if its first character that is no blank is a hash sign.
-/

namespace PageScript.Script

/-! ## Lines -/

/-- The lines of a script with their numbers. -/
def numberedLines (source : List Char) : List (List Char × Nat) := (source.splitOn '\n').zipIdx 1

/-- The lexemes that are no blanks. -/
def solid (pieces : List Lexeme) : List Lexeme := pieces.filter (·.shape ≠ .blank)

/-- The lexemes of a line that stands alone. -/
def lineLexemes (line : List Char × Nat) : List Lexeme :=
  solid (Lexeme.listFrom true ⟨line.2, 1⟩ line.1)

/-- A line stays one where it is cut. -/
theorem newline_notMem_cut {c : Char} {text : List Char} (h : '\n' ∉ c :: text) (n : Nat) :
    '\n' ∉ c :: text.take n ∧ '\n' ∉ text.drop n := by
  rw [List.mem_cons, not_or] at h
  refine ⟨?_, fun hmem ↦ h.2 (List.mem_of_mem_drop hmem)⟩
  rw [List.mem_cons, not_or]
  exact ⟨h.1, fun hmem ↦ h.2 (List.mem_of_mem_take hmem)⟩

/-! ## Positions on one line -/

theorem line_advance {text : List Char} (position : Position) (h : '\n' ∉ text) :
    position.advance text = ⟨position.line, position.column + text.length⟩ := by
  induction text generalizing position with
  | nil => rfl
  | cons c text ih =>
    rw [List.mem_cons, not_or] at h
    have hnext : position.next c = ⟨position.line, position.column + 1⟩ := by
      rw [Position.next, if_neg (Ne.symm h.1)]
    calc position.advance (c :: text) = (position.next c).advance text := rfl
      _ = ⟨position.line, position.column + 1 + text.length⟩ := by rw [hnext, ih _ h.2]
      _ = ⟨position.line, position.column + (c :: text).length⟩ := by
        rw [List.length_cons, Nat.add_assoc, Nat.add_comm 1]

/-! ## Cutting stops at the end of a line -/

/-- A literal does not see what stands on later lines. -/
theorem scan_newline (offset : Nat) {line : List Char} (h : '\n' ∉ line) (rest : List Char) :
    Quoted.scan offset (line ++ '\n' :: rest) = Quoted.scan offset line := by
  fun_induction Quoted.scan offset line with
  | case1 => simp [Quoted.scan]
  | case2 => simp [Quoted.scan]
  | case3 => simp at h
  | case4 => simp [Quoted.scan]
  | case5 => simp at h
  | case6 offset c text hc value hvalue ih =>
    simp only [List.mem_cons, not_or] at h
    simp only [List.cons_append, Quoted.scan, hc, if_false, hvalue, ih h.2.2]
  | case7 offset c text hc hvalue literal ih =>
    simp only [List.mem_cons, not_or] at h
    simp only [List.cons_append, Quoted.scan, hc, if_false, hvalue, ih h.2.2]
    rfl
  | case8 offset c text hquote hnewline hend hslash ih =>
    rw [List.mem_cons, not_or] at h
    have hplain := ne_backslash hend hslash
    rw [List.cons_append, Quoted.scan, ih h.2] <;> simp_all

/-- What is cut off at a character does not depend on later lines. -/
theorem munch_newline (lineStart : Bool) {c : Char} {line : List Char}
    (hblank : Text.isBlank c = false) (h : '\n' ∉ line) (rest : List Char) :
    Lexeme.munch lineStart c (line ++ '\n' :: rest) = Lexeme.munch lineStart c line := by
  have hhead : (line ++ '\n' :: rest).head? = some '/' ↔ line.head? = some '/' := by
    cases line <;> simp
  have hnewline : Lexeme.notNewline '\n' = false := rfl
  simp only [Lexeme.munch, hblank, hhead, scan_newline 1 h,
    takeWhile_append_cons isWordPart_newline, takeWhile_append_cons hnewline]
  rfl

theorem length_scan_le (offset : Nat) (text : List Char) :
    (Quoted.scan offset text).length ≤ text.length := by
  fun_induction Quoted.scan offset text with
  | case7 offset c text hc hvalue literal ih =>
    simp only [literal, Quoted.cons, List.length_cons]
    omega
  | _ => simp_all [Quoted.cons]

theorem munch_le (lineStart : Bool) (c : Char) (rest : List Char) :
    (Lexeme.munch lineStart c rest).2 ≤ rest.length := by
  have htake (p : Char → Bool) : (rest.takeWhile p).length ≤ rest.length :=
    (List.takeWhile_prefix p).length_le
  fun_cases Lexeme.munch lineStart c rest with
  | case5 => exact length_scan_le 1 rest
  | case1 | case2 | case4 | case6 => exact htake _
  | case3 | case7 | case8 => exact Nat.zero_le _

/-! ## Blanks -/

theorem listFrom_blank (lineStart : Bool) (start : Position) {c : Char} (h : Text.isBlank c = true)
    (rest : List Char) :
    Lexeme.listFrom lineStart start (c :: rest) =
      ⟨.blank, start, c :: rest.takeWhile Text.isBlank⟩ ::
        Lexeme.listFrom (lineStart || (c :: rest.takeWhile Text.isBlank).contains '\n')
          (start.advance (c :: rest.takeWhile Text.isBlank)) (rest.dropWhile Text.isBlank) := by
  rw [Lexeme.listFrom, Lexeme.munch, if_pos h]
  simp only [take_takeWhile, drop_takeWhile, Lexeme.leavesLineStart, decide_true, Bool.true_and]

theorem solid_cons_blank (start : Position) (spelling : List Char) (rest : List Lexeme) :
    solid (⟨.blank, start, spelling⟩ :: rest) = solid rest := rfl

theorem contains_newline_cons (c : Char) (text : List Char) :
    (c :: text).contains '\n' = (decide (c = '\n') || text.contains '\n') := by
  simp [eq_comm]

/-- A blank in front of a text is passed over. -/
theorem solid_blank (lineStart : Bool) (start : Position) {c : Char} (h : Text.isBlank c = true)
    (rest : List Char) :
    solid (Lexeme.listFrom lineStart start (c :: rest)) =
      solid (Lexeme.listFrom (lineStart || c = '\n') (start.next c) rest) := by
  rw [listFrom_blank lineStart start h, solid_cons_blank, contains_newline_cons, ← Bool.or_assoc]
  cases rest with
  | nil => simp [Lexeme.listFrom]
  | cons d rest =>
    cases hd : Text.isBlank d with
    | true =>
      rw [listFrom_blank _ _ hd, solid_cons_blank, List.takeWhile_cons_of_pos hd,
        List.dropWhile_cons_of_pos hd]
      rfl
    | false =>
      rw [List.takeWhile_cons_of_neg (by simp [hd]), List.dropWhile_cons_of_neg (by simp [hd]),
        List.contains_nil, Bool.or_false]
      rfl

/-- So is any number of them. -/
theorem solid_blanks (lineStart : Bool) (start : Position) {blanks : List Char}
    (h : ∀ c ∈ blanks, Text.isBlank c = true) (rest : List Char) :
    solid (Lexeme.listFrom lineStart start (blanks ++ rest)) =
      solid (Lexeme.listFrom (lineStart || blanks.contains '\n') (start.advance blanks) rest) := by
  induction blanks generalizing lineStart start with
  | nil => simp [Position.advance]
  | cons c blanks ih =>
    rw [List.forall_mem_cons] at h
    rw [List.cons_append, solid_blank lineStart start h.1, ih _ _ h.2, contains_newline_cons,
      Bool.or_assoc]
    rfl

/-! ## One line after the other -/

theorem solid_cons (piece : Lexeme) (rest : List Lexeme) :
    solid (piece :: rest) = solid [piece] ++ solid rest :=
  List.filter_append [piece] rest

/-- Behind the end of a line a script is cut as if it stood alone. -/
theorem solid_newline (lineStart : Bool) (start : Position) {line : List Char} (h : '\n' ∉ line)
    (rest : List Char) :
    solid (Lexeme.listFrom lineStart start (line ++ '\n' :: rest)) =
      solid (Lexeme.listFrom lineStart start line) ++
        solid (Lexeme.listFrom true ⟨start.line + 1, 1⟩ rest) := by
  induction hlength : line.length using Nat.strong_induction_on
    generalizing line lineStart start with
  | _ length ih =>
    subst hlength
    cases line with
    | nil =>
      rw [List.nil_append, solid_blank lineStart start rfl, Lexeme.listFrom]
      simp [solid, Position.next]
    | cons c text =>
      obtain ⟨hc, htext⟩ := not_or.mp (List.mem_cons.not.mp h)
      -- A run of blanks may reach over the end of the line, so blanks go one by one. Anything else
      -- is cut off the same with and without the lines below.
      cases hblank : Text.isBlank c with
      | true =>
        rw [List.cons_append, solid_blank lineStart start hblank,
          solid_blank lineStart start hblank, ih _ (by simp) _ _ htext rfl, Position.next,
          if_neg (Ne.symm hc)]
      | false =>
        have hmunch := munch_newline lineStart hblank htext rest
        have hle := munch_le lineStart c text
        rw [List.cons_append, Lexeme.listFrom, Lexeme.listFrom, hmunch]
        generalize Lexeme.munch lineStart c text = cut at hle
        obtain ⟨hspelling, hdrop⟩ := newline_notMem_cut h cut.2
        simp only [List.take_append_of_le_length hle, List.drop_append_of_le_length hle]
        have hshort : (text.drop cut.2).length < (c :: text).length := by
          rw [List.length_drop, List.length_cons]
          omega
        rw [solid_cons, ih _ hshort _ _ hdrop rfl, solid_cons _ (Lexeme.listFrom _ _ _),
          List.append_assoc, line_advance start hspelling]

theorem solid_intercalate {lines : List (List Char)} (h : ∀ line ∈ lines, '\n' ∉ line)
    (number : Nat) :
    solid (Lexeme.listFrom true ⟨number, 1⟩ (['\n'].intercalate lines)) =
      (lines.zipIdx number).flatMap lineLexemes := by
  induction lines generalizing number with
  | nil => simp [Lexeme.listFrom, solid]
  | cons line lines ih =>
    rw [List.forall_mem_cons] at h
    rw [List.zipIdx_cons, List.flatMap_cons, ← ih h.2]
    cases lines with
    | nil => simp [lineLexemes, Lexeme.listFrom, solid]
    | cons next lines =>
      rw [List.intercalate_cons_cons, List.append_assoc]
      exact solid_newline true ⟨number, 1⟩ h.1 _

/-- Blanks apart, the lexemes of a script are those of its lines. -/
theorem solid_list (source : List Char) :
    solid (Lexeme.list source) = (numberedLines source).flatMap lineLexemes := by
  have h := solid_intercalate (fun _ (h : _ ∈ source.splitOn '\n') ↦ notMem_of_mem_splitOn h) 1
  rwa [List.intercalate_splitOn] at h

/-! ## Directive lines -/

/-- What stands behind the hash sign of a line whose first character is one, blanks apart. -/
def directiveText? (line : List Char) : Option (List Char) :=
  match Text.trimLeft line with
  | '#' :: text => some text
  | _ => none

theorem trimLeft_of_directiveText? {line text : List Char} (h : directiveText? line = some text) :
    Text.trimLeft line = '#' :: text := by
  unfold directiveText? at h
  split at h
  · next hline => rw [hline, Option.some.inj h]
  · cases h

theorem leavesLineStart_of_ne (lineStart : Bool) {shape : Shape} (h : shape ≠ .blank)
    (spelling : List Char) : Lexeme.leavesLineStart lineStart shape spelling = false := by
  simp [Lexeme.leavesLineStart, h]

/-- A hash sign makes a directive at the start of a line only. -/
theorem munch_ne_directive {lineStart : Bool} {c : Char} (rest : List Char)
    (h : lineStart = true → c ≠ '#') : (Lexeme.munch lineStart c rest).1 ≠ .directive := by
  fun_cases Lexeme.munch lineStart c rest with
  | case4 _ _ hhash =>
    rw [Bool.and_eq_true, decide_eq_true_eq] at hhash
    exact absurd hhash.1 (h hhash.2)
  | _ => simp

theorem munch_ne_blank (lineStart : Bool) {c : Char} (h : Text.isBlank c = false)
    (rest : List Char) : (Lexeme.munch lineStart c rest).1 ≠ .blank := by
  fun_cases Lexeme.munch lineStart c rest with
  | case1 hblank => simp [h] at hblank
  | _ => simp

/-- Behind anything but blanks there is no directive before the end of the line. -/
theorem shape_ne_directive {start : Position} {text : List Char} (h : '\n' ∉ text) :
    ∀ piece ∈ Lexeme.listFrom false start text, piece.shape ≠ .directive := by
  generalize hstart : false = lineStart
  fun_induction Lexeme.listFrom lineStart start text with
  | case1 => exact fun _ hpiece ↦ absurd hpiece List.not_mem_nil
  | case2 lineStart start c text shape n hmunch spelling ih =>
    subst hstart
    have hspelling : '\n' ∉ spelling := (newline_notMem_cut h n).1
    have hshape : (Lexeme.munch false c text).1 ≠ .directive := munch_ne_directive text (by simp)
    rw [hmunch] at hshape
    refine List.forall_mem_cons.mpr ⟨hshape, ih (newline_notMem_cut h n).2 ?_⟩
    simp [Lexeme.leavesLineStart, hspelling]

/-- The blanks in front of a line are passed over. -/
theorem lineLexemes_eq {line : List Char} (h : '\n' ∉ line) (number : Nat) :
    lineLexemes (line, number) =
      solid (Lexeme.listFrom true ⟨number, 1 + (line.takeWhile Text.isBlank).length⟩
        (Text.trimLeft line)) := by
  have hblanks : '\n' ∉ line.takeWhile Text.isBlank :=
    fun hmem ↦ h ((List.takeWhile_prefix _).mem hmem)
  have hblank : ∀ c ∈ line.takeWhile Text.isBlank, Text.isBlank c = true :=
    fun c hc ↦ List.mem_takeWhile_imp hc
  have hsolid := solid_blanks true ⟨number, 1⟩ hblank (line.dropWhile Text.isBlank)
  rw [List.takeWhile_append_dropWhile, Bool.true_or, line_advance _ hblanks] at hsolid
  exact hsolid

/-- A directive takes its whole line. -/
theorem lineLexemes_of_directive {line text : List Char} (h : '\n' ∉ line)
    (htext : directiveText? line = some text) (number : Nat) :
    lineLexemes (line, number) =
      [⟨.directive, ⟨number, 1 + (line.takeWhile Text.isBlank).length⟩, '#' :: text⟩] := by
  have htrim := trimLeft_of_directiveText? htext
  have hnewline : '\n' ∉ text := fun hmem ↦
    h ((List.dropWhile_suffix _).mem (htrim ▸ List.mem_cons_of_mem '#' hmem))
  have htake : text.takeWhile Lexeme.notNewline = text :=
    List.takeWhile_eq_self_iff.mpr fun c hc ↦ by
      simpa [Lexeme.notNewline] using ne_of_mem_of_not_mem hc hnewline
  rw [lineLexemes_eq h, htrim, Lexeme.listFrom]
  simp [Lexeme.munch, Text.isBlank, htake, Lexeme.listFrom, solid]

theorem lineLexemes_of_other {line : List Char} (h : '\n' ∉ line)
    (htext : directiveText? line = none) (number : Nat) :
    ∀ piece ∈ lineLexemes (line, number), piece.shape ≠ .directive := by
  rw [lineLexemes_eq h]
  intro piece hpiece
  replace hpiece := List.mem_of_mem_filter hpiece
  cases htrim : Text.trimLeft line with
  | nil =>
    rw [htrim, Lexeme.listFrom] at hpiece
    cases hpiece
  | cons c text =>
    have hnewline : '\n' ∉ c :: text := fun hmem ↦
      h ((List.dropWhile_suffix _).mem (htrim ▸ hmem))
    have hblank : Text.isBlank c = false :=
      Text.head_dropWhile _ line c (by rw [← Text.trimLeft, htrim]; rfl)
    have hhash : c ≠ '#' := by
      rintro rfl
      simp [directiveText?, htrim] at htext
    have hne := munch_ne_blank true hblank text
    have hshape : (Lexeme.munch true c text).1 ≠ .directive :=
      munch_ne_directive text fun _ ↦ hhash
    rw [htrim, Lexeme.listFrom] at hpiece
    generalize Lexeme.munch true c text = cut at hne hshape hpiece
    obtain ⟨shape, n⟩ := cut
    rcases List.mem_cons.mp hpiece with rfl | hpiece
    · exact hshape
    · rw [leavesLineStart_of_ne true hne] at hpiece
      exact shape_ne_directive (newline_notMem_cut hnewline n).2 piece hpiece

end PageScript.Script
