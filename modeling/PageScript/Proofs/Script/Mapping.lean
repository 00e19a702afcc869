import Mathlib.Data.List.Forall2
import PageScript.Proofs.Script.Lines

/-!
# What the lines of a script stand for

The line map of a script is followed from line to line: a directive that is well-formed takes over
for the lines below it, one that is not leaves the map as it is and is reported once. Nothing that a
later line does changes what stands above it, so the whole map tells of every line what the last
directive above it says.
-/

namespace PageScript.Script

/-! ## Directives in their places -/

/-- What a line makes the lines below it stand for, if it is a well-formed directive. -/
def LineSays (map : LineMap) (line : List Char × Nat) (target : Option (String × Nat)) : Prop :=
  ∃ text, directiveText? line.1 = some text ∧
    Directive.Says ((map.lookup line.2).map Prod.fst) text target

/-- Line `number` is a well-formed directive for `target`. -/
def Effective (lines : List (List Char × Nat)) (map : LineMap) (number : Nat)
    (target : Option (String × Nat)) : Prop :=
  ∃ line, (line, number) ∈ lines ∧ LineSays map (line, number) target

/-- What a line stands for by the directives above it: the last of them decides, and counts from the
line below its own. -/
inductive Resolves (effective : Nat → Option (String × Nat) → Prop) (line : Nat) :
    Option (String × Nat) → Prop where
  | unmapped : (∀ number < line, ∀ target, ¬effective number target) →
      Resolves effective line none
  | mapped {number : Nat} {target : Option (String × Nat)} :
      number < line → effective number target →
      (∀ later, number < later → later < line → ∀ other, ¬effective later other) →
      Resolves effective line
        (target.map fun place ↦ (place.1, place.2 + (line - number - 1)))

/-- The column of the first character of a line that is no blank. -/
def indent (line : List Char) : Nat := 1 + (line.takeWhile Text.isBlank).length

/-- What is reported of a line. -/
inductive Reported (map : LineMap) (line : List Char × Nat) : List SyntaxError → Prop where
  | other : directiveText? line.1 = none →
      Reported map line (Lexeme.surveyAll .empty (lineLexemes line)).2
  | wellFormed {target : Option (String × Nat)} : LineSays map line target → Reported map line []
  | malformed {text : List Char} {fault : Fault} :
      directiveText? line.1 = some text → (∀ target, ¬LineSays map line target) →
      fault.id ∈ ["KP1024", "KP1576", "KP1578"] →
      Reported map line [⟨fault, ⟨line.2, indent line.1⟩⟩]

/-! ## Surveying -/

theorem surveyAll_cons (map : LineMap) (piece : Lexeme) (rest : List Lexeme) :
    Lexeme.surveyAll map (piece :: rest) =
      ((Lexeme.surveyAll (piece.survey map).1 rest).1,
        (piece.survey map).2 ++ (Lexeme.surveyAll (piece.survey map).1 rest).2) := rfl

theorem surveyAll_append (map : LineMap) (front back : List Lexeme) :
    Lexeme.surveyAll map (front ++ back) =
      ((Lexeme.surveyAll (Lexeme.surveyAll map front).1 back).1,
        (Lexeme.surveyAll map front).2 ++
          (Lexeme.surveyAll (Lexeme.surveyAll map front).1 back).2) := by
  induction front generalizing map with
  | nil => rfl
  | cons piece front ih => simp only [List.cons_append, surveyAll_cons, ih, List.append_assoc]

/-- Blanks have no errors and no effect. -/
theorem surveyAll_solid (map : LineMap) (pieces : List Lexeme) :
    Lexeme.surveyAll map (solid pieces) = Lexeme.surveyAll map pieces := by
  induction pieces generalizing map with
  | nil => rfl
  | cons piece rest ih =>
    rw [solid_cons, surveyAll_append, surveyAll_cons, ih]
    by_cases h : piece.shape = .blank
    · simp [solid, h, Lexeme.surveyAll, Lexeme.survey]
    · simp [solid, h, Lexeme.surveyAll]

/-- What is no directive leaves the map as it is, and is reported whatever the map is. -/
theorem surveyAll_of_ne_directive (map : LineMap) {pieces : List Lexeme}
    (h : ∀ piece ∈ pieces, piece.shape ≠ .directive) :
    Lexeme.surveyAll map pieces = (map, (Lexeme.surveyAll .empty pieces).2) := by
  induction pieces with
  | nil => rfl
  | cons piece rest ih =>
    rw [List.forall_mem_cons] at h
    have hsurvey (map : LineMap) : piece.survey map = (map, (piece.survey .empty).2) := by
      cases hshape : piece.shape with
      | directive => exact absurd hshape h.1
      | _ => simp [Lexeme.survey, hshape]
    rw [surveyAll_cons, hsurvey map, ih h.2, surveyAll_cons .empty, hsurvey .empty]

theorem survey_directive (map : LineMap) (start : Position) (text : List Char) :
    Lexeme.survey map ⟨.directive, start, '#' :: text⟩ =
      match (Directive.parse text).bind (Directive.apply map start.line) with
      | .ok next => (next, [])
      | .error fault => (map, [⟨fault, start⟩]) := rfl

/-! ## Looking up a line -/

theorem lookup_of_lt {first line : Nat} (h : line < first) (target : Option (String × Nat))
    (remaps : List Remap) :
    LineMap.lookup ⟨⟨first, target⟩ :: remaps⟩ line = LineMap.lookup ⟨remaps⟩ line := by
  simp [LineMap.lookup, Nat.not_le.mpr h]

/-- A place as a map gives it: the line as a word of 32 bits. -/
def wrapped (place : String × Nat) : String × Nat := (place.1, place.2 % UInt32.size)

/-- A line below 2^32 comes through unchanged. -/
theorem wrapped_of_lt {place : String × Nat} (h : place.2 < UInt32.size) :
    wrapped place = place := by
  rw [wrapped, Nat.mod_eq_of_lt h]

theorem lookup_of_le {first line : Nat} (h : first ≤ line) (target : Option (String × Nat))
    (remaps : List Remap) :
    LineMap.lookup ⟨⟨first, target⟩ :: remaps⟩ line =
      (target.map fun place ↦ (place.1, place.2 + (line - first))).map wrapped := by
  cases target <;> simp [LineMap.lookup, wrapped, h]

/-- Files in effect have names. -/
def Named (map : LineMap) : Prop :=
  ∀ line, ∀ path ∈ (map.lookup line).map Prod.fst, path ≠ ""

/-- One line is reported, and takes over in the map if it is a well-formed directive. -/
theorem survey_line {map : LineMap} (hmap : Named map) {line : List Char} (h : '\n' ∉ line)
    (number : Nat) :
    Reported map (line, number) (Lexeme.surveyAll map (lineLexemes (line, number))).2 ∧
      ((∀ target, ¬LineSays map (line, number) target) ∧
          (Lexeme.surveyAll map (lineLexemes (line, number))).1 = map ∨
        ∃ target, LineSays map (line, number) target ∧
          (Lexeme.surveyAll map (lineLexemes (line, number))).1 =
            ⟨⟨number + 1, target⟩ :: map.remaps⟩) := by
  cases htext : directiveText? line with
  | none =>
    rw [surveyAll_of_ne_directive map (lineLexemes_of_other h htext number)]
    refine ⟨.other htext, .inl ⟨fun target htold ↦ ?_, rfl⟩⟩
    obtain ⟨text, hsome, -⟩ := htold
    rw [htext] at hsome
    cases hsome
  | some text =>
    have htold (target) : LineSays map (line, number) target ↔
        Directive.Says ((map.lookup number).map Prod.fst) text target := by
      simp [LineSays, htext]
    rw [lineLexemes_of_directive h htext, surveyAll_cons, survey_directive]
    cases hparse : (Directive.parse text).bind (Directive.apply map number) with
    | ok next =>
      obtain ⟨target, htarget, rfl⟩ := (Directive.apply_eq_ok (hmap number)).mp hparse
      rw [← htold] at htarget
      exact ⟨.wellFormed htarget, .inr ⟨target, htarget, rfl⟩⟩
    | error fault =>
      have hmalformed : ∀ target, ¬LineSays map (line, number) target := by
        intro target htarget
        rw [htold] at htarget
        have hok := (Directive.apply_eq_ok (hmap number)).mpr ⟨target, htarget, rfl⟩
        rw [hparse] at hok
        cases hok
      refine ⟨.malformed htext hmalformed ?_, .inl ⟨hmalformed, rfl⟩⟩
      rcases Directive.fault_cases hparse with rfl | rfl | rfl <;> decide

/-! ## Following a script -/

section Resolves

variable {effective effective' : Nat → Option (String × Nat) → Prop} {line : Nat}
  {place : Option (String × Nat)}

/-- Only the lines above matter. -/
theorem Resolves.congr (h : Resolves effective line place)
    (hiff : ∀ number < line, ∀ target, effective number target ↔ effective' number target) :
    Resolves effective' line place := by
  cases h with
  | unmapped hnone =>
    exact .unmapped fun number hnumber target ↦
      (hiff number hnumber target).not.mp (hnone number hnumber target)
  | mapped hnumber htarget hlast =>
    exact .mapped hnumber ((hiff _ hnumber _).mp htarget) fun later hlater hline other ↦
      (hiff later hline other).not.mp (hlast later hlater hline other)

/-- If each line above says one thing only, there is one thing that a line stands for. -/
theorem Resolves.unique {place' : Option (String × Nat)} (h : Resolves effective line place)
    (h' : Resolves effective line place')
    (hunique : ∀ number first second, effective number first → effective number second →
      first = second) : place = place' := by
  cases h with
  | unmapped hnone =>
    cases h' with
    | unmapped => rfl
    | mapped hnumber htarget => exact absurd htarget (hnone _ hnumber _)
  | @mapped number _ hnumber htarget hlast =>
    cases h' with
    | unmapped hnone => exact absurd htarget (hnone _ hnumber _)
    | @mapped number' _ hnumber' htarget' hlast' =>
      rcases Nat.lt_trichotomy number number' with hlt | rfl | hlt
      · exact absurd htarget' (hlast _ hlt hnumber' _)
      · rw [hunique _ _ _ htarget htarget']
      · exact absurd htarget (hlast' _ hlt hnumber _)

/-- The map gives the place that a line stands for, but for the width of a line number. -/
def ResolvedBy (map : LineMap) (effective : Nat → Option (String × Nat) → Prop) (line : Nat) :
    Prop :=
  ∃ place, Resolves effective line place ∧ map.lookup line = place.map wrapped

variable {map : LineMap}

theorem ResolvedBy.lookup_eq (h : ResolvedBy map effective line)
    (hunique : ∀ number first second, effective number first → effective number second →
      first = second) (hplace : Resolves effective line place) :
    map.lookup line = place.map wrapped := by
  obtain ⟨own, hown, hlookup⟩ := h
  rw [hlookup, hown.unique hplace hunique]

/-- The width does not matter for a place that has a line below 2^32. -/
theorem ResolvedBy.lookup_eq_iff (h : ResolvedBy map effective line)
    (hunique : ∀ number first second, effective number first → effective number second →
      first = second)
    (hword : ∀ file number, Resolves effective line (some (file, number)) → number < UInt32.size)
    (place : Option (String × Nat)) :
    map.lookup line = place ↔ Resolves effective line place := by
  obtain ⟨own, hown, hlookup⟩ := h
  have hwhole : own.map wrapped = own := by
    cases own with
    | none => rfl
    | some own => exact congrArg some (wrapped_of_lt (hword own.1 own.2 hown))
  rw [hlookup, hwhole]
  exact ⟨fun heq ↦ heq ▸ hown, fun hplace ↦ hown.unique hplace hunique⟩

end Resolves

theorem effective_unique {source : List Char} {map : LineMap} {number : Nat}
    {first second : Option (String × Nat)}
    (h : Effective (numberedLines source) map number first)
    (h' : Effective (numberedLines source) map number second) : first = second := by
  obtain ⟨line, hline, text, htext, htold⟩ := h
  obtain ⟨line', hline', text', htext', htold'⟩ := h'
  obtain rfl : line = line' :=
    (List.mem_zipIdx hline).2.2.trans (List.mem_zipIdx hline').2.2.symm
  obtain rfl : text = text' := Option.some.inj (htext.symm.trans htext')
  exact htold.unique htold'

/-- How far a script has been followed: what is known behind lines with numbers below `next`. -/
structure Followed (lines : List (List Char × Nat)) (next : Nat) (map : LineMap)
    (errors : List SyntaxError) : Prop where
  bounded : ∀ line ∈ lines, line.2 < next
  named : Named map
  resolves : ∀ line, ResolvedBy map (Effective lines map) line
  reported : ∃ reports, errors = reports.flatten ∧ List.Forall₂ (Reported map) lines reports

theorem followed_nil (next : Nat) : Followed [] next .empty [] where
  bounded := by simp
  named := by simp [Named, LineMap.lookup, LineMap.empty]
  resolves line :=
    ⟨none, .unmapped fun number _ target ⟨_, hline, _⟩ ↦ absurd hline List.not_mem_nil, rfl⟩
  reported := ⟨[], rfl, .nil⟩

/-- What a line says depends on the map only by the file in effect there. -/
theorem LineSays.congr {map map' : LineMap} {line : List Char × Nat}
    (h : map'.lookup line.2 = map.lookup line.2) (target : Option (String × Nat)) :
    LineSays map' line target ↔ LineSays map line target := by
  rw [LineSays, LineSays, h]

theorem Reported.congr {map map' : LineMap} {line : List Char × Nat} {errors : List SyntaxError}
    (hlookup : map'.lookup line.2 = map.lookup line.2) (h : Reported map line errors) :
    Reported map' line errors := by
  cases h with
  | other htext => exact .other htext
  | wellFormed htold => exact .wellFormed ((LineSays.congr hlookup _).mpr htold)
  | malformed htext hnone hfault =>
    exact .malformed htext (fun target ↦ (LineSays.congr hlookup target).not.mpr (hnone target))
      hfault

theorem forall₂_reported_congr {map map' : LineMap} {lines : List (List Char × Nat)}
    {reports : List (List SyntaxError)}
    (hlookup : ∀ line ∈ lines, map'.lookup line.2 = map.lookup line.2)
    (h : List.Forall₂ (Reported map) lines reports) :
    List.Forall₂ (Reported map') lines reports := by
  induction h with
  | nil => exact .nil
  | cons hline _ ih =>
    rw [List.forall_mem_cons] at hlookup
    exact .cons (hline.congr hlookup.1) (ih hlookup.2)

theorem LineSays.path_ne {map : LineMap} (hmap : Named map) {line : List Char × Nat}
    {path : String} {target : Nat} (h : LineSays map line (some (path, target))) : path ≠ "" := by
  obtain ⟨text, -, htold⟩ := h
  cases htold with
  | named _ hne => exact hne
  | bare _ heffect => exact hmap line.2 path heffect

section Step

variable {lines : List (List Char × Nat)} {next : Nat} {map map' : LineMap}
  {errors : List SyntaxError} {line : List Char}

/-- One more line adds what it says itself, as long as it changes nothing above. -/
theorem effective_concat (hbounded : ∀ line ∈ lines, line.2 < next)
    (hagree : ∀ number ≤ next, map'.lookup number = map.lookup number) {number : Nat}
    {target : Option (String × Nat)} :
    Effective (lines ++ [(line, next)]) map' number target ↔
      Effective lines map number target ∨ number = next ∧ LineSays map (line, next) target := by
  constructor
  · rintro ⟨other, hmem, htold⟩
    rcases List.mem_append.mp hmem with hmem | hmem
    · exact .inl ⟨other, hmem, (LineSays.congr (hagree _ (hbounded _ hmem).le) _).mp htold⟩
    · cases List.mem_singleton.mp hmem
      exact .inr ⟨rfl, (LineSays.congr (hagree _ le_rfl) _).mp htold⟩
  · rintro (⟨other, hmem, htold⟩ | ⟨rfl, htold⟩)
    · exact ⟨other, List.mem_append_left _ hmem,
        (LineSays.congr (hagree _ (hbounded _ hmem).le) _).mpr htold⟩
    · exact ⟨line, by simp, (LineSays.congr (hagree _ le_rfl) _).mpr htold⟩

theorem Followed.reported_concat (h : Followed lines next map errors)
    (hagree : ∀ number ≤ next, map'.lookup number = map.lookup number)
    {more : List SyntaxError} (hline : Reported map (line, next) more) :
    ∃ reports, errors ++ more = reports.flatten ∧
      List.Forall₂ (Reported map') (lines ++ [(line, next)]) reports := by
  obtain ⟨reports, rfl, hreports⟩ := h.reported
  have hfront := forall₂_reported_congr (fun line hmem ↦ hagree _ (h.bounded line hmem).le) hreports
  have hlast : Reported map' (line, next) more := hline.congr (hagree next le_rfl)
  exact ⟨reports ++ [more], by simp, List.rel_append hfront (.cons hlast .nil)⟩

/-- A line that is no well-formed directive changes nothing. -/
theorem Followed.resolves_of_not (h : Followed lines next map errors)
    (hnone : ∀ target, ¬LineSays map (line, next) target) (number : Nat) :
    ResolvedBy map (Effective (lines ++ [(line, next)]) map) number := by
  obtain ⟨place, hplace, hlookup⟩ := h.resolves number
  refine ⟨place, hplace.congr fun above _ target ↦ ?_, hlookup⟩
  rw [effective_concat h.bounded fun _ _ ↦ rfl]
  simp [hnone]

/-- A well-formed directive decides for the lines below it, up to the end. -/
theorem Followed.resolves_of_directive (h : Followed lines next map errors)
    {target : Option (String × Nat)} (htold : LineSays map (line, next) target) (number : Nat) :
    ResolvedBy ⟨⟨next + 1, target⟩ :: map.remaps⟩
      (Effective (lines ++ [(line, next)]) ⟨⟨next + 1, target⟩ :: map.remaps⟩) number := by
  have hagree : ∀ number ≤ next,
      LineMap.lookup ⟨⟨next + 1, target⟩ :: map.remaps⟩ number = map.lookup number :=
    fun number hnumber ↦ lookup_of_lt (by omega) target map.remaps
  rcases Nat.lt_or_ge next number with hnumber | hnumber
  · have hbelow : next + 1 ≤ number := hnumber
    refine ⟨_, .mapped hnumber ((effective_concat h.bounded hagree).mpr (.inr ⟨rfl, htold⟩)) ?_,
      lookup_of_le hbelow target map.remaps⟩
    rintro later hlater - other heffective
    rcases (effective_concat h.bounded hagree).mp heffective with ⟨_, hmem, -⟩ | ⟨rfl, -⟩
    · exact absurd hlater (h.bounded _ hmem).le.not_gt
    · exact absurd hlater (lt_irrefl _)
  · obtain ⟨place, hplace, hlookup⟩ := h.resolves number
    refine ⟨place, hplace.congr fun above habove other ↦ ?_, (hagree number hnumber).trans hlookup⟩
    rw [effective_concat h.bounded hagree]
    have hne : above ≠ next := by omega
    simp [hne]

theorem Followed.bounded_concat (h : Followed lines next map errors) :
    ∀ other ∈ lines ++ [(line, next)], other.2 < next + 1 := by
  intro other hmem
  rcases List.mem_append.mp hmem with hmem | hmem
  · exact Nat.lt_succ_of_lt (h.bounded other hmem)
  · rw [List.mem_singleton.mp hmem]
    exact Nat.lt_succ_self next

/-- One line after the other. -/
theorem Followed.step (h : Followed lines next map errors) (hline : '\n' ∉ line) :
    Followed (lines ++ [(line, next)]) (next + 1)
      (Lexeme.surveyAll map (lineLexemes (line, next))).1
      (errors ++ (Lexeme.surveyAll map (lineLexemes (line, next))).2) := by
  -- A remap of the next line is out of sight for every line up to this one.
  obtain ⟨hreported, ⟨hnone, hmap⟩ | ⟨target, htold, hmap⟩⟩ := survey_line h.named hline next
  · rw [hmap]
    exact ⟨h.bounded_concat, h.named, h.resolves_of_not hnone,
      h.reported_concat (fun _ _ ↦ rfl) hreported⟩
  · rw [hmap]
    refine ⟨h.bounded_concat, fun number path hpath ↦ ?_, h.resolves_of_directive htold,
      h.reported_concat (fun number hnumber ↦ lookup_of_lt (by omega) target map.remaps) hreported⟩
    rcases Nat.lt_or_ge next number with hnumber | hnumber
    · rw [lookup_of_le hnumber target map.remaps, Option.map_map, Option.map_map] at hpath
      obtain ⟨place, rfl, rfl⟩ := Option.map_eq_some_iff.mp hpath
      exact htold.path_ne h.named
    · rw [lookup_of_lt (Nat.lt_succ_of_le hnumber) target map.remaps] at hpath
      exact h.named number path hpath

end Step

/-- The survey of a whole script, line by line. -/
theorem followed_lines {lines : List (List Char)} (h : ∀ line ∈ lines, '\n' ∉ line) :
    Followed (lines.zipIdx 1) (lines.length + 1)
      (Lexeme.surveyAll .empty ((lines.zipIdx 1).flatMap lineLexemes)).1
      (Lexeme.surveyAll .empty ((lines.zipIdx 1).flatMap lineLexemes)).2 := by
  induction lines using List.reverseRecOn with
  | nil => exact followed_nil 1
  | append_singleton lines line ih =>
    rw [List.forall_mem_append, List.forall_mem_singleton] at h
    have hstep := (ih h.1).step h.2
    rw [List.zipIdx_append, List.length_append, List.flatMap_append, surveyAll_append,
      Nat.add_comm 1]
    simpa using hstep

/-! ## Directives of a script -/

def lineTokens (line : List Char × Nat) : List Token := (lineLexemes line).filterMap Lexeme.token?

/-- The directive that a line is. -/
def directive? (line : List Char × Nat) : Option Lexeme :=
  (directiveText? line.1).map fun text ↦ ⟨.directive, ⟨line.2, indent line.1⟩, '#' :: text⟩

/-- How the lines of a script are read, each for itself but for the files that it stands for. -/
structure Directed (source : List Char) (lexed : Lexed) : Prop where
  directives : (Lexeme.list source).filter (·.shape = .directive) =
    (numberedLines source).filterMap directive?
  tokens : lexed.tokens = (numberedLines source).flatMap lineTokens
  silent : ∀ line ∈ numberedLines source, directive? line ≠ none → lineTokens line = []
  reported : ∃ reports, lexed.errors = reports.flatten ∧
    List.Forall₂ (Reported lexed.lineMap) (numberedLines source) reports
  /-- The map tells what a line stands for, if this is a line below 2^32. -/
  resolves : ∀ line, (∀ file number, Resolves (Effective (numberedLines source) lexed.lineMap) line
      (some (file, number)) → number < UInt32.size) →
    ∀ place, lexed.lineMap.lookup line = place ↔
      Resolves (Effective (numberedLines source) lexed.lineMap) line place
  /-- Beyond that the file is still the right one, and lines start over. -/
  wraps : ∀ line place, Resolves (Effective (numberedLines source) lexed.lineMap) line place →
    lexed.lineMap.lookup line = place.map wrapped

theorem mem_numberedLines {source : List Char} {line : List Char × Nat}
    (h : line ∈ numberedLines source) : '\n' ∉ line.1 :=
  notMem_of_mem_splitOn (List.fst_mem_of_mem_zipIdx h)

theorem filter_directive {line : List Char × Nat} (h : '\n' ∉ line.1) :
    (lineLexemes line).filter (·.shape = .directive) = (directive? line).toList := by
  cases htext : directiveText? line.1 with
  | some text =>
    rw [directive?, htext, lineLexemes_of_directive h htext]
    rfl
  | none =>
    rw [directive?, htext, Option.map_none, Option.toList_none, List.filter_eq_nil_iff]
    simpa using lineLexemes_of_other h htext line.2

theorem lineTokens_of_directive {line : List Char × Nat} (h : '\n' ∉ line.1)
    (hdirective : directive? line ≠ none) : lineTokens line = [] := by
  obtain ⟨text, htext⟩ := Option.ne_none_iff_exists'.mp (mt Option.map_eq_none_iff.mpr hdirective)
  rw [lineTokens, lineLexemes_of_directive h htext]
  rfl

theorem filter_directive_solid (pieces : List Lexeme) :
    (solid pieces).filter (·.shape = .directive) = pieces.filter (·.shape = .directive) := by
  rw [solid, List.filter_filter]
  refine List.filter_congr fun piece _ ↦ ?_
  cases piece.shape <;> rfl

theorem filterMap_solid (pieces : List Lexeme) :
    (solid pieces).filterMap Lexeme.token? = pieces.filterMap Lexeme.token? := by
  induction pieces with
  | nil => rfl
  | cons piece rest ih =>
    rw [solid_cons, List.filterMap_append, ih, List.filterMap_cons]
    obtain ⟨shape, start, spelling⟩ := piece
    cases shape <;> rfl

/-- Directives act line by line, and map what stands below them. -/
theorem directed_lex (source : String) : Directed source.toList (lex source) := by
  have hsolid := solid_list source.toList
  have hfollowed := followed_lines fun _ (h : _ ∈ source.toList.splitOn '\n') ↦
    notMem_of_mem_splitOn h
  rw [← numberedLines, ← hsolid, surveyAll_solid] at hfollowed
  have hlines : ∀ line ∈ numberedLines source.toList, '\n' ∉ line.1 := fun _ ↦ mem_numberedLines
  refine ⟨?_, ?_, fun line hline ↦ lineTokens_of_directive (hlines line hline),
    hfollowed.reported,
    fun line hword ↦ (hfollowed.resolves line).lookup_eq_iff (fun _ _ _ ↦ effective_unique) hword,
    fun line _ hplace ↦ (hfollowed.resolves line).lookup_eq (fun _ _ _ ↦ effective_unique) hplace⟩
  · rw [← filter_directive_solid, hsolid, List.filter_flatMap, List.filterMap_eq_flatMap_toList]
    exact List.flatMap_congr fun line hline ↦ filter_directive (hlines line hline)
  · calc (lex source).tokens = (Lexeme.list source.toList).filterMap Lexeme.token? := rfl
      _ = (solid (Lexeme.list source.toList)).filterMap Lexeme.token? := (filterMap_solid _).symm
      _ = (numberedLines source.toList).flatMap lineTokens := by
        rw [hsolid, List.filterMap_flatMap]
        rfl

-- A quote that none closes hides no directive, and a number alone keeps to the file.
example : (lex "  #line 10 \"home\"\n\"open\n#line 3\nx").lineMap.lookup 4 = some ("home", 3) := by
  decide +kernel

-- Lines of files start over where a word of 32 bits ends.
example : (lex "#line 4294967295 \"home\"\nx\ny").lineMap.lookup 3 = some ("home", 0) := by
  decide +kernel

end PageScript.Script
