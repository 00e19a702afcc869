import Mathlib.Data.List.Basic
import Mathlib.Data.List.TakeWhile
import PageScript.Script.LineMap

/-!
# The grammar of directives

What stands behind the hash sign of a directive is described as a concatenation of its parts.
Trimming and cutting at blanks finds exactly these parts, so a text is read as a directive if and
only if it is spelled as one. A directive that is not well-formed has one of three faults.
-/

namespace PageScript.Text

def Blanks (text : List Char) : Prop := ∀ c ∈ text, isBlank c = true

/-- No blank at either end. -/
structure Trimmed (text : List Char) : Prop where
  front : ∀ c ∈ text.head?, isBlank c = false
  back : ∀ c ∈ text.getLast?, isBlank c = false

theorem head_dropWhile (p : Char → Bool) (text : List Char) :
    ∀ c ∈ (text.dropWhile p).head?, p c = false := by
  intro c hc
  have h := List.head?_dropWhile_not p text
  rw [Option.mem_def.mp hc] at h
  exact h

theorem trimLeft_append {blanks text : List Char} (hblanks : Blanks blanks)
    (htext : ∀ c ∈ text.head?, isBlank c = false) : trimLeft (blanks ++ text) = text := by
  rw [trimLeft, List.dropWhile_append_of_pos hblanks]
  cases text with
  | nil => rfl
  | cons c text => exact List.dropWhile_cons_of_neg (by simp [htext c rfl])

theorem trimRight_append {blanks text : List Char} (hblanks : Blanks blanks)
    (htext : ∀ c ∈ text.getLast?, isBlank c = false) : trimRight (text ++ blanks) = text := by
  have hblanks : Blanks blanks.reverse := fun c hc ↦ hblanks c (List.mem_reverse.mp hc)
  have h : trimLeft (blanks.reverse ++ text.reverse) = text.reverse :=
    trimLeft_append hblanks (by rwa [List.head?_reverse])
  rw [← List.reverse_append, trimLeft] at h
  rw [trimRight, h, List.reverse_reverse]

/-- Blanks on both sides are cut off, and no more than these. -/
theorem trim_append {front text back : List Char} (hfront : Blanks front) (hback : Blanks back)
    (htext : Trimmed text) (hne : text ≠ []) : trim (front ++ text ++ back) = text := by
  rw [trim, List.append_assoc, trimLeft_append hfront, trimRight_append hback htext.back]
  obtain ⟨c, more, rfl⟩ := List.exists_cons_of_ne_nil hne
  exact htext.front

theorem trim_of_front {front text : List Char} (hfront : Blanks front) (htext : Trimmed text)
    (hne : text ≠ []) : trim (front ++ text) = text := by
  have h := trim_append hfront (by simp [Blanks] : Blanks []) htext hne
  rwa [List.append_nil] at h

theorem exists_trimLeft (text : List Char) :
    ∃ blanks, Blanks blanks ∧ text = blanks ++ trimLeft text :=
  ⟨text.takeWhile isBlank, fun _ hc ↦ List.mem_takeWhile_imp hc,
    List.takeWhile_append_dropWhile.symm⟩

theorem exists_trimRight (text : List Char) :
    ∃ blanks, Blanks blanks ∧ text = trimRight text ++ blanks := by
  obtain ⟨blanks, hblanks, htext⟩ := exists_trimLeft text.reverse
  refine ⟨blanks.reverse, fun c hc ↦ hblanks c (List.mem_reverse.mp hc), ?_⟩
  rw [trimRight, ← trimLeft, ← List.reverse_append, ← htext, List.reverse_reverse]

/-- What is cut off on both sides are blanks. -/
theorem exists_trim (text : List Char) :
    ∃ front back, Blanks front ∧ Blanks back ∧ text = front ++ trim text ++ back := by
  obtain ⟨front, hfront, hleft⟩ := exists_trimLeft text
  obtain ⟨back, hback, hright⟩ := exists_trimRight (trimLeft text)
  exact ⟨front, back, hfront, hback, by rw [List.append_assoc, trim, ← hright, ← hleft]⟩

theorem getLast_trim (text : List Char) : ∀ c ∈ (trim text).getLast?, isBlank c = false := by
  rw [trim, trimRight, List.getLast?_reverse]
  exact head_dropWhile _ _

theorem cutAtBlank_append {front : List Char} (h : ∀ c ∈ front, isBlank c = false)
    (text : List Char) :
    cutAtBlank (front ++ text) = (front ++ (cutAtBlank text).1, (cutAtBlank text).2) := by
  induction front with
  | nil => rfl
  | cons c front ih =>
    rw [List.forall_mem_cons] at h
    rw [List.cons_append, cutAtBlank, h.1, ih h.2]
    rfl

theorem cutAtBlank_of_forall {text : List Char} (h : ∀ c ∈ text, isBlank c = false) :
    cutAtBlank text = (text, none) := by
  simpa [cutAtBlank] using cutAtBlank_append h []

/-- A text is cut at its first blank, which is lost. -/
theorem cutAtBlank_cons {front : List Char} {blank : Char} (h : ∀ c ∈ front, isBlank c = false)
    (hblank : isBlank blank = true) (behind : List Char) :
    cutAtBlank (front ++ blank :: behind) = (front, some behind) := by
  rw [cutAtBlank_append h, cutAtBlank, if_pos hblank, List.append_nil]

/-- A text without blanks is one word, any other is a word, a blank and what follows. -/
theorem cutAtBlank_cases (text : List Char) :
    cutAtBlank text = (text, none) ∨
      ∃ front blank behind, isBlank blank = true ∧ text = front ++ blank :: behind ∧
        cutAtBlank text = (front, some behind) := by
  have htext := List.takeWhile_append_dropWhile (p := (!isBlank ·)) (l := text)
  have hfront : ∀ c ∈ text.takeWhile (!isBlank ·), isBlank c = false :=
    fun c hc ↦ by simpa using List.mem_takeWhile_imp hc
  have hhead := head_dropWhile (!isBlank ·) text
  cases hbehind : text.dropWhile (!isBlank ·) with
  | nil =>
    rw [hbehind, List.append_nil] at htext
    exact .inl (cutAtBlank_of_forall (htext ▸ hfront))
  | cons blank behind =>
    rw [hbehind] at htext hhead
    have hblank : isBlank blank = true := by simpa using hhead blank rfl
    have hcut := cutAtBlank_cons hfront hblank behind
    rw [htext] at hcut
    exact .inr ⟨_, blank, behind, hblank, htext.symm, hcut⟩

end PageScript.Text

namespace PageScript.Script

open Text

/-! ## The grammar -/

/-- The digits of a decimal number below 2^32. -/
structure Digits (text : List Char) (number : Nat) : Prop where
  nonempty : text ≠ []
  isDigit : ∀ c ∈ text, c.isDigit = true
  value : number = Nat.ofDigitChars 10 text 0
  small : number < UInt32.size

/-- A plus sign may stand in front of a number. -/
inductive Numeral : List Char → Nat → Prop where
  | plain {digits : List Char} {number : Nat} : Digits digits number → Numeral digits number
  | signed {digits : List Char} {number : Nat} :
      Digits digits number → Numeral ('+' :: digits) number

namespace Directive

/-- What stands behind the word of a directive. A path is in quotes and may hold anything. -/
inductive Argument : List Char → Directive → Prop where
  | reset : Argument "default".toList .reset
  | bare {number : List Char} {target : Nat} :
      Numeral number target → Argument number (.remap target none)
  | named {number gap path : List Char} {target : Nat} :
      Numeral number target → Blanks gap → gap ≠ [] →
      Argument (number ++ gap ++ ('"' :: (path ++ ['"'])))
        (.remap target (some (String.ofList path)))

/-- How a directive is written behind its hash sign, with blanks around its parts. -/
inductive Spelled : List Char → Directive → Prop where
  | line {front gap argument back : List Char} {directive : Directive} :
      Blanks front → Blanks gap → gap ≠ [] → Argument argument directive → Blanks back →
      Spelled (front ++ ("line".toList ++ gap ++ argument) ++ back) directive

/-- What the lines below a directive stand for. A number alone keeps to the file that the line of
the directive stands for itself. -/
inductive Says (inEffect : Option String) (text : List Char) : Option (String × Nat) → Prop where
  | reset : Spelled text .reset → Says inEffect text none
  | named {path : String} {target : Nat} :
      Spelled text (.remap target (some path)) → path ≠ "" →
      Says inEffect text (some (path, target))
  | bare {path : String} {target : Nat} :
      Spelled text (.remap target none) → inEffect = some path →
      Says inEffect text (some (path, target))

end Directive

/-! ## Reading the parts -/

/-- Digits are read as a number below 2^32, leading zeros included. -/
theorem digits_iff {digits : List Char} {number : Nat} :
    (if digits.isEmpty || !digits.all Char.isDigit then none
      else if Nat.ofDigitChars 10 digits 0 < UInt32.size then some (Nat.ofDigitChars 10 digits 0)
      else none) = some number ↔ Digits digits number := by
  constructor
  · intro h
    split at h
    · cases h
    · next hdigits =>
      simp only [Bool.or_eq_true, Bool.not_eq_true', not_or, Bool.not_eq_false,
        List.isEmpty_iff, List.all_eq_true] at hdigits
      split at h
      · next hsmall =>
        obtain rfl := Option.some.inj h
        exact ⟨hdigits.1, hdigits.2, rfl, hsmall⟩
      · cases h
  · rintro ⟨hne, hdigits, rfl, hsmall⟩
    rw [if_neg (by simpa [hne] using hdigits), if_pos hsmall]

/-- A sign is no digit, so that a sign in front of a number is seen. -/
theorem Digits.head_ne_sign {text : List Char} {number : Nat} (h : Digits text number)
    (rest : List Char) : text ≠ '+' :: rest := by
  rintro rfl
  cases h.isDigit '+' List.mem_cons_self

/-- A line number is read exactly if it is a numeral of the grammar. -/
theorem lineNumber?_eq_some {text : List Char} {number : Nat} :
    Directive.lineNumber? text = some number ↔ Numeral text number := by
  unfold Directive.lineNumber?
  split
  · next digits =>
    refine Iff.trans digits_iff ⟨.signed, fun h ↦ ?_⟩
    cases h with
    | plain h => exact absurd rfl (h.head_ne_sign digits)
    | signed h => exact h
  · next hsign =>
    refine Iff.trans digits_iff ⟨.plain, fun h ↦ ?_⟩
    cases h with
    | plain h => exact h
    | signed h => exact absurd rfl (hsign _)

/-- A path is whatever stands between the first and the last quote, quotes included. -/
theorem unquote?_eq_some {text : List Char} {path : String} :
    Directive.unquote? text = some path ↔ text = '"' :: (path.toList ++ ['"']) := by
  unfold Directive.unquote?
  constructor
  · intro h
    split at h
    · next hquoted =>
      obtain ⟨hlength, hhead, hlast⟩ := hquoted
      obtain rfl := Option.some.inj h
      obtain ⟨more, rfl⟩ := List.head?_eq_some_iff.mp hhead
      have hmore : more ≠ [] := by
        rintro rfl
        simp at hlength
      rw [List.getLast?_cons_of_ne_nil hmore] at hlast
      obtain ⟨path, rfl⟩ := List.getLast?_eq_some_iff.mp hlast
      rw [List.tail_cons, List.dropLast_concat, String.toList_ofList]
    · cases h
  · rintro rfl
    rw [if_pos ⟨by simp, rfl, by rw [← List.cons_append, List.getLast?_concat]⟩, List.tail_cons,
      List.dropLast_concat, String.ofList_toList]

theorem isBlank_eq_false_of_isDigit {c : Char} (h : c.isDigit = true) : isBlank c = false := by
  simp only [Char.isDigit, Bool.and_eq_true, decide_eq_true_eq, ge_iff_le,
    UInt32.le_iff_toNat_le] at h
  have hcode : 48 ≤ c.toNat ∧ c.toNat ≤ 57 := h
  by_contra hblank
  simp only [Bool.not_eq_false, isBlank, Bool.or_eq_true, Bool.and_eq_true, decide_eq_true_eq,
    beq_iff_eq] at hblank
  omega

namespace Numeral

variable {text : List Char} {number : Nat}

theorem ne_nil (h : Numeral text number) : text ≠ [] := by
  cases h with
  | plain h => exact h.nonempty
  | signed => exact List.cons_ne_nil _ _

/-- A numeral is one word. -/
theorem notBlank (h : Numeral text number) : ∀ c ∈ text, isBlank c = false := by
  cases h with
  | plain h => exact fun c hc ↦ isBlank_eq_false_of_isDigit (h.isDigit c hc)
  | signed h =>
    exact List.forall_mem_cons.mpr
      ⟨rfl, fun c hc ↦ isBlank_eq_false_of_isDigit (h.isDigit c hc)⟩

/-- What starts with a number is not the word `default`. -/
theorem append_ne_default (h : Numeral text number) (rest : List Char) :
    text ++ rest ≠ "default".toList := by
  intro hdefault
  cases h with
  | signed h => cases hdefault
  | plain h =>
    obtain ⟨c, more, rfl⟩ := List.exists_cons_of_ne_nil h.nonempty
    obtain rfl : c = 'd' := (List.cons.inj hdefault).1
    cases h.isDigit 'd' List.mem_cons_self

end Numeral

/-! ## Reading a directive -/

namespace Directive

/-- What is read of the text behind the word of a directive. -/
def readArgument (argument : List Char) : Except Fault Directive :=
  if argument = "default".toList then .ok .reset
  else
    match lineNumber? (cutAtBlank argument).1 with
    | none => .error .badLineNumber
    | some target =>
      match (cutAtBlank argument).2 with
      | none => .ok (.remap target none)
      | some path =>
        match unquote? (trim path) with
        | none => .error .quotedPathExpected
        | some path => .ok (.remap target (some path))

/-- Reading a directive comes down to reading its argument if it has the right name. -/
theorem parse_eq (text : List Char) :
    parse text =
      if (cutAtBlank (trim text)).1 = "line".toList then
        readArgument (trim ((cutAtBlank (trim text)).2.getD []))
      else .error .unknownDirective := by
  by_cases h : (cutAtBlank (trim text)).1 = "line".toList
  · simp only [parse, h, ne_eq, not_true_eq_false, if_false, if_true]
    rfl
  · simp only [parse, h, ne_eq, not_false_eq_true, if_false, if_true]
    rfl

/-- There are three ways for a directive to be malformed. -/
theorem fault_of_parse {text : List Char} {fault : Fault} (h : parse text = .error fault) :
    fault = .unknownDirective ∨ fault = .badLineNumber ∨ fault = .quotedPathExpected := by
  rw [parse_eq] at h
  split at h
  · rw [readArgument] at h
    repeat' split at h
    all_goals cases h
    · exact .inr (.inl rfl)
    · exact .inr (.inr rfl)
  · cases h
    exact .inl rfl

/-- A directive that can be read fails only for want of a file in effect. -/
theorem fault_of_apply {map : LineMap} {line : Nat} {directive : Directive} {fault : Fault}
    (h : directive.apply map line = .error fault) : fault = .quotedPathExpected := by
  cases directive with
  | reset => cases h
  | remap target path =>
    rw [apply] at h
    split at h <;> cases h
    rfl

/-- What can be wrong with a directive. -/
theorem fault_cases {map : LineMap} {line : Nat} {text : List Char} {fault : Fault}
    (h : (parse text).bind (apply map line) = .error fault) :
    fault = .unknownDirective ∨ fault = .badLineNumber ∨ fault = .quotedPathExpected := by
  cases hparse : parse text with
  | error fault =>
    rw [hparse] at h
    cases h
    exact fault_of_parse hparse
  | ok directive =>
    rw [hparse] at h
    exact .inr (.inr (fault_of_apply h))

theorem Argument.trimmed {argument : List Char} {directive : Directive}
    (h : Argument argument directive) : Trimmed argument ∧ argument ≠ [] := by
  cases h with
  | reset => exact ⟨⟨by rintro _ ⟨⟩; rfl, by rintro _ ⟨⟩; rfl⟩, by simp⟩
  | bare hnumber =>
    exact ⟨⟨fun c hc ↦ hnumber.notBlank c (List.mem_of_mem_head? hc),
      fun c hc ↦ hnumber.notBlank c (List.mem_of_mem_getLast? hc)⟩, hnumber.ne_nil⟩
  | @named number gap path target hnumber hgap hne =>
    refine ⟨⟨?_, ?_⟩, by simp⟩
    · obtain ⟨c, more, rfl⟩ := List.exists_cons_of_ne_nil hnumber.ne_nil
      simpa using hnumber.notBlank c List.mem_cons_self
    · rw [List.append_cons, ← List.append_assoc, List.getLast?_concat]
      rintro _ ⟨⟩
      rfl

theorem trimmed_quoted (path : List Char) : Trimmed ('"' :: (path ++ ['"'])) := by
  refine ⟨by simp; rfl, ?_⟩
  rw [← List.cons_append, List.getLast?_concat]
  rintro _ ⟨⟩
  rfl

/-- An argument without blanks behind it is read if it is one. -/
theorem readArgument_eq_ok {argument : List Char} {directive : Directive}
    (hlast : ∀ c ∈ argument.getLast?, isBlank c = false) :
    readArgument argument = .ok directive ↔ Argument argument directive := by
  constructor
  · intro h
    unfold readArgument at h
    split at h
    · next hdefault =>
      cases h
      exact hdefault ▸ .reset
    split at h
    · cases h
    next target hnumber =>
    rw [lineNumber?_eq_some] at hnumber
    rcases cutAtBlank_cases argument with hcut | ⟨number, blank, behind, hblank, rfl, hcut⟩
    · rw [hcut] at h hnumber
      cases h
      exact .bare hnumber
    · rw [hcut] at h hnumber
      dsimp only at h hnumber
      split at h
      · cases h
      next path hpath =>
      cases h
      obtain ⟨front, back, hfront, hback, hbehind⟩ := exists_trim behind
      rw [unquote?_eq_some.mp hpath] at hbehind
      -- The argument ends with the quote, for no blank stands behind it.
      obtain rfl : back = [] := by
        rcases List.eq_nil_or_concat' back with rfl | ⟨back, c, rfl⟩
        · rfl
        · have hsplit : number ++ blank :: behind =
              number ++ blank :: (front ++ ('"' :: (path.toList ++ ['"'])) ++ back) ++ [c] := by
            simp [hbehind]
          have hc := hback c (by simp)
          rw [hlast c (by rw [hsplit, List.getLast?_concat]; rfl)] at hc
          cases hc
      have hgap : Blanks (blank :: front) := List.forall_mem_cons.mpr ⟨hblank, hfront⟩
      have hnamed : Argument (number ++ (blank :: front) ++ ('"' :: (path.toList ++ ['"'])))
          (.remap target (some (String.ofList path.toList))) :=
        .named hnumber hgap (List.cons_ne_nil _ _)
      rw [String.ofList_toList] at hnamed
      rw [hbehind, List.append_nil]
      simpa using hnamed
  · intro h
    cases h with
    | reset => rfl
    | bare hnumber =>
      have hdefault := hnumber.append_ne_default []
      rw [List.append_nil] at hdefault
      rw [readArgument, if_neg hdefault, cutAtBlank_of_forall hnumber.notBlank,
        lineNumber?_eq_some.mpr hnumber]
    | @named number gap path target hnumber hgap hne =>
      obtain ⟨blank, gap, rfl⟩ := List.exists_cons_of_ne_nil hne
      obtain ⟨hblank, hgap⟩ := List.forall_mem_cons.mp hgap
      have htrim := trim_of_front hgap (trimmed_quoted path) (List.cons_ne_nil _ _)
      rw [List.append_assoc, readArgument, if_neg (hnumber.append_ne_default _), List.cons_append,
        cutAtBlank_cons hnumber.notBlank hblank, lineNumber?_eq_some.mpr hnumber]
      simp only [htrim]
      rw [unquote?_eq_some.mpr (by rw [String.toList_ofList])]

theorem Argument.trimmed_line {gap argument : List Char} {directive : Directive}
    (h : Argument argument directive) : Trimmed ("line".toList ++ gap ++ argument) := by
  refine ⟨by simp; rfl, ?_⟩
  obtain ⟨hargument, hne⟩ := h.trimmed
  rw [List.getLast?_append, List.getLast?_eq_some_getLast hne, Option.some_or,
    ← List.getLast?_eq_some_getLast hne]
  exact hargument.back

/-- The text behind a hash sign is read as a directive exactly if it is spelled as one. -/
theorem parse_eq_ok {text : List Char} {directive : Directive} :
    parse text = .ok directive ↔ Spelled text directive := by
  constructor
  · intro h
    rw [parse_eq] at h
    split at h
    · next hline =>
      obtain ⟨front, back, hfront, hback, htext⟩ := exists_trim text
      rcases cutAtBlank_cases (trim text) with hcut | ⟨word, blank, behind, hblank, htrim, hcut⟩
      · rw [hcut] at h
        cases h
      · rw [hcut] at h hline
        dsimp only [Option.getD_some] at h hline
        obtain ⟨gap, back', hgap, hback', hbehind⟩ := exists_trim behind
        rw [readArgument_eq_ok (getLast_trim behind)] at h
        have hgap : Blanks (blank :: gap) := List.forall_mem_cons.mpr ⟨hblank, hgap⟩
        have hback : Blanks (back' ++ back) := List.forall_mem_append.mpr ⟨hback', hback⟩
        have hspelled := Spelled.line hfront hgap (List.cons_ne_nil _ _) h hback
        rw [htext, htrim, hline, hbehind]
        simpa using hspelled
    · cases h
  · intro h
    cases h with
    | @line front gap argument back _ hfront hgap hne hargument hback =>
      obtain ⟨blank, gap, rfl⟩ := List.exists_cons_of_ne_nil hne
      obtain ⟨hblank, hgap⟩ := List.forall_mem_cons.mp hgap
      have hword : ∀ c ∈ "line".toList, isBlank c = false := by simp [isBlank]
      have hcut := cutAtBlank_cons hword hblank (gap ++ argument)
      have htrim := trim_of_front hgap hargument.trimmed.1 hargument.trimmed.2
      rw [parse_eq, trim_append hfront hback hargument.trimmed_line (by simp), List.append_assoc,
        List.cons_append, hcut, if_pos rfl, Option.getD_some, htrim,
        readArgument_eq_ok hargument.trimmed.1.back]
      exact hargument

/-- A text spells one directive at most. -/
theorem Spelled.unique {text : List Char} {first second : Directive} (h : Spelled text first)
    (h' : Spelled text second) : first = second :=
  Except.ok.inj ((parse_eq_ok.mpr h).symm.trans (parse_eq_ok.mpr h'))

/-- A directive says one thing only. -/
theorem Says.unique {inEffect : Option String} {text : List Char}
    {first second : Option (String × Nat)} (h : Says inEffect text first)
    (h' : Says inEffect text second) : first = second := by
  cases h with
  | reset hspelled =>
    cases h' with
    | reset => rfl
    | named hspelled' | bare hspelled' => cases hspelled.unique hspelled'
  | named hspelled =>
    cases h' with
    | named hspelled' =>
      cases hspelled.unique hspelled'
      rfl
    | reset hspelled' | bare hspelled' => cases hspelled.unique hspelled'
  | bare hspelled heffect =>
    cases h' with
    | bare hspelled' heffect' =>
      cases hspelled.unique hspelled'
      rw [Option.some.inj (heffect.symm.trans heffect')]
    | reset hspelled' | named hspelled' => cases hspelled.unique hspelled'

/-- A directive has the effect that it says, as long as files in effect have names. -/
theorem apply_eq_ok {map next : LineMap} {line : Nat} {text : List Char}
    (hnamed : ∀ path ∈ (map.lookup line).map Prod.fst, path ≠ "") :
    (parse text).bind (apply map line) = .ok next ↔
      ∃ target, Says ((map.lookup line).map Prod.fst) text target ∧
        next = ⟨⟨line + 1, target⟩ :: map.remaps⟩ := by
  constructor
  · intro h
    cases hparse : parse text with
    | error =>
      rw [hparse] at h
      cases h
    | ok directive =>
      have hspelled := parse_eq_ok.mp hparse
      rw [hparse, Except.bind] at h
      cases directive with
      | reset =>
        cases h
        exact ⟨none, .reset hspelled, rfl⟩
      | remap target path =>
        rw [apply] at h
        split at h
        · cases h
        next hempty =>
        cases h
        cases path with
        | some path => exact ⟨_, .named hspelled (by simpa using hempty), rfl⟩
        | none =>
          cases heffect : (map.lookup line).map Prod.fst with
          | none => simp [heffect] at hempty
          | some path => exact ⟨_, .bare hspelled rfl, by simp [LineMap.remap]⟩
  · rintro ⟨target, htold, rfl⟩
    cases htold with
    | reset hspelled =>
      rw [parse_eq_ok.mpr hspelled]
      rfl
    | named hspelled hne =>
      rw [parse_eq_ok.mpr hspelled]
      simp [Except.bind, apply, LineMap.remap, hne]
    | bare hspelled heffect =>
      rw [parse_eq_ok.mpr hspelled]
      simp [Except.bind, apply, LineMap.remap, heffect, hnamed _ heffect]

end Directive

end PageScript.Script
