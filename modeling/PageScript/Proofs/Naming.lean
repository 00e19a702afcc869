import Mathlib.Data.List.Forall2
import PageScript.Naming
import PageScript.Proofs.Script.Lines
import PageScript.Proofs.Script.Printing

/-!
# Derived names

A page, the scripts that embed it and the module it is compiled to meet in nothing but the class
name that is derived from its path. Whatever the path holds, this name is one word of a script: it
is made of ASCII letters, digits and underscores, starts with a letter, and no keyword has an
underscore. Two names are compared from the end: the digits of the digest are always eight, so that
they do not mix with the readable part, whose length is free. The paths of generated scripts lose
nothing of the paths they are derived from.
-/

namespace PageScript

/-! ## A script of one word -/

namespace Script

theorem isWordPart_of_isAlphanum {c : Char} (h : c.isAlphanum = true) : isWordPart c = true := by
  rw [isWordPart, Text.isAlphanumeric_of_isAlphanum h, Bool.true_or]

/-- No keyword has an underscore. -/
theorem keyword?_eq_none_of_underscore {word : String} (h : '_' ∈ word.toList) :
    Token.Kind.keyword? word = none := by
  fun_cases Token.Kind.keyword? word with
  | case9 => rfl
  | _ => exact absurd h (by decide)

theorem newline_notMem_of_isIdentifier {name : String} (h : isIdentifier name = true) :
    '\n' ∉ name.toList := by
  obtain ⟨c, more, hchars, hstart, hmore, _⟩ := isIdentifier_iff.mp h
  have hword : Wording [] (.ofWord (String.ofList (c :: more))) (c :: more) :=
    .word hstart (List.all_eq_true.mp hmore) (by simp)
  rw [hchars]
  exact hword.solid.1

theorem list_of_isIdentifier {name : String} (h : isIdentifier name = true) :
    Lexeme.list name.toList = [⟨.token (.identifier name), .start, name.toList⟩] := by
  obtain ⟨c, more, hchars, hstart, hmore, _⟩ := isIdentifier_iff.mp h
  have hkind : Token.Kind.ofWord (String.ofList (c :: more)) = .identifier name := by
    rw [← hchars, String.ofList_toList, ofWord_of_isIdentifier h]
  have hend : Parted [] := by simp [Parted]
  have hmunch := munch_word true hstart (List.all_eq_true.mp hmore) hend
  have hcut := listFrom_of_munch hmunch .start
  rw [hkind, List.append_nil, ← hchars] at hcut
  rw [Lexeme.list, hcut, Lexeme.listFrom]

/-- An identifier on its own is read as this identifier, up to its end and without an error. -/
theorem lex_of_isIdentifier {name : String} (h : isIdentifier name = true) :
    lex name =
      { tokens := [⟨.identifier name, .start⟩]
        stop := ⟨1, name.length + 1⟩
        lineMap := .empty
        errors := [] } := by
  have hstop : Position.start.advance name.toList = ⟨1, name.length + 1⟩ := by
    rw [line_advance _ (newline_notMem_of_isIdentifier h), String.length_toList, Nat.add_comm]
    rfl
  rw [lex, list_of_isIdentifier h, hstop]
  rfl

end Script

namespace Naming

/-! ## Paths of scripts -/

theorem generatedPath_injective : Function.Injective generatedPath := by
  intro first second h
  rw [generatedPath, generatedPath, ← String.toList_inj, String.toList_append,
    String.toList_append] at h
  exact String.toList_inj.mp (List.append_cancel_right h)

/-! ## The readable part of a class name -/

/-- Only the digest keeps paths apart that differ in their leading slashes, or in characters which
are neither ASCII letters nor digits. -/
theorem sanitize_eq_iff {path other : List Char} :
    sanitize path = sanitize other ↔
      List.Forall₂ (fun c d ↦ c = d ∨ c.isAlphanum = false ∧ d.isAlphanum = false)
        (path.dropWhile (· = '/')) (other.dropWhile (· = '/')) := by
  have hne {c d : Char} (hc : c.isAlphanum = true) (hd : d.isAlphanum = false) : c ≠ d := by
    rintro rfl
    cases hc.symm.trans hd
  have hchar (c d : Char) : (if c.isAlphanum then c else '_') = (if d.isAlphanum then d else '_') ↔
      c = d ∨ c.isAlphanum = false ∧ d.isAlphanum = false := by
    cases hc : c.isAlphanum <;> cases hd : d.isAlphanum
    · simp
    · simp [(hne hd hc).symm, (hne hd (rfl : '_'.isAlphanum = false)).symm]
    · simp [hne hc hd, hne hc (rfl : '_'.isAlphanum = false)]
    · simp
  rw [sanitize, sanitize, ← List.forall₂_eq_eq_eq, List.forall₂_map_left_iff,
    List.forall₂_map_right_iff]
  simp only [hchar]

/-! ## The digits behind it -/

theorem length_mark (path : String) : (mark path).length = 8 := by
  rw [mark, Bytes.length_flatMap_hexOfByte, List.length_take, Digest.length_sha256]
  rfl

/-- The digits tell paths apart as far as four bytes of their digests do. -/
theorem mark_eq_iff {path other : String} :
    mark path = mark other ↔
      (Digest.sha256 (Text.Utf8.encode path)).take 4 =
        (Digest.sha256 (Text.Utf8.encode other)).take 4 := by
  constructor
  · intro h
    have hread := congrArg Bytes.ofHexDigits? h
    rwa [mark, mark, Bytes.ofHexDigits?_flatMap, Bytes.ofHexDigits?_flatMap,
      Option.some.injEq] at hread
  · intro h
    rw [mark, mark, h]

/-! ## Class names -/

theorem toList_className (path : String) :
    (className path).toList = "Page_".toList ++ (sanitize path.toList ++ '_' :: mark path) :=
  calc (className path).toList
      = "Page_".toList ++ sanitize path.toList ++ '_' :: mark path := String.toList_ofList
    _ = _ := List.append_assoc _ _ _

theorem isAlphanum_of_mem_sanitize {path : List Char} {c : Char} (h : c ∈ sanitize path) :
    c.isAlphanum = true ∨ c = '_' := by
  obtain ⟨d, -, rfl⟩ := List.mem_map.mp h
  cases hd : d.isAlphanum with
  | true => exact .inl (by simp [hd])
  | false => exact .inr rfl

theorem isAlphanum_of_mem_mark {path : String} {c : Char} (h : c ∈ mark path) :
    c.isAlphanum = true := by
  have hdigit : ∀ n < 16, (Nat.digitChar n).isAlphanum = true := by decide
  obtain ⟨b, -, hc⟩ := List.mem_flatMap.mp h
  rcases List.mem_pair.mp hc with rfl | rfl
  · exact hdigit _ (Nat.mod_lt _ (by decide))
  · exact hdigit _ (Nat.mod_lt _ (by decide))

/-- A name holds ASCII letters, digits and underscores only. -/
theorem isAlphanum_of_mem_className {path : String} {c : Char} (h : c ∈ (className path).toList) :
    c.isAlphanum = true ∨ c = '_' := by
  have hfront : "Page_".toList.all (fun d ↦ d.isAlphanum || d = '_') = true := by decide
  rw [toList_className, List.mem_append, List.mem_append, List.mem_cons] at h
  rcases h with h | h | h | h
  · simpa using List.all_eq_true.mp hfront c h
  · exact isAlphanum_of_mem_sanitize h
  · exact .inr h
  · exact .inl (isAlphanum_of_mem_mark h)

/-- A class name can be written in a script, whatever the path is. -/
theorem isIdentifier_className (path : String) : Script.isIdentifier (className path) = true := by
  have hchars := toList_className path
  have hunderscore : '_' ∈ (className path).toList := by simp [hchars]
  refine Script.isIdentifier_iff.mpr ⟨'P', _, hchars, by decide +kernel, ?_,
    Script.keyword?_eq_none_of_underscore hunderscore⟩
  refine List.all_eq_true.mpr fun c hc ↦ ?_
  have hmem : c ∈ (className path).toList := hchars ▸ List.mem_cons_of_mem 'P' hc
  rcases isAlphanum_of_mem_className hmem with h | rfl
  · exact Script.isWordPart_of_isAlphanum h
  · decide +kernel

/-- The name of any path is one identifier of a script, and tells of the path exactly its readable
part and the first four bytes of its digest. Of the digest only the length is used. -/
theorem lex_className_and_eq_iff :
    (∀ path, Script.lex (className path) =
      { tokens := [⟨.identifier (className path), .start⟩]
        stop := ⟨1, (className path).length + 1⟩
        lineMap := .empty
        errors := [] }) ∧
    ∀ path other, className path = className other ↔
      sanitize path.toList = sanitize other.toList ∧
        (Digest.sha256 (Text.Utf8.encode path)).take 4 =
          (Digest.sha256 (Text.Utf8.encode other)).take 4 := by
  refine ⟨fun path ↦ Script.lex_of_isIdentifier (isIdentifier_className path), fun path other ↦ ?_⟩
  have hlength : ('_' :: mark path).length = ('_' :: mark other).length := by
    rw [List.length_cons, List.length_cons, length_mark, length_mark]
  calc className path = className other
      ↔ sanitize path.toList ++ '_' :: mark path = sanitize other.toList ++ '_' :: mark other := by
        rw [← String.toList_inj, toList_className, toList_className, List.append_right_inj]
    _ ↔ sanitize path.toList = sanitize other.toList ∧ mark path = mark other := by
        constructor
        · intro h
          obtain ⟨hreadable, hmark⟩ := List.append_inj' h hlength
          exact ⟨hreadable, List.tail_eq_of_cons_eq hmark⟩
        · rintro ⟨hreadable, hmark⟩
          rw [hreadable, hmark]
    _ ↔ _ := and_congr_right fun _ ↦ mark_eq_iff

-- Two paths that only the digest keeps apart.
example : sanitize "/my-page.kpage".toList = sanitize "/my_page.kpage".toList ∧
    className "/my-page.kpage" ≠ className "/my_page.kpage" := by
  decide +kernel

end Naming

end PageScript
