import Mathlib.Data.List.Induction
import Mathlib.Data.List.Nodup
import Mathlib.Logic.Relation

/-!
# Breadth-first order

Files refer to other files. Taken one after the other, they bring up paths: first the root, then
those that each file refers to. An order is breadth-first if each file in it is the next of the
paths that the files before it have brought up. There is only one such order, nearer files stand in
front of those further away, and an order that brings up nothing new holds exactly the files that
can be reached from the root.
-/

namespace PageScript.Projection

/-! ## First occurrences -/

theorem eraseDups_concat (paths : List String) (path : String) :
    (paths ++ [path]).eraseDups =
      if path ∈ paths then paths.eraseDups else paths.eraseDups ++ [path] := by
  rw [List.eraseDups_append]
  by_cases hmem : path ∈ paths
  · rw [if_pos hmem]
    simp [List.removeAll, hmem]
  · rw [if_neg hmem]
    simp [List.removeAll, hmem, List.eraseDups_cons]

theorem nodup_eraseDups (paths : List String) : paths.eraseDups.Nodup := by
  induction paths using List.reverseRecOn with
  | nil => exact List.nodup_nil
  | append_singleton paths path ih =>
    rw [eraseDups_concat]
    split
    · exact ih
    · rename_i hnew
      rw [← List.mem_eraseDups] at hnew
      exact List.nodup_append.mpr ⟨ih, List.nodup_singleton _, by
        rintro other hother _ hlast rfl
        exact hnew (List.mem_singleton.mp hlast ▸ hother)⟩

/-! ## Orders -/

/-- The paths that some files bring up, each where it comes up first. -/
def discovered (refs : String → List String) (root : String) (files : List String) : List String :=
  (root :: files.flatMap refs).eraseDups

/-- Each file is the next of the paths that the files before it bring up. -/
def BreadthFirst (refs : String → List String) (root : String) (files : List String) : Prop :=
  ∀ index (h : index < files.length),
    (discovered refs root (files.take index))[index]? = some files[index]

variable {refs : String → List String} {root : String} {files others : List String}

/-- A file is discovered if it is the root or a file that was taken refers to it. -/
theorem mem_discovered {path : String} :
    path ∈ discovered refs root files ↔ path = root ∨ ∃ file ∈ files, path ∈ refs file := by
  rw [discovered, List.mem_eraseDups, List.mem_cons, List.mem_flatMap]

theorem nodup_discovered : (discovered refs root files).Nodup := nodup_eraseDups _

theorem discovered_isPrefix (h : files <+: others) :
    discovered refs root files <+: discovered refs root others := by
  obtain ⟨more, rfl⟩ := h
  rw [discovered, discovered, List.flatMap_append, ← List.cons_append, List.eraseDups_append]
  exact List.prefix_append _ _

theorem getElem?_zero_discovered : (discovered refs root files)[0]? = some root := by
  rw [discovered, List.eraseDups_cons]
  rfl

theorem breadthFirst_nil : BreadthFirst refs root [] := fun index h ↦ by simp at h

/-- An order goes on with the first path that has come up and has not been taken. -/
theorem breadthFirst_concat_iff {path : String} :
    BreadthFirst refs root (files ++ [path]) ↔ BreadthFirst refs root files ∧
      (discovered refs root files)[files.length]? = some path := by
  constructor
  · intro h
    refine ⟨fun index hindex ↦ ?_, ?_⟩
    · have hfile := h index (by rw [List.length_append]; omega)
      rwa [List.take_append_of_le_length (Nat.le_of_lt hindex),
        List.getElem_append_left hindex] at hfile
    · have hlast := h files.length (by simp)
      rwa [List.take_left, List.getElem_concat_length rfl] at hlast
  · rintro ⟨h, hnext⟩ index hindex
    rw [List.length_append, List.length_singleton] at hindex
    rcases Nat.lt_or_eq_of_le (Nat.le_of_lt_succ hindex) with hlt | rfl
    · rw [List.take_append_of_le_length (Nat.le_of_lt hlt), List.getElem_append_left hlt]
      exact h index hlt
    · rw [List.take_left, List.getElem_concat_length rfl]
      exact hnext

/-- Files in breadth-first order are the first ones that they bring up. -/
theorem BreadthFirst.isPrefix (h : BreadthFirst refs root files) :
    files <+: discovered refs root files := by
  refine List.prefix_iff_getElem?.mpr fun index hindex ↦ ?_
  obtain ⟨hlt, heq⟩ := List.getElem?_eq_some_iff.mp (h index hindex)
  have hgrows : discovered refs root (files.take index) <+: discovered refs root files :=
    discovered_isPrefix (List.take_prefix index files)
  rw [List.prefix_iff_getElem?.mp hgrows index hlt, heq]

theorem BreadthFirst.nodup (h : BreadthFirst refs root files) : files.Nodup :=
  nodup_discovered.sublist h.isPrefix.sublist

/-- There is only one breadth-first order. -/
theorem BreadthFirst.prefix_of_length_le (h : BreadthFirst refs root files)
    (hothers : BreadthFirst refs root others) (hlength : files.length ≤ others.length) :
    files <+: others := by
  induction files using List.reverseRecOn with
  | nil => exact List.nil_prefix
  | append_singleton files path ih =>
    rw [List.length_append, List.length_singleton] at hlength
    obtain ⟨hfiles, hnext⟩ := breadthFirst_concat_iff.mp h
    obtain ⟨more, rfl⟩ := ih hfiles (by omega)
    cases more with
    | nil =>
      rw [List.append_nil] at hlength
      omega
    | cons other more =>
      have hother := hothers files.length (by simp)
      rw [List.take_left, hnext, Option.some.injEq] at hother
      refine ⟨more, ?_⟩
      rw [hother]
      simp

/-! ## Complete orders -/

/-- Files in breadth-first order that bring up nothing new. -/
structure Exhausts (refs : String → List String) (root : String) (files : List String) : Prop where
  order : BreadthFirst refs root files
  complete : discovered refs root files = files

/-- One file refers to another. -/
def Refers (refs : String → List String) (file path : String) : Prop := path ∈ refs file

/-- Every file that is taken can be reached from the root. -/
theorem BreadthFirst.reaches (h : BreadthFirst refs root files) :
    ∀ path ∈ files, Relation.ReflTransGen (Refers refs) root path := by
  induction files using List.reverseRecOn with
  | nil => simp
  | append_singleton files path ih =>
    obtain ⟨hfiles, hnext⟩ := breadthFirst_concat_iff.mp h
    intro other hother
    rcases List.mem_append.mp hother with hother | hother
    · exact ih hfiles other hother
    · rw [List.mem_singleton.mp hother]
      rcases mem_discovered.mp (List.mem_of_getElem? hnext) with rfl | ⟨file, hfile, hrefers⟩
      · exact .refl
      · exact (ih hfiles file hfile).tail hrefers

theorem Exhausts.head?_eq (h : Exhausts refs root files) : files.head? = some root := by
  rw [← h.complete, List.head?_eq_getElem?]
  exact getElem?_zero_discovered

/-- A complete order holds exactly the files that can be reached. -/
theorem Exhausts.mem_iff (h : Exhausts refs root files) {path : String} :
    path ∈ files ↔ Relation.ReflTransGen (Refers refs) root path := by
  refine ⟨h.order.reaches path, fun hreach ↦ ?_⟩
  induction hreach with
  | refl =>
    rw [← h.complete]
    exact mem_discovered.mpr (.inl rfl)
  | tail _ hrefers ih =>
    rw [← h.complete]
    exact mem_discovered.mpr (.inr ⟨_, ih, hrefers⟩)

/-- Whatever part of an order is taken, a complete order goes on from there. -/
theorem Exhausts.isPrefix (h : Exhausts refs root files) (hothers : BreadthFirst refs root others) :
    others <+: files := by
  rcases Nat.le_total others.length files.length with hle | hle
  · exact hothers.prefix_of_length_le h.order hle
  · obtain ⟨more, rfl⟩ := h.order.prefix_of_length_le hothers hle
    cases more with
    | nil => simp
    | cons path more =>
      have hnext := hothers files.length (by simp)
      rw [List.take_left, h.complete, List.getElem?_eq_none (Nat.le_refl _)] at hnext
      contradiction

/-- A file that at most `steps` references lead to. -/
def Within (refs : String → List String) (root : String) : Nat → String → Prop
  | 0, path => path = root
  | steps + 1, path => Within refs root steps path ∨
    ∃ file, Within refs root steps file ∧ Refers refs file path

theorem within_root (steps : Nat) : Within refs root steps root := by
  induction steps with
  | zero => rfl
  | succ steps ih => exact .inl ih

theorem Within.reaches {steps : Nat} {path : String} (h : Within refs root steps path) :
    Relation.ReflTransGen (Refers refs) root path := by
  induction steps generalizing path with
  | zero =>
    rw [show path = root from h]
  | succ steps ih =>
    rcases h with h | ⟨file, hfile, hrefers⟩
    · exact ih h
    · exact (ih hfile).tail hrefers

/-- A file that stands in front of one that `file` refers to was brought up by then. -/
theorem Exhausts.brought_up (h : Exhausts refs root files) {earlier later position : Nat}
    (hearlier : earlier < later) (hlater : later < files.length)
    (hposition : position < files.length) (hrefers : Refers refs files[position] files[later]) :
    files[earlier] = root ∨ ∃ first, ∃ hfirst : first ≤ position,
      Refers refs files[first] files[earlier] := by
  have hinitial : discovered refs root (files.take (position + 1)) <+: files := by
    conv_rhs => rw [← h.complete]
    exact discovered_isPrefix (List.take_prefix _ files)
  have hmem : files[later] ∈ discovered refs root (files.take (position + 1)) := by
    refine mem_discovered.mpr (.inr ⟨files[position], ?_, hrefers⟩)
    exact List.mem_take_iff_getElem.mpr ⟨position, by omega, rfl⟩
  obtain ⟨place, hplace, heq⟩ := List.mem_iff_getElem.mp hmem
  have hsame := List.prefix_iff_getElem?.mp hinitial
  have hlength := hinitial.length_le
  -- A path stands in the order only once, so the later file was the one at this place.
  have hfound := hsame place hplace
  rw [heq, List.getElem?_eq_getElem (by omega), Option.some.injEq,
    h.order.nodup.getElem_inj_iff] at hfound
  subst hfound
  have hbefore := hsame earlier (by omega)
  rw [List.getElem?_eq_getElem (by omega), Option.some.injEq] at hbefore
  have hold : files[earlier] ∈ discovered refs root (files.take (position + 1)) :=
    hbefore ▸ List.getElem_mem _
  rcases mem_discovered.mp hold with hroot | ⟨file, hfile, hrefers⟩
  · exact .inl hroot
  · obtain ⟨first, hfirst, rfl⟩ := List.mem_take_iff_getElem.mp hfile
    exact .inr ⟨first, by omega, hrefers⟩

/-- No file stands in front of a nearer one. -/
theorem Exhausts.within_of_le (h : Exhausts refs root files) {steps earlier later : Nat}
    {hearlier : earlier < files.length} (hle : earlier ≤ later) (hlater : later < files.length)
    (hwithin : Within refs root steps files[later]) : Within refs root steps files[earlier] := by
  induction steps generalizing earlier later with
  | zero =>
    have hroot := h.head?_eq
    rw [List.head?_eq_getElem?, List.getElem?_eq_getElem (by omega), Option.some.injEq] at hroot
    have hfirst : files[later] = files[0] :=
      (show files[later] = root from hwithin).trans hroot.symm
    rw [h.order.nodup.getElem_inj_iff] at hfirst
    obtain rfl : earlier = 0 := by omega
    exact hroot
  | succ steps ih =>
    rcases hwithin with hwithin | ⟨file, hfile, hrefers⟩
    · exact .inl (ih hle hlater hwithin)
    · rcases Nat.lt_or_eq_of_le hle with hlt | rfl
      · obtain ⟨position, hposition, rfl⟩ := List.mem_iff_getElem.mp (h.mem_iff.mpr hfile.reaches)
        rcases h.brought_up hlt hlater hposition hrefers with hroot | ⟨first, hfirst, hrefers⟩
        · rw [hroot]
          exact within_root _
        · exact .inr ⟨_, ih hfirst hposition hfile, hrefers⟩
      · exact .inr ⟨file, hfile, hrefers⟩

end PageScript.Projection
