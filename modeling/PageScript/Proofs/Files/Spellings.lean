import Mathlib.Data.Set.Card
import PageScript.Files.Sharing
import PageScript.Proofs.Path.NormalForm
import PageScript.Proofs.Table

/-!
# A store as a map over spellings

A file in memory can be reached under every spelling of its path. What a store holds is settled by
the edits alone: the last one that concerns a path, under any spelling, decides what is read there.
A name that is no normal form never meets one, since slashes for backslashes are all that separates
such a name from its path.
-/

namespace PageScript

namespace Path

/-- Two spellings of one file: their normal forms are the same, or they have none and differ in the
kinds of their slashes only. -/
def Equivalent (path other : String) : Prop :=
  (∃ normal, normalize path = .ok normal ∧ normalize other = .ok normal) ∨
    ((∀ normal, normalize path ≠ .ok normal) ∧ (∀ normal, normalize other ≠ .ok normal) ∧
      unify path.toList = unify other.toList)

/-- Backslashes are slashes already where a path is cut into segments. -/
theorem written_unify (path : String) :
    written (String.ofList (unify path.toList)) = written path := by
  rw [written, written, String.toList_ofList, unify_eq_self (backslash_notMem_unify path.toList)]

/-- A path has the normal form that it has with slashes for backslashes. -/
theorem normalize_unify {path normal : String} :
    normalize (String.ofList (unify path.toList)) = .ok normal ↔ normalize path = .ok normal := by
  rw [normalize_eq_iff, normalize_eq_iff, written_unify, reads_ok_iff, reads_ok_iff]

end Path

namespace FileStore

open PageScript.Path

/-! ## Names of files -/

/-- A file is kept under the normal form of its path. -/
theorem key_of_normalize {path normal : String} (h : normalize path = .ok normal) :
    key path = normal := by
  rw [key, h]

/-- A path without a normal form is its own name, but for its slashes. -/
theorem key_of_not_normalize {path : String} (h : ∀ normal, normalize path ≠ .ok normal) :
    key path = String.ofList (unify path.toList) := by
  unfold key
  split
  · rename_i normal hnormal
    exact absurd hnormal (h normal)
  · rfl

/-- The name of a file has the normal form of its path, or none if the path has none. -/
theorem normalize_key {path normal : String} :
    normalize (key path) = .ok normal ↔ normalize path = .ok normal := by
  by_cases hpath : ∃ found, normalize path = .ok found
  · obtain ⟨found, hfound⟩ := hpath
    obtain ⟨segments, hsegments⟩ := canonical_of_normalize hfound
    rw [key_of_normalize hfound, hsegments.normalize_eq, hfound]
  · rw [key_of_not_normalize (not_exists.mp hpath), normalize_unify]

/-- Two spellings share a file exactly if they are equivalent. -/
theorem key_eq_iff {path other : String} : key path = key other ↔ Equivalent path other := by
  constructor
  · intro h
    have hsame (normal : String) : normalize path = .ok normal ↔ normalize other = .ok normal := by
      rw [← normalize_key, h, normalize_key]
    by_cases hpath : ∃ normal, normalize path = .ok normal
    · obtain ⟨normal, hnormal⟩ := hpath
      exact .inl ⟨normal, hnormal, (hsame normal).mp hnormal⟩
    · have hnone := not_exists.mp hpath
      have hother (normal : String) : normalize other ≠ .ok normal :=
        fun hnormal ↦ hnone normal ((hsame normal).mpr hnormal)
      rw [key_of_not_normalize hnone, key_of_not_normalize hother] at h
      exact .inr ⟨hnone, hother, String.ofList_injective h⟩
  · intro h
    obtain ⟨normal, hpath, hother⟩ | ⟨hpath, hother, hunify⟩ := h
    · rw [key_of_normalize hpath, key_of_normalize hother]
    · rw [key_of_not_normalize hpath, key_of_not_normalize hother, hunify]

/-! ## Edits -/

/-- The last edit of the file at `path` puts `content` there. -/
def Latest (edits : List Edit) (path : String) (content : Bytes) : Prop :=
  ∃ before other after, edits = before ++ .insert other content :: after ∧
    Equivalent other path ∧ ∀ edit ∈ after, ¬Equivalent edit.path path

theorem not_latest_nil (path : String) (content : Bytes) : ¬Latest [] path content := by
  rintro ⟨before, other, after, h, _⟩
  exact List.append_ne_nil_of_right_ne_nil before (List.cons_ne_nil _ after) h.symm

/-- Only the last edit counts if it concerns the file, and it does not count if it does not. -/
theorem latest_concat {edits : List Edit} {edit : Edit} {path : String} {content : Bytes} :
    Latest (edits ++ [edit]) path content ↔
      (∃ other, edit = .insert other content ∧ Equivalent other path) ∨
        (¬Equivalent edit.path path ∧ Latest edits path content) := by
  constructor
  · rintro ⟨before, other, after, hedits, hother, hafter⟩
    -- the last edit is the insert if nothing follows it, and else the last of what follows
    cases after using List.reverseRecOn with
    | nil =>
      obtain ⟨rfl, hedit⟩ := List.append_inj' hedits rfl
      exact .inl ⟨other, List.singleton_injective hedit, hother⟩
    | append_singleton after last =>
      rw [← List.cons_append, ← List.append_assoc] at hedits
      obtain ⟨rfl, hedit⟩ := List.append_inj' hedits rfl
      obtain rfl := List.singleton_injective hedit
      rw [List.forall_mem_append, List.forall_mem_singleton] at hafter
      exact .inr ⟨hafter.2, before, other, after, rfl, hother, hafter.1⟩
  · rintro (⟨other, rfl, hother⟩ | ⟨hedit, before, other, after, rfl, hother, hafter⟩)
    · exact ⟨edits, other, [], rfl, hother, List.forall_mem_nil _⟩
    · refine ⟨before, other, after ++ [edit], by simp, hother, ?_⟩
      rw [List.forall_mem_append, List.forall_mem_singleton]
      exact ⟨hafter, hedit⟩

theorem get?_insert (store : FileStore) (other path : String) (content : Bytes) :
    (store.insert other content).get? path =
      if key path = key other then some content else store.get? path :=
  Table.get?_insert store.files (key other) (key path) content

theorem get?_take (store : FileStore) (other path : String) :
    (store.take other).2.get? path = if key path = key other then none else store.get? path :=
  Table.get?_erase store.files (key other) (key path)

/-- An edit changes what equivalent spellings show, and nothing else. -/
theorem get?_apply {store : FileStore} {edit : Edit} {path : String} {content : Bytes} :
    (store.apply edit).get? path = some content ↔
      (∃ other, edit = .insert other content ∧ Equivalent other path) ∨
        (¬Equivalent edit.path path ∧ store.get? path = some content) := by
  cases edit with
  | insert other found =>
    rw [apply, get?_insert, Edit.path, ← key_eq_iff, eq_comm (a := key other)]
    by_cases hkey : key path = key other
    · simp [hkey, ← key_eq_iff, eq_comm]
    · simp [hkey, ← key_eq_iff, eq_comm (a := key other)]
  | remove other =>
    rw [apply, get?_take, Edit.path, ← key_eq_iff, eq_comm (a := key other)]
    by_cases hkey : key path = key other <;> simp [hkey]

/-- A store remembers of each file what its last edit left. -/
theorem get?_foldl_apply {edits : List Edit} {path : String} {content : Bytes} :
    (edits.foldl apply empty).get? path = some content ↔ Latest edits path content := by
  induction edits using List.reverseRecOn with
  | nil => exact iff_of_false (Option.some_ne_none content ·.symm) (not_latest_nil path content)
  | append_singleton edits edit ih =>
    rw [List.foldl_append, List.foldl_cons, List.foldl_nil, get?_apply, ih, latest_concat]

/-! ## Classes of spellings -/

def spellings (path : String) : Set String := {other | Equivalent path other}

/-- The paths of the file with a name. -/
def pathsOf (name : String) : Set String := {path | name = key path}

/-- The spellings of a path are those with its key. -/
theorem spellings_eq_pathsOf (path : String) : spellings path = pathsOf (key path) :=
  Set.ext fun _ ↦ key_eq_iff.symm

/-- Different keys have different spellings. -/
theorem injOn_pathsOf (paths : Set String) : Set.InjOn pathsOf (key '' paths) := by
  rintro _ ⟨path, _, rfl⟩ name _ heq
  have hmem : path ∈ pathsOf name := heq ▸ (rfl : key path = key path)
  exact hmem.symm

/-- Every name of a store is there once, and is the name of some path. -/
structure Sound (store : FileStore) : Prop where
  sorted : store.files.names.Pairwise (· < ·)
  named : ∀ name ∈ store.files.names, ∃ path, key path = name

theorem sound_empty : Sound empty := ⟨List.Pairwise.nil, List.forall_mem_nil _⟩

theorem Sound.apply {store : FileStore} (h : Sound store) (edit : Edit) :
    Sound (store.apply edit) := by
  cases edit with
  | insert path content =>
    refine ⟨Table.pairwise_names_insert h.sorted (key path) content, fun name hname ↦ ?_⟩
    obtain rfl | hname := Table.mem_names_insert.mp hname
    · exact ⟨path, rfl⟩
    · exact h.named name hname
  | remove path =>
    have hsublist := Table.names_erase_sublist store.files (key path)
    exact ⟨h.sorted.sublist hsublist, fun name hname ↦ h.named name (hsublist.subset hname)⟩

/-- Whatever the edits, files are kept under keys, each once. -/
theorem sound_foldl_apply (edits : List Edit) : Sound (edits.foldl FileStore.apply empty) := by
  induction edits using List.reverseRecOn with
  | nil => exact sound_empty
  | append_singleton edits edit ih =>
    rw [List.foldl_append]
    exact ih.apply edit

theorem contains_iff_mem_names {store : FileStore} {path : String} :
    store.contains path = true ↔ key path ∈ store.files.names :=
  Table.contains_iff_mem_names

/-- The classes of the paths at which there is a file are as many as the store has names. -/
theorem Sound.encard_spellings {store : FileStore} (h : Sound store) :
    (spellings '' {path | store.contains path = true}).encard = store.size := by
  have hnames : key '' {path | store.contains path = true} = ↑store.files.names.toFinset := by
    ext name
    rw [List.coe_toFinset]
    constructor
    · rintro ⟨path, hpath, rfl⟩
      exact contains_iff_mem_names.mp hpath
    · intro hname
      obtain ⟨path, rfl⟩ := h.named name hname
      exact ⟨path, contains_iff_mem_names.mpr hname, rfl⟩
  have hnodup : store.files.names.Nodup := h.sorted.imp ne_of_lt
  calc (spellings '' {path | store.contains path = true}).encard
      = (pathsOf '' (key '' {path | store.contains path = true})).encard := by
        rw [Set.image_image]
        simp only [spellings_eq_pathsOf]
    _ = (key '' {path | store.contains path = true}).encard := (injOn_pathsOf _).encard_image
    _ = store.files.names.toFinset.card := by rw [hnames, Set.encard_coe_eq_coe_finsetCard]
    _ = store.size := by
        rw [List.toFinset_card_of_nodup hnodup, Table.names, List.length_map]
        rfl

/-! ## What a store shows -/

/-- What a store shows is settled by the edits that were made. -/
structure Remembers (store : FileStore) (edits : List Edit) : Prop where
  read_eq_ok : ∀ path content, store.read path = .ok content ↔ Latest edits path content
  read_eq_error : ∀ path, (∀ content, ¬Latest edits path content) →
    store.read path = .error (.notFound (key path))
  contains_iff : ∀ path, store.contains path = true ↔ ∃ content, Latest edits path content
  take_eq : ∀ path, (store.take path).1 = (store.read path).toOption
  size_eq : store.size = (spellings '' {path | ∃ content, Latest edits path content}).encard

theorem read_eq_ok_iff {store : FileStore} {path : String} {content : Bytes} :
    store.read path = .ok content ↔ store.get? path = some content := by
  unfold FileStore.read
  cases store.get? path <;> simp

/-- After any edits, a store shows the last content that was put under each spelling. -/
theorem remembers_foldl_apply (edits : List Edit) :
    Remembers (edits.foldl FileStore.apply empty) edits := by
  have hcontains (path : String) : (edits.foldl FileStore.apply empty).contains path = true ↔
      ∃ content, Latest edits path content := by
    rw [contains, Option.isSome_iff_exists]
    exact exists_congr fun _ ↦ get?_foldl_apply
  refine ⟨fun path content ↦ read_eq_ok_iff.trans get?_foldl_apply, fun path hpath ↦ ?_, hcontains,
    fun path ↦ ?_, ?_⟩
  · have hnone : (edits.foldl FileStore.apply empty).get? path = none :=
      Option.eq_none_iff_forall_ne_some.mpr fun content hcontent ↦
        hpath content (get?_foldl_apply.mp hcontent)
    rw [FileStore.read, hnone]
  · rw [take, FileStore.read]
    cases (edits.foldl FileStore.apply empty).get? path <;> rfl
  · rw [← (sound_foldl_apply edits).encard_spellings]
    simp only [hcontains]

end FileStore

end PageScript
