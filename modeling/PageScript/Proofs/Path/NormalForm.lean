import PageScript.Proofs.Outcome
import PageScript.Proofs.Path.Segments

/-!
# Normal forms and references

A path in normal form is a slash in front of each of its segments, and normalising it again changes
nothing. So a reference inside a file can be read segment by segment: the directory of the file
comes first, then what the reference says. The file that is found is in normal form again, and a
chain of references is followed the same way.
-/

namespace PageScript.Path

/-- No slash of either kind is left in these segments. -/
def Plain (segments : List Segment) : Prop :=
  ∀ segment ∈ segments, '/' ∉ segment ∧ '\\' ∉ segment

/-- A path in normal form and its segments. -/
structure Canonical (path : String) (segments : List Segment) : Prop where
  eq_rooted : path = rooted segments
  ne_nil : segments ≠ []
  ordinary : ∀ segment ∈ segments, Ordinary segment
  plain : Plain segments

instance (segments : List Segment) : Decidable (Plain segments) :=
  inferInstanceAs (Decidable (∀ segment ∈ segments, '/' ∉ segment ∧ '\\' ∉ segment))

instance (path : String) (segments : List Segment) : Decidable (Canonical path segments) :=
  decidable_of_iff (path = rooted segments ∧ segments ≠ [] ∧
      (∀ segment ∈ segments, Ordinary segment) ∧ Plain segments)
    ⟨fun h ↦ ⟨h.1, h.2.1, h.2.2.1, h.2.2.2⟩,
      fun h ↦ ⟨h.eq_rooted, h.ne_nil, h.ordinary, h.plain⟩⟩

/-! ## Backslashes and tildes -/

theorem unify_append (front back : List Char) : unify (front ++ back) = unify front ++ unify back :=
  List.map_append

theorem backslash_notMem_unify (path : List Char) : '\\' ∉ unify path := by
  intro h
  obtain ⟨c, _, hc⟩ := List.mem_map.mp h
  unfold slash at hc
  split at hc
  · contradiction
  · contradiction

theorem unify_eq_self {path : List Char} (h : '\\' ∉ path) : unify path = path := by
  calc unify path = path.map id := by
        apply List.map_congr_left
        intro c hc
        exact if_neg fun (hbackslash : c = '\\') ↦ h (hbackslash ▸ hc)
    _ = path := List.map_id path

theorem dropTilde_subset (path : List Char) : dropTilde path ⊆ path := by
  unfold dropTilde
  split
  · exact List.subset_cons_self _ _
  · exact List.Subset.refl _

theorem plain_splitOn {path : List Char} (h : '\\' ∉ path) : Plain (path.splitOn '/') := by
  intro segment hsegment
  exact ⟨notMem_of_mem_splitOn hsegment, fun hmem ↦ h (mem_of_mem_splitOn hsegment hmem).1⟩

/-- No backslash is left where a path is cut into segments. -/
theorem plain_written (path : String) : Plain (written path) := by
  apply plain_splitOn
  intro h
  exact backslash_notMem_unify path.toList (dropTilde_subset _ h)

theorem Plain.splitOn_join_eq {segments : List Segment} (h : Plain segments) :
    (join segments).splitOn '/' = [] :: segments :=
  splitOn_join fun segment hsegment ↦ (h segment hsegment).1

theorem Plain.unify_join {segments : List Segment} (h : Plain segments) :
    unify (join segments) = join segments := by
  apply unify_eq_self
  intro hmem
  obtain ⟨segment, hsegment, hmem⟩ := List.mem_flatMap.mp hmem
  obtain hmem | hmem := List.mem_cons.mp hmem
  · contradiction
  · exact (h segment hsegment).2 hmem

/-- No tilde is dropped from a joined path. -/
theorem dropTilde_join (segments : List Segment) : dropTilde (join segments) = join segments := by
  cases segments with
  | nil => rfl
  | cons segment rest => rfl

/-! ## Normal forms -/

/-- The segments of a path in normal form are read back as they are. -/
theorem Canonical.written_eq {path : String} {segments : List Segment}
    (h : Canonical path segments) : written path = [] :: segments := by
  rw [h.eq_rooted, rooted_eq_join h.ne_nil, written, String.toList_ofList,
    h.plain.unify_join, dropTilde_join, h.plain.splitOn_join_eq]

/-- A path in normal form stays what it is. -/
theorem Canonical.normalize_eq {path : String} {segments : List Segment}
    (h : Canonical path segments) : normalize path = .ok path := by
  rw [normalize_eq_iff, h.written_eq, reads_cons_nil]
  nth_rewrite 2 [h.eq_rooted]
  exact .file (leaves_self h.ordinary) h.ne_nil

/-- What stands of plain segments is the normal form of a path. -/
theorem Leaves.canonical {read standing : List Segment} (h : Leaves read standing)
    (hne : standing ≠ []) (hread : Plain read) : Canonical (rooted standing) standing where
  eq_rooted := rfl
  ne_nil := hne
  ordinary := h.ordinary
  plain segment hsegment := hread segment (h.subset hsegment)

theorem reads_ok_iff {read : List Segment} {path place : String} :
    Reads read path (.ok place) ↔ ∃ standing, Leaves read standing ∧ standing ≠ [] ∧
      place = rooted standing := by
  constructor
  · intro h
    cases h with
    | @file standing h hne => exact ⟨standing, h, hne, rfl⟩
  · intro h
    obtain ⟨standing, h, hne, rfl⟩ := h
    exact .file h hne

/-- Whatever normalizing gives is in normal form. -/
theorem canonical_of_normalize {path normal : String} (h : normalize path = .ok normal) :
    ∃ segments, Canonical normal segments := by
  obtain ⟨standing, hstanding, hne, rfl⟩ := reads_ok_iff.mp (normalize_eq_iff.mp h)
  exact ⟨standing, hstanding.canonical hne (plain_written path)⟩

/-- Paths in normal form are the ones that stay what they are. -/
theorem normalize_eq_self_iff {path : String} :
    normalize path = .ok path ↔ ∃ segments, Canonical path segments := by
  constructor
  · exact canonical_of_normalize
  · intro h
    obtain ⟨segments, h⟩ := h
    exact h.normalize_eq

/-! ## References -/

/-- A file that lies in the root has the root as its directory, with the slash. -/
theorem parentOf_append {front name : List Char} (h : '/' ∉ name) :
    parentOf (front ++ '/' :: name) = if front = [] then ['/'] else front := by
  have hdrop : (front ++ '/' :: name).reverse.dropWhile (· ≠ '/') = '/' :: front.reverse := by
    have hname : ∀ c ∈ name.reverse, decide (c ≠ '/') = true := by
      intro c hc
      exact decide_eq_true fun hslash ↦ h (hslash ▸ List.mem_reverse.mp hc)
    rw [List.reverse_append, List.reverse_cons, List.append_assoc,
      List.dropWhile_append_of_pos hname]
    rfl
  rw [parentOf, hdrop]
  cases front using List.reverseRecOn with
  | nil => rfl
  | append_singleton front last =>
    rw [List.reverse_append, if_neg (List.append_ne_nil_of_right_ne_nil _ (by simp))]
    change (last :: front.reverse).reverse = front ++ [last]
    rw [List.reverse_cons, List.reverse_reverse]

theorem Canonical.parentOf_eq {path : String} {segments : List Segment}
    (h : Canonical path segments) : parentOf path.toList =
      if segments.dropLast = [] then ['/'] else join segments.dropLast := by
  obtain ⟨directory, name, hsegments⟩ :=
    (List.eq_nil_or_concat segments).resolve_left h.ne_nil
  rw [List.concat_eq_append] at hsegments
  subst hsegments
  have hname : '/' ∉ name := (h.plain name (by simp)).1
  have hempty : join directory = [] ↔ directory = [] := by
    cases directory with
    | nil => exact iff_of_true rfl rfl
    | cons segment rest => exact iff_of_false (List.cons_ne_nil _ _) (List.cons_ne_nil _ _)
  rw [h.eq_rooted, rooted_eq_join h.ne_nil, String.toList_ofList, join_append, join_singleton,
    parentOf_append hname, List.dropLast_concat]
  simp only [hempty]

/-- The path that is read for a reference that is not rooted. -/
def beside (source reference : String) : String :=
  String.ofList (parentOf source.toList ++ '/' :: Text.trim reference.toList)

/-- The segments that a reference inside the file of these segments stands for. -/
def target (segments : List Segment) (reference : String) : List Segment :=
  if isRooted (Text.trim reference.toList) then written (Text.trimmed reference)
  else segments.dropLast ++ (unify (Text.trim reference.toList)).splitOn '/'

theorem resolve_of_rooted {reference : String} (h : isRooted (Text.trim reference.toList) = true)
    (source : String) : resolve source reference = normalize (Text.trimmed reference) :=
  if_pos h

theorem resolve_of_not_rooted {reference : String}
    (h : isRooted (Text.trim reference.toList) = false) (source : String) :
    resolve source reference = normalize (beside source reference) :=
  if_neg (Bool.eq_false_iff.mp h)

/-- A reference is read behind the segments of the directory that it is put in. -/
theorem written_join_append {directory : List Segment} (h : Plain directory)
    (reference : List Char) : written (String.ofList (join directory ++ '/' :: reference)) =
      [] :: (directory ++ (unify reference).splitOn '/') := by
  have hslash : dropTilde (join directory ++ '/' :: unify reference) =
      join directory ++ '/' :: unify reference := by
    cases directory with
    | nil => rfl
    | cons segment rest => rfl
  have hunify : unify (join directory ++ '/' :: reference) =
      join directory ++ '/' :: unify reference := by
    rw [unify_append, h.unify_join]
    rfl
  calc written (String.ofList (join directory ++ '/' :: reference))
      = (join directory ++ '/' :: unify reference).splitOn '/' := by
        rw [written, String.toList_ofList, hunify, hslash]
    _ = (join directory).splitOn '/' ++ (unify reference).splitOn '/' :=
        List.splitOn_append_cons_self _ _
    _ = [] :: (directory ++ (unify reference).splitOn '/') := by
        rw [h.splitOn_join_eq, List.cons_append]

/-- The directory of a file in front of a reference is read as its segments. -/
theorem Canonical.reads_beside {source : String} {segments : List Segment}
    (h : Canonical source segments) {reference path : String}
    {outcome : Except FileError String} : Reads (written (beside source reference)) path outcome ↔
      Reads (segments.dropLast ++ (unify (Text.trim reference.toList)).splitOn '/')
        path outcome := by
  have hplain : Plain segments.dropLast :=
    fun segment hsegment ↦ h.plain segment (List.dropLast_subset _ hsegment)
  rw [beside, h.parentOf_eq]
  split
  · next hroot =>
    have hslash : Plain [[]] := by simp [Plain]
    rw [hroot, ← join_singleton, written_join_append hslash, reads_cons_nil]
    exact reads_cons_nil
  · rw [written_join_append hplain, reads_cons_nil]

theorem canonical_of_resolve {source reference place : String}
    (h : resolve source reference = .ok place) : ∃ segments, Canonical place segments := by
  cases hrooted : isRooted (Text.trim reference.toList) with
  | true =>
    rw [resolve_of_rooted hrooted] at h
    exact canonical_of_normalize h
  | false =>
    rw [resolve_of_not_rooted hrooted] at h
    exact canonical_of_normalize h

/-- Reading a reference inside a file in normal form, rooted or not. -/
theorem Canonical.resolve_eq_ok_iff {source : String} {segments : List Segment}
    (h : Canonical source segments) {reference place : String} :
    resolve source reference = .ok place ↔ ∃ standing, Leaves (target segments reference) standing ∧
      standing ≠ [] ∧ place = rooted standing := by
  rw [target]
  split
  · next hrooted => rw [resolve_of_rooted hrooted, normalize_eq_iff, reads_ok_iff]
  · next hrooted =>
    rw [resolve_of_not_rooted (Bool.eq_false_iff.mpr hrooted), normalize_eq_iff, h.reads_beside,
      reads_ok_iff]

/-! ## Chains of references -/

/-- The files that a chain of references goes through, from the segments of the one it starts in to
those of the one it ends at. -/
inductive Follows : List Segment → List String → List Segment → Prop
  | stop {segments : List Segment} : Follows segments [] segments
  | go {segments next last : List Segment} {reference : String} {rest : List String}
      (h : Leaves (target segments reference) next) (hne : next ≠ [])
      (hrest : Follows next rest last) : Follows segments (reference :: rest) last

theorem plain_target {segments : List Segment} (h : Plain segments) (reference : String) :
    Plain (target segments reference) := by
  unfold target
  split
  · exact plain_written _
  · intro segment hsegment
    obtain hsegment | hsegment := List.mem_append.mp hsegment
    · exact h segment (List.dropLast_subset _ hsegment)
    · exact plain_splitOn (backslash_notMem_unify _) segment hsegment

/-- A chain of references is followed segment by segment. -/
theorem Canonical.foldlM_resolve_eq_ok_iff {source : String} {segments : List Segment}
    (h : Canonical source segments) {references : List String} {place : String} :
    references.foldlM resolve source = .ok place ↔
      ∃ last, Follows segments references last ∧ Canonical place last := by
  induction references generalizing source segments with
  | nil =>
    rw [List.foldlM_nil, Outcome.pure_eq, Except.ok.injEq]
    constructor
    · intro hplace
      subst hplace
      exact ⟨segments, .stop, h⟩
    · intro hlast
      obtain ⟨last, hfollows, hplace⟩ := hlast
      cases hfollows
      rw [h.eq_rooted, hplace.eq_rooted]
  | cons reference rest ih =>
    rw [List.foldlM_cons, Outcome.bind_eq_ok]
    constructor
    · intro hfound
      obtain ⟨next, hnext, hrest⟩ := hfound
      obtain ⟨standing, hstanding, hne, rfl⟩ := h.resolve_eq_ok_iff.mp hnext
      have hcanonical := hstanding.canonical hne (plain_target h.plain reference)
      obtain ⟨last, hfollows, hplace⟩ := (ih hcanonical).mp hrest
      exact ⟨last, .go hstanding hne hfollows, hplace⟩
    · intro hlast
      obtain ⟨last, hfollows, hplace⟩ := hlast
      cases hfollows with
      | @go _ next _ _ _ hnext hne hrest =>
        have hcanonical := hnext.canonical hne (plain_target h.plain reference)
        exact ⟨rooted next, h.resolve_eq_ok_iff.mpr ⟨next, hnext, hne, rfl⟩,
          (ih hcanonical).mpr ⟨last, hrest, hplace⟩⟩

/-- Normalising a path reads its segments and puts what stands into normal form, which is kept from
then on. Inside a file in normal form, a reference that is not rooted is read behind the segments of
the directory; a rooted one is read by itself, whatever the file. Either way the file found is in
normal form again, and so is each further one on a chain of references. -/
theorem normalize_and_resolve_canonical :
    (∀ path outcome, normalize path = outcome ↔ Reads (written path) path outcome) ∧
    (∀ path normal, normalize path = .ok normal → normalize normal = .ok normal) ∧
    (∀ path, normalize path = .ok path ↔ ∃ segments, Canonical path segments) ∧
    (∀ source segments, Canonical source segments →
      ∀ reference, isRooted (Text.trim reference.toList) = false →
        ∀ outcome, resolve source reference = outcome ↔
          Reads (segments.dropLast ++ (unify (Text.trim reference.toList)).splitOn '/')
            (beside source reference) outcome) ∧
    (∀ reference, isRooted (Text.trim reference.toList) = true →
      ∀ source, resolve source reference = normalize (Text.trimmed reference)) ∧
    (∀ source reference place, resolve source reference = .ok place →
      ∃ segments, Canonical place segments) ∧
    (∀ source segments, Canonical source segments → ∀ references place,
      references.foldlM resolve source = .ok place ↔
        ∃ last, Follows segments references last ∧ Canonical place last) := by
  have hidempotent (path normal : String) (h : normalize path = .ok normal) :
      normalize normal = .ok normal :=
    normalize_eq_self_iff.mpr (canonical_of_normalize h)
  have hrelative (source : String) (segments : List Segment) (h : Canonical source segments)
      (reference : String) (hrooted : isRooted (Text.trim reference.toList) = false)
      (outcome : Except FileError String) : resolve source reference = outcome ↔
        Reads (segments.dropLast ++ (unify (Text.trim reference.toList)).splitOn '/')
          (beside source reference) outcome := by
    rw [resolve_of_not_rooted hrooted, normalize_eq_iff, h.reads_beside]
  exact ⟨fun path outcome ↦ normalize_eq_iff, hidempotent, fun path ↦ normalize_eq_self_iff,
    hrelative, fun reference ↦ resolve_of_rooted, fun source reference place ↦ canonical_of_resolve,
    fun source segments h references place ↦ h.foldlM_resolve_eq_ok_iff⟩

theorem normalize_and_resolve_canonical_sibling :
    Canonical "/pages/a.kpage" ["pages".toList, "a.kpage".toList] ∧
    isRooted (Text.trim " ..\\b.kpage".toList) = false ∧
    resolve "/pages/a.kpage" " ..\\b.kpage" = .ok "/b.kpage" := by
  have hsource : Canonical "/pages/a.kpage" ["pages".toList, "a.kpage".toList] := by decide
  have hrooted : isRooted (Text.trim " ..\\b.kpage".toList) = false := by decide
  refine ⟨hsource, hrooted, ?_⟩
  rw [normalize_and_resolve_canonical.2.2.2.1 _ _ hsource _ hrooted, reads_iff]
  decide

end PageScript.Path
