import Mathlib.Data.List.Induction
import PageScript.Path
import PageScript.Proofs.Pieces

/-!
# Segments of a path

What a path says is said on its segments, read from the first to the last: blank ones pass, `..`
takes back what was read last, and what stands at the end is the path in normal form. The stack of
the normalisation holds what stands, the last segment on top.
-/

namespace PageScript.Path

/-! ## Cutting and joining -/

theorem cut_eq_splitOn (path : List Char) : cut path = path.splitOn '/' := by
  induction path with
  | nil => rfl
  | cons c rest ih =>
    obtain ⟨piece, pieces, hsplit⟩ := List.exists_cons_of_ne_nil (List.splitOn_ne_nil '/' rest)
    rw [cut, ih, List.splitOn_cons_eq_if_modifyHead, hsplit]
    simp only [beq_iff_eq, List.modifyHead_cons]

/-- The path of segments below the root. -/
def rooted (segments : List Segment) : String := String.ofList ('/' :: ['/'].intercalate segments)

theorem join_append (front back : List Segment) : join (front ++ back) = join front ++ join back :=
  List.flatMap_append

theorem join_singleton (segment : Segment) : join [segment] = '/' :: segment := by
  rw [join, List.flatMap_singleton]

theorem join_eq_intercalate {segments : List Segment} (h : segments ≠ []) :
    join segments = '/' :: ['/'].intercalate segments := by
  induction segments with
  | nil => contradiction
  | cons segment rest ih =>
    cases rest with
    | nil => rw [join_singleton, List.intercalate_singleton]
    | cons next rest =>
      rw [List.intercalate_cons_cons]
      calc join (segment :: next :: rest) = '/' :: segment ++ join (next :: rest) := rfl
        _ = '/' :: (segment ++ ['/'] ++ ['/'].intercalate (next :: rest)) := by
          rw [ih (List.cons_ne_nil next rest)]
          simp

/-- The path of some segments is each of them behind a slash. -/
theorem rooted_eq_join {segments : List Segment} (h : segments ≠ []) :
    rooted segments = String.ofList (join segments) := by
  rw [join_eq_intercalate h, rooted]

/-- The pieces of a joined path are its segments behind an empty one. -/
theorem splitOn_join {segments : List Segment} (h : ∀ segment ∈ segments, '/' ∉ segment) :
    (join segments).splitOn '/' = [] :: segments := by
  cases segments with
  | nil => rfl
  | cons segment rest =>
    have hne : segment :: rest ≠ [] := List.cons_ne_nil segment rest
    rw [join_eq_intercalate hne, List.splitOn_cons_eq_if_modifyHead, if_pos BEq.rfl,
      List.splitOn_intercalate '/' h hne]

/-! ## Reading segments -/

/-- A segment that names something. -/
structure Ordinary (segment : Segment) : Prop where
  ne_nil : segment ≠ []
  ne_dot : segment ≠ ['.']
  ne_dots : segment ≠ ['.', '.']

instance (segment : Segment) : Decidable (Ordinary segment) :=
  decidable_of_iff (segment ≠ [] ∧ segment ≠ ['.'] ∧ segment ≠ ['.', '.'])
    ⟨fun h ↦ ⟨h.1, h.2.1, h.2.2⟩, fun h ↦ ⟨h.ne_nil, h.ne_dot, h.ne_dots⟩⟩

/-- What stands when these segments have been read. -/
inductive Leaves : List Segment → List Segment → Prop
  | start : Leaves [] []
  | skip {read standing : List Segment} {segment : Segment} (h : Leaves read standing)
      (hsegment : segment = [] ∨ segment = ['.']) : Leaves (read ++ [segment]) standing
  | back {read standing : List Segment} {last : Segment} (h : Leaves read (standing ++ [last])) :
      Leaves (read ++ [['.', '.']]) standing
  | enter {read standing : List Segment} {segment : Segment} (h : Leaves read standing)
      (hsegment : Ordinary segment) : Leaves (read ++ [segment]) (standing ++ [segment])

/-- Some `..` finds nothing to take back. -/
def Climbs (read : List Segment) : Prop :=
  ∃ before behind, read = before ++ ['.', '.'] :: behind ∧ Leaves before []

/-- What a path of these segments comes to; errors quote the path. -/
inductive Reads (read : List Segment) (path : String) : Except FileError String → Prop
  | file {standing : List Segment} (h : Leaves read standing) (hne : standing ≠ []) :
      Reads read path (.ok (rooted standing))
  | root (h : Leaves read []) :
      Reads read path (.error (.invalidPath path "does not name a file"))
  | escape (h : Climbs read) :
      Reads read path (.error (.invalidPath path "escapes the provider root"))

/-- No dots are left of a path. -/
theorem Leaves.ordinary {read standing : List Segment} (h : Leaves read standing) :
    ∀ segment ∈ standing, Ordinary segment := by
  induction h with
  | start => exact List.forall_mem_nil _
  | skip _ _ ih => exact ih
  | back _ ih => exact fun segment hmem ↦ ih segment (List.mem_append_left _ hmem)
  | enter _ hsegment ih =>
    rw [List.forall_mem_append, List.forall_mem_singleton]
    exact ⟨ih, hsegment⟩

/-- What stands was read. -/
theorem Leaves.subset {read standing : List Segment} (h : Leaves read standing) :
    standing ⊆ read := by
  induction h with
  | start => exact List.Subset.refl _
  | skip _ _ ih => exact List.subset_append_of_subset_left _ ih
  | back _ ih =>
    apply List.subset_append_of_subset_left
    exact List.Subset.trans (List.subset_append_left _ _) ih
  | enter _ _ ih =>
    exact List.append_subset.mpr
      ⟨List.subset_append_of_subset_left _ ih, List.subset_append_right _ _⟩

/-- Ordinary segments all stay. -/
theorem leaves_self {segments : List Segment} (h : ∀ segment ∈ segments, Ordinary segment) :
    Leaves segments segments := by
  induction segments using List.reverseRecOn with
  | nil => exact .start
  | append_singleton segments segment ih =>
    rw [List.forall_mem_append, List.forall_mem_singleton] at h
    exact .enter (ih h.1) h.2

/-! ## The stack -/

theorem blank_or_dots_or_ordinary (segment : Segment) :
    (segment = [] ∨ segment = ['.']) ∨ segment = ['.', '.'] ∨ Ordinary segment := by
  by_cases hblank : segment = [] ∨ segment = ['.']
  · exact .inl hblank
  · by_cases hdots : segment = ['.', '.']
    · exact .inr (.inl hdots)
    · rw [not_or] at hblank
      exact .inr (.inr ⟨hblank.1, hblank.2, hdots⟩)

theorem stand_nil (stack : List Segment) : stand stack [] = some stack := by
  rw [stand.eq_def]

/-- Empty segments and single dots say nothing. -/
theorem stand_blank {segment : Segment} (h : segment = [] ∨ segment = ['.'])
    (stack rest : List Segment) : stand stack (segment :: rest) = stand stack rest := by
  rw [stand.eq_def]
  exact if_pos h

theorem stand_ordinary {segment : Segment} (h : Ordinary segment) (stack rest : List Segment) :
    stand stack (segment :: rest) = stand (segment :: stack) rest := by
  rw [stand.eq_def]
  simp only [h.ne_nil, h.ne_dot, h.ne_dots, or_self, if_false]

theorem stand_dots_nil (rest : List Segment) : stand [] (['.', '.'] :: rest) = none := rfl

theorem stand_dots_cons (last : Segment) (stack rest : List Segment) :
    stand (last :: stack) (['.', '.'] :: rest) = stand stack rest := rfl

/-- Segments can be read in two goes, the second on the stack that the first left. -/
theorem stand_append (stack front back : List Segment) :
    stand stack (front ++ back) = (stand stack front).bind (stand · back) := by
  induction front generalizing stack with
  | nil => rw [stand_nil, List.nil_append, Option.bind_some]
  | cons segment front ih =>
    rw [List.cons_append]
    obtain hblank | rfl | hordinary := blank_or_dots_or_ordinary segment
    · rw [stand_blank hblank, stand_blank hblank, ih]
    · cases stack with
      | nil => rfl
      | cons last stack => rw [stand_dots_cons, stand_dots_cons, ih]
    · rw [stand_ordinary hordinary, stand_ordinary hordinary, ih]

/-- The stack holds what stands. -/
theorem Leaves.stand_eq {read standing : List Segment} (h : Leaves read standing) :
    stand [] read = some standing.reverse := by
  induction h with
  | start => rfl
  | skip _ hsegment ih => rw [stand_append, ih, Option.bind_some, stand_blank hsegment, stand_nil]
  | back _ ih =>
    rw [stand_append, ih, List.reverse_append, Option.bind_some]
    rfl
  | enter _ hsegment ih =>
    rw [stand_append, ih, Option.bind_some, stand_ordinary hsegment, List.reverse_append]
    rfl

/-- What stands was read, unless some `..` found nothing to take back. -/
theorem leaves_or_climbs (read : List Segment) :
    (∃ standing, Leaves read standing) ∨ Climbs read := by
  induction read using List.reverseRecOn with
  | nil => exact .inl ⟨[], .start⟩
  | append_singleton read segment ih =>
    obtain ⟨standing, h⟩ | ⟨before, behind, rfl, h⟩ := ih
    · obtain hblank | rfl | hordinary := blank_or_dots_or_ordinary segment
      · exact .inl ⟨standing, h.skip hblank⟩
      · cases standing using List.reverseRecOn with
        | nil => exact .inr ⟨read, [], rfl, h⟩
        | append_singleton standing last => exact .inl ⟨standing, h.back⟩
      · exact .inl ⟨standing ++ [segment], h.enter hordinary⟩
    · exact .inr ⟨before, behind ++ [segment], by simp, h⟩

/-- Where a path leaves the root, nothing is left to stand. -/
theorem Climbs.stand_eq {read : List Segment} (h : Climbs read) : stand [] read = none := by
  obtain ⟨before, behind, rfl, hbefore⟩ := h
  rw [stand_append, hbefore.stand_eq, Option.bind_some, List.reverse_nil, stand_dots_nil]

/-- What is said of a path whose segments leave these. -/
def verdict (path : String) : Option (List Segment) → Except FileError String
  | none => .error (.invalidPath path "escapes the provider root")
  | some [] => .error (.invalidPath path "does not name a file")
  | some segments => .ok (String.ofList (join segments))

theorem verdict_of_ne_nil {segments : List Segment} (h : segments ≠ []) (path : String) :
    verdict path (some segments) = .ok (rooted segments) := by
  cases segments with
  | nil => contradiction
  | cons segment rest =>
    rw [rooted_eq_join h]
    rfl

/-- The rules for segments say what the stack gives. -/
theorem reads_iff {read : List Segment} {path : String} {outcome : Except FileError String} :
    Reads read path outcome ↔ verdict path ((stand [] read).map List.reverse) = outcome := by
  constructor
  · intro h
    cases h with
    | file h hne => rw [h.stand_eq, Option.map_some, List.reverse_reverse, verdict_of_ne_nil hne]
    | root h =>
      rw [h.stand_eq]
      rfl
    | escape h =>
      rw [h.stand_eq]
      rfl
  · intro h
    subst h
    obtain ⟨standing, h⟩ | h := leaves_or_climbs read
    · rw [h.stand_eq, Option.map_some, List.reverse_reverse]
      by_cases hne : standing = []
      · subst hne
        exact .root h
      · rw [verdict_of_ne_nil hne]
        exact .file h hne
    · rw [h.stand_eq]
      exact .escape h

/-- The empty piece before a leading slash says nothing. -/
theorem reads_cons_nil {read : List Segment} {path : String} {outcome : Except FileError String} :
    Reads ([] :: read) path outcome ↔ Reads read path outcome := by
  rw [reads_iff, reads_iff, stand_blank (.inl rfl)]

/-- The pieces between the slashes of a path, a leading tilde apart. -/
def written (path : String) : List Segment := (dropTilde (unify path.toList)).splitOn '/'

/-- The normal form is what the rules make of the segments of a path. -/
theorem normalize_eq_iff {path : String} {outcome : Except FileError String} :
    normalize path = outcome ↔ Reads (written path) path outcome := by
  have hverdict : normalize path =
      verdict path ((stand [] (cut (dropTilde (unify path.toList)))).map List.reverse) := rfl
  rw [hverdict, cut_eq_splitOn, reads_iff, written]

end PageScript.Path
