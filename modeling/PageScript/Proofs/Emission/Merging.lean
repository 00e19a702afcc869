import Mathlib.Data.List.SplitBy
import PageScript.Proofs.Emission.Code

/-!
# Merged bodies

Merging gives each body one form in which no two writes stand side by side: every longest run of
writes has become one write, and nothing else has changed. It does not matter in which steps a body
is merged, so that it can be built up from the front or put together from parts.
-/

namespace PageScript

/-- What a write adds to the page. -/
def BoundStatement.written (stmt : BoundStatement) : String :=
  match stmt.op with
  | .write text => text
  | _ => ""

namespace Emission

/-- Two statements of one run. -/
def joins (first second : BoundStatement) : Bool := first.isWrite && second.isWrite

/-- No two writes stand side by side. -/
def Separate (body : List BoundStatement) : Prop :=
  body.IsChain fun first second ↦ joins first second = false

/-- A run of writes as one write at the place of the first. Other statements stay as they are. -/
def condense : List BoundStatement → List BoundStatement
  | [] => []
  | first :: more =>
    if first.isWrite then
      [⟨.write (String.join ((first :: more).map BoundStatement.written)), first.location⟩]
    else first :: more

/-- Two writes as one. -/
def joined (first second : BoundStatement) : BoundStatement :=
  ⟨.write (first.written ++ second.written), first.location⟩

variable {stmt next last : BoundStatement} {body merged run : List BoundStatement}

theorem exists_write_of_isWrite (h : stmt.isWrite = true) :
    ∃ text location, stmt = ⟨.write text, location⟩ := by
  rcases stmt with ⟨op, location⟩
  cases op with
  | write text => exact ⟨text, location, rfl⟩
  | create | assign | render | embed => contradiction

/-- Joined writes join with the same statements as the last of them. -/
theorem joins_joined (h : joins stmt next = true) (other : BoundStatement) :
    joins (joined stmt next) other = joins next other := by
  rw [joins, joins, (Bool.and_eq_true_iff.mp h).2]
  rfl

theorem joins_joined_right (h : joins stmt next = true) (other : BoundStatement) :
    joins other (joined stmt next) = joins other stmt := by
  rw [joins, joins, (Bool.and_eq_true_iff.mp h).1]
  rfl

/-! ## A statement in front -/

/-- A statement in front of a merged body: a write is taken up by a write behind it. -/
def attach (stmt : BoundStatement) (merged : List BoundStatement) : List BoundStatement :=
  match stmt.op, merged with
  | .write text, ⟨.write more, _⟩ :: rest => ⟨.write (text ++ more), stmt.location⟩ :: rest
  | _, merged => stmt :: merged

theorem mergeWrites_cons_eq_attach (stmt : BoundStatement) (rest : List BoundStatement) :
    mergeWrites (stmt :: rest) = attach stmt (mergeWrites rest) := rfl

theorem attach_of_joins (h : joins stmt next = true) (rest : List BoundStatement) :
    attach stmt (next :: rest) = joined stmt next :: rest := by
  obtain ⟨hstmt, hnext⟩ := Bool.and_eq_true_iff.mp h
  obtain ⟨text, location, rfl⟩ := exists_write_of_isWrite hstmt
  obtain ⟨more, place, rfl⟩ := exists_write_of_isWrite hnext
  rfl

/-- A statement that does not join with the first one stands in front of it. -/
theorem attach_of_not_joins (h : ∀ next ∈ merged.head?, joins stmt next = false) :
    attach stmt merged = stmt :: merged := by
  unfold attach
  split
  · rename_i text more location rest hop
    have hjoins := h _ rfl
    rw [joins, BoundStatement.isWrite, hop] at hjoins
    contradiction
  · rfl

theorem attach_cases (stmt : BoundStatement) (merged : List BoundStatement) :
    (∃ next rest, merged = next :: rest ∧ joins stmt next = true ∧
      attach stmt merged = joined stmt next :: rest) ∨
    ((∀ next ∈ merged.head?, joins stmt next = false) ∧ attach stmt merged = stmt :: merged) := by
  by_cases h : ∃ next ∈ merged.head?, joins stmt next = true
  · obtain ⟨next, hnext, hjoins⟩ := h
    obtain ⟨rest, rfl⟩ := List.head?_eq_some_iff.mp hnext
    exact .inl ⟨next, rest, rfl, hjoins, attach_of_joins hjoins rest⟩
  · have hapart : ∀ next ∈ merged.head?, joins stmt next = false := by simpa using h
    exact .inr ⟨hapart, attach_of_not_joins hapart⟩

/-- A write that stands in front of two others is taken up by them in either order. -/
theorem attach_attach (h : joins stmt next = true) (merged : List BoundStatement) :
    attach stmt (attach next merged) = attach (joined stmt next) merged := by
  obtain ⟨last, rest, rfl, hjoins, heq⟩ | ⟨hapart, heq⟩ := attach_cases next merged
  · have hfirst : joins stmt (joined next last) = true := (joins_joined_right hjoins stmt).trans h
    have hlast : joins (joined stmt next) last = true := (joins_joined h last).trans hjoins
    rw [heq, attach_of_joins hfirst, attach_of_joins hlast]
    simp only [joined, BoundStatement.written, String.append_assoc]
  · have hnot : ∀ other ∈ merged.head?, joins (joined stmt next) other = false :=
      fun other hother ↦ (joins_joined h other).trans (hapart other hother)
    rw [heq, attach_of_joins h, attach_of_not_joins hnot]

/-! ## Merged bodies -/

/-- Attaching a statement leaves no neighbours that could be joined. -/
theorem separate_attach (h : Separate merged) (stmt : BoundStatement) :
    Separate (attach stmt merged) := by
  obtain ⟨next, rest, rfl, hjoins, heq⟩ | ⟨hapart, heq⟩ := attach_cases stmt merged
  · obtain ⟨hnext, hrest⟩ := List.isChain_cons.mp h
    rw [heq]
    exact List.isChain_cons.mpr
      ⟨fun other hother ↦ (joins_joined hjoins other).trans (hnext other hother), hrest⟩
  · rw [heq]
    exact List.isChain_cons.mpr ⟨hapart, h⟩

/-- No two writes stand side by side in a merged body. -/
theorem separate_mergeWrites (body : List BoundStatement) : Separate (mergeWrites body) := by
  induction body with
  | nil => exact List.isChain_nil
  | cons stmt rest ih => exact separate_attach ih stmt

/-- A body without neighbouring writes is merged already. -/
theorem mergeWrites_of_separate (h : Separate body) : mergeWrites body = body := by
  induction body with
  | nil => rfl
  | cons stmt rest ih =>
    obtain ⟨hstmt, hrest⟩ := List.isChain_cons.mp h
    rw [mergeWrites_cons_eq_attach, ih hrest, attach_of_not_joins hstmt]

/-- Merging twice is merging once. -/
theorem mergeWrites_mergeWrites (body : List BoundStatement) :
    mergeWrites (mergeWrites body) = mergeWrites body :=
  mergeWrites_of_separate (separate_mergeWrites body)

/-! ## Bodies put together -/

theorem mergeWrites_append_eq_foldr (body other : List BoundStatement) :
    mergeWrites (body ++ other) = body.foldr attach (mergeWrites other) := by
  induction body with
  | nil => rfl
  | cons stmt rest ih => rw [List.cons_append, mergeWrites_cons_eq_attach, ih, List.foldr_cons]

/-- It does not matter whether a statement is attached before or after a body is put behind. -/
theorem mergeWrites_attach_append (stmt : BoundStatement) (merged other : List BoundStatement) :
    mergeWrites (attach stmt merged ++ other) = attach stmt (mergeWrites (merged ++ other)) := by
  obtain ⟨next, rest, rfl, hjoins, heq⟩ | ⟨_, heq⟩ := attach_cases stmt merged
  · rw [heq, List.cons_append, List.cons_append, mergeWrites_cons_eq_attach,
      mergeWrites_cons_eq_attach, attach_attach hjoins]
  · rw [heq, List.cons_append, mergeWrites_cons_eq_attach]

/-- A body may be merged before another one is put behind it. -/
theorem mergeWrites_mergeWrites_append (body other : List BoundStatement) :
    mergeWrites (mergeWrites body ++ other) = mergeWrites (body ++ other) := by
  induction body with
  | nil => rfl
  | cons stmt rest ih =>
    rw [mergeWrites_cons_eq_attach, mergeWrites_attach_append, ih, List.cons_append,
      mergeWrites_cons_eq_attach]

/-- Parts of a body may be merged before they are put together. -/
theorem mergeWrites_append (body other : List BoundStatement) :
    mergeWrites (body ++ other) = mergeWrites (mergeWrites body ++ mergeWrites other) := by
  calc mergeWrites (body ++ other)
      = (mergeWrites body).foldr attach (mergeWrites other) := by
        rw [← mergeWrites_mergeWrites_append, mergeWrites_append_eq_foldr]
    _ = (mergeWrites body).foldr attach (mergeWrites (mergeWrites other)) := by
        rw [mergeWrites_mergeWrites]
    _ = mergeWrites (mergeWrites body ++ mergeWrites other) :=
        (mergeWrites_append_eq_foldr _ _).symm

/-! ## Runs -/

/-- Merging leaves a write in front where there was one. -/
theorem isWrite_head?_mergeWrites (body : List BoundStatement) :
    (mergeWrites body).head?.map BoundStatement.isWrite =
      body.head?.map BoundStatement.isWrite := by
  cases body with
  | nil => rfl
  | cons stmt rest =>
    rw [mergeWrites_cons_eq_attach]
    obtain ⟨next, others, _, hjoins, heq⟩ | ⟨_, heq⟩ := attach_cases stmt (mergeWrites rest)
    · rw [heq, List.head?_cons, List.head?_cons, Option.map_some, Option.map_some,
        (Bool.and_eq_true_iff.mp hjoins).1]
      rfl
    · rw [heq, List.head?_cons, List.head?_cons]

/-- A run of writes is one write, at the place of the first. -/
theorem condense_of_isWrite (h : stmt.isWrite = true) (more : List BoundStatement) :
    condense (stmt :: more) =
      [⟨.write (String.join ((stmt :: more).map BoundStatement.written)), stmt.location⟩] :=
  if_pos h

theorem joined_join (stmt : BoundStatement) (more : List BoundStatement) (place : Location) :
    joined stmt ⟨.write (String.join (more.map BoundStatement.written)), place⟩ =
      ⟨.write (String.join ((stmt :: more).map BoundStatement.written)), stmt.location⟩ := by
  rw [List.map_cons, String.join_cons]
  rfl

theorem condense_singleton (stmt : BoundStatement) : condense [stmt] = [stmt] := by
  cases h : stmt.isWrite with
  | true =>
    obtain ⟨text, location, rfl⟩ := exists_write_of_isWrite h
    rw [condense_of_isWrite h, List.map_singleton, String.join_cons, String.join_nil,
      String.append_empty]
    rfl
  | false => exact if_neg (by simp [h])

/-- A whole run in front of a body is condensed, however long it is. -/
theorem mergeWrites_run (hne : run ≠ []) (hrun : run.IsChain fun first second ↦ joins first second)
    (hend : ∀ last ∈ run.getLast?, ∀ next ∈ body.head?, joins last next = false) :
    mergeWrites (run ++ body) = condense run ++ mergeWrites body := by
  induction run with
  | nil => contradiction
  | cons stmt more ih =>
    cases more with
    | nil =>
      have hapart : ∀ next ∈ (mergeWrites body).head?, joins stmt next = false := by
        intro next hnext
        have hhead := isWrite_head?_mergeWrites body
        rw [hnext, Option.map_some, eq_comm, Option.map_eq_some_iff] at hhead
        obtain ⟨first, hfirst, hsame⟩ := hhead
        rw [joins, ← hsame]
        exact hend stmt rfl first hfirst
      rw [List.singleton_append, mergeWrites_cons_eq_attach, attach_of_not_joins hapart,
        condense_singleton, List.singleton_append]
    | cons next more =>
      obtain ⟨hjoins, hmore⟩ := List.isChain_cons_cons.mp hrun
      obtain ⟨hstmt, hnext⟩ := Bool.and_eq_true_iff.mp hjoins
      have hrest :
          mergeWrites (next :: more ++ body) = condense (next :: more) ++ mergeWrites body :=
        ih (List.cons_ne_nil next more) hmore (by rwa [List.getLast?_cons_cons] at hend)
      rw [List.cons_append, mergeWrites_cons_eq_attach, hrest, condense_of_isWrite hnext,
        condense_of_isWrite hstmt, List.singleton_append, List.singleton_append,
        attach_of_joins (Bool.and_eq_true_iff.mpr ⟨hstmt, rfl⟩), joined_join]

/-- Maximal runs are condensed each for itself. -/
theorem mergeWrites_flatten {runs : List (List BoundStatement)} (hne : [] ∉ runs)
    (hruns : ∀ run ∈ runs, run.IsChain fun first second ↦ joins first second)
    (hends : runs.IsChain fun run other ↦
      ∃ hrun hother, joins (run.getLast hrun) (other.head hother) = false) :
    mergeWrites runs.flatten = runs.flatMap condense := by
  induction runs with
  | nil => rfl
  | cons run others ih =>
    rw [List.mem_cons, not_or] at hne
    rw [List.forall_mem_cons] at hruns
    obtain ⟨hnext, hothers⟩ := List.isChain_cons.mp hends
    have hend : ∀ last ∈ run.getLast?, ∀ next ∈ others.flatten.head?, joins last next = false := by
      intro last hlast next hhead
      cases others with
      | nil => contradiction
      | cons other more =>
        obtain ⟨hrun, hother, hjoins⟩ := hnext other rfl
        rw [List.flatten_cons, List.head?_append_of_ne_nil _ hother] at hhead
        rwa [List.getLast_of_mem_getLast? hlast, List.head_of_mem_head? hhead] at hjoins
    rw [List.flatten_cons, mergeWrites_run (Ne.symm hne.1) hruns.1 hend,
      ih hne.2 hruns.2 hothers, List.flatMap_cons]

/-- Merging condenses the longest runs of a body, each into one write. -/
theorem mergeWrites_eq_flatMap (body : List BoundStatement) :
    mergeWrites body = (body.splitBy joins).flatMap condense := by
  have h := mergeWrites_flatten (List.nil_notMem_splitBy joins body)
    (fun _ ↦ List.isChain_of_mem_splitBy) (List.isChain_getLast_head_splitBy joins body)
  rwa [List.flatten_splitBy] at h

/-! ## Building up from the front -/

/-- A merged body that goes on with a statement: a write extends a write at the end. -/
def extend (merged : List BoundStatement) (stmt : BoundStatement) : List BoundStatement :=
  match merged.getLast? with
  | some last => if joins last stmt then merged.dropLast ++ [joined last stmt] else merged ++ [stmt]
  | none => [stmt]

theorem extend_concat (init : List BoundStatement) (last stmt : BoundStatement) :
    extend (init ++ [last]) stmt =
      if joins last stmt then init ++ [joined last stmt] else init ++ [last] ++ [stmt] := by
  rw [extend, List.getLast?_concat, List.dropLast_concat]

/-- A last statement keeps a body separate if it does not join with the one before. -/
theorem separate_concat {init : List BoundStatement} : Separate (init ++ [stmt]) ↔
    Separate init ∧ ∀ last ∈ init.getLast?, joins last stmt = false := by
  rw [Separate, List.isChain_append]
  simp [Separate]

/-- One more statement joins with the last one or stands behind it. -/
theorem mergeWrites_concat_of_separate (h : Separate merged) (stmt : BoundStatement) :
    mergeWrites (merged ++ [stmt]) = extend merged stmt := by
  cases merged using List.reverseRecOn with
  | nil => exact mergeWrites_of_separate (List.isChain_singleton stmt)
  | append_singleton init last =>
    rw [extend_concat]
    cases hjoins : joins last stmt with
    | true =>
      obtain ⟨hinit, hlast⟩ := separate_concat.mp h
      -- with the last two joined, the body is separate again, and merging leaves it as it is
      have hjoined : Separate (init ++ [joined last stmt]) := separate_concat.mpr
        ⟨hinit, fun other hother ↦ (joins_joined_right hjoins other).trans (hlast other hother)⟩
      calc mergeWrites (init ++ [last] ++ [stmt])
          = init.foldr attach (attach last [stmt]) := by
            rw [List.append_assoc, mergeWrites_append_eq_foldr, List.singleton_append,
              mergeWrites_cons_eq_attach, mergeWrites_of_separate (List.isChain_singleton stmt)]
        _ = init.foldr attach (mergeWrites [joined last stmt]) := by
            rw [attach_of_joins hjoins, mergeWrites_of_separate (List.isChain_singleton _)]
        _ = init ++ [joined last stmt] := by
            rw [← mergeWrites_append_eq_foldr, mergeWrites_of_separate hjoined]
    | false =>
      have hapart : Separate (init ++ [last] ++ [stmt]) := by
        refine separate_concat.mpr ⟨h, fun other hother ↦ ?_⟩
        rw [List.getLast?_concat] at hother
        rwa [← Option.some.inj hother]
      exact mergeWrites_of_separate hapart

/-- A merged body can be built up statement by statement, with a last one that grows. -/
theorem mergeWrites_eq_foldl (body : List BoundStatement) :
    mergeWrites body = body.foldl extend [] := by
  induction body using List.reverseRecOn with
  | nil => rfl
  | append_singleton body stmt ih =>
    rw [← mergeWrites_mergeWrites_append,
      mergeWrites_concat_of_separate (separate_mergeWrites body), ih, List.foldl_append,
      List.foldl_cons, List.foldl_nil]

/-- Merging gives a canonical body, whichever way a body is put together. -/
theorem mergeWrites_canonical (body : List BoundStatement) :
    Separate (mergeWrites body) ∧
    ((mergeWrites body).filter fun stmt ↦ !stmt.isWrite) =
      (body.filter fun stmt ↦ !stmt.isWrite) ∧
    mergeWrites body = (body.splitBy joins).flatMap condense ∧
    mergeWrites (mergeWrites body) = mergeWrites body ∧
    (∀ other, mergeWrites (body ++ other) = mergeWrites (mergeWrites body ++ mergeWrites other)) ∧
    mergeWrites body = body.foldl extend [] :=
  ⟨separate_mergeWrites body, filter_mergeWrites body, mergeWrites_eq_flatMap body,
    mergeWrites_mergeWrites body, mergeWrites_append body, mergeWrites_eq_foldl body⟩

end Emission

end PageScript
