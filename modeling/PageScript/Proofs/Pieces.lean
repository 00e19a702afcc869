/-!
# Pieces between separators

A list cut at a separator leaves pieces that hold what the list holds, the separator apart. What is
taken from its front does not reach over a separator either.
-/

namespace PageScript

theorem mem_of_mem_splitOn {α : Type} [BEq α] [LawfulBEq α] {separator c : α}
    {list piece : List α} (h : piece ∈ list.splitOn separator) (hc : c ∈ piece) :
    c ∈ list ∧ c ≠ separator := by
  induction list generalizing piece with
  | nil =>
    rw [List.splitOn_nil, List.mem_singleton] at h
    rw [h] at hc
    contradiction
  | cons first list ih =>
    have hrest {piece : List α} (h : piece ∈ list.splitOn separator) (hc : c ∈ piece) :
        c ∈ first :: list ∧ c ≠ separator := by
      obtain ⟨hmem, hne⟩ := ih h hc
      exact ⟨List.mem_cons_of_mem first hmem, hne⟩
    rw [List.splitOn_cons_eq_if_modifyHead] at h
    split at h
    · obtain rfl | h := List.mem_cons.mp h
      · contradiction
      · exact hrest h hc
    · next hfirst =>
      obtain ⟨piece', pieces, hsplit⟩ :=
        List.exists_cons_of_ne_nil (List.splitOn_ne_nil separator list)
      rw [hsplit, List.modifyHead_cons] at h
      rw [hsplit] at hrest
      obtain rfl | h := List.mem_cons.mp h
      · obtain rfl | hc := List.mem_cons.mp hc
        · exact ⟨List.mem_cons_self, fun hc ↦ hfirst (beq_iff_eq.mpr hc)⟩
        · exact hrest List.mem_cons_self hc
      · exact hrest (List.mem_cons_of_mem piece' h) hc

theorem notMem_of_mem_splitOn {α : Type} [BEq α] [LawfulBEq α] {separator : α}
    {list piece : List α} (h : piece ∈ list.splitOn separator) : separator ∉ piece :=
  fun hc ↦ (mem_of_mem_splitOn h hc).2 rfl

/-- What is taken from a list ends where something must not be taken. -/
theorem takeWhile_append_cons {α : Type} {p : α → Bool} {separator : α} (h : p separator = false)
    (list rest : List α) : (list ++ separator :: rest).takeWhile p = list.takeWhile p := by
  induction list with
  | nil => rw [List.nil_append, List.takeWhile_cons_of_neg (by simp [h]), List.takeWhile_nil]
  | cons c list ih => rw [List.cons_append, List.takeWhile_cons, List.takeWhile_cons, ih]

end PageScript
