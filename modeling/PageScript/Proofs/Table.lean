import Mathlib.Data.List.Induction
import Mathlib.Data.List.Nodup
import Mathlib.Data.String.Basic
import PageScript.Table

/-!
# Entries of tables

A table only ever holds what was put into it, and it has a value for each of its names: the one that
was put in last.
-/

namespace PageScript

theorem mem_of_lookup_eq_some {α β : Type} [BEq α] [LawfulBEq α] {entries : List (α × β)}
    {name : α} {value : β} (h : entries.lookup name = some value) : (name, value) ∈ entries := by
  obtain ⟨first, last, rfl, _⟩ := List.lookup_eq_some_iff.mp h
  exact List.mem_append_right _ List.mem_cons_self

/-- Names that are kept are found as before. -/
theorem lookup_filter {α β : Type} [BEq α] [LawfulBEq α] (keep : α → Bool) {name : α}
    (h : keep name = true) (entries : List (α × β)) :
    (entries.filter fun entry ↦ keep entry.1).lookup name = entries.lookup name := by
  induction entries with
  | nil => rfl
  | cons entry rest ih =>
    rcases entry with ⟨other, value⟩
    by_cases hname : name = other
    · subst hname
      simp only [List.filter_cons, h, if_true, List.lookup_cons_self]
    · have hskip : (name == other) = false := beq_false_of_ne hname
      rw [List.filter_cons]
      split
      · rw [List.lookup_cons, List.lookup_cons, hskip, ih]
      · rw [List.lookup_cons, hskip, ih]

theorem lookup_filter_eq_none {α β : Type} [BEq α] [LawfulBEq α] (keep : α → Bool) {name : α}
    (h : keep name = false) (entries : List (α × β)) :
    (entries.filter fun entry ↦ keep entry.1).lookup name = none := by
  rw [List.lookup_eq_none_iff]
  intro entry hentry
  have hkeep := (List.mem_filter.mp hentry).2
  refine bne_iff_ne.mpr fun hname ↦ ?_
  rw [← hname, h] at hkeep
  contradiction

theorem lookup_map_same {α β : Type} [BEq α] [LawfulBEq α] [DecidableEq α] (names : List α)
    (value : β) (name : α) :
    (names.map (·, value)).lookup name = if name ∈ names then some value else none := by
  induction names with
  | nil => rfl
  | cons first rest ih =>
    rw [List.map_cons, List.lookup_cons, ih]
    by_cases hname : name = first
    · subst hname
      rw [beq_self_eq_true, if_pos List.mem_cons_self]
    · rw [beq_false_of_ne hname]
      simp only [List.mem_cons, hname, false_or]

/-- An item whose key no other item has is what is found under this key. -/
theorem find?_eq_some_of_unique {α β : Type} [DecidableEq β] {key : α → β} {items : List α}
    {item : α} (hitem : item ∈ items)
    (hunique : ∀ other ∈ items, key other = key item → other = item) :
    (items.find? fun other ↦ key other = key item) = some item := by
  have hsome : (items.find? fun other ↦ key other = key item).isSome :=
    List.find?_isSome.mpr ⟨item, hitem, decide_eq_true rfl⟩
  obtain ⟨found, hfound⟩ := Option.isSome_iff_exists.mp hsome
  have hkey : key found = key item := by simpa using List.find?_some hfound
  rw [hfound, hunique found (List.mem_of_find?_eq_some hfound) hkey]

/-- Where keys are distinct, the item with a key is the one that is found by it. -/
theorem find?_eq_some_iff_of_nodup {α β : Type} [DecidableEq β] {key : α → β} {items : List α}
    (hnodup : (items.map key).Nodup) {value : β} {item : α} :
    (items.find? fun other ↦ key other = value) = some item ↔ item ∈ items ∧ key item = value := by
  constructor
  · intro h
    exact ⟨List.mem_of_find?_eq_some h, by simpa using List.find?_some h⟩
  · rintro ⟨hitem, rfl⟩
    exact find?_eq_some_of_unique hitem fun other hother hkey ↦
      List.inj_on_of_nodup_map hnodup hother hitem hkey

/-- A change that leaves keys alone leaves the list of keys alone. -/
theorem map_modify {α β : Type} {key : α → β} {change : α → α}
    (hkey : ∀ item, key (change item) = key item) (items : List α) (index : Nat) :
    (items.modify index change).map key = items.map key := by
  apply List.ext_getElem?
  intro position
  rw [List.getElem?_map, List.getElem?_map, List.getElem?_modify]
  cases items[position]? with
  | none => rfl
  | some item =>
    by_cases hposition : index = position
    · simp [hposition, hkey]
    · simp [hposition]

/-- A change of the first item under a key, which keeps its key, is seen under this key alone. -/
theorem find?_modify_findIdx? {α β : Type} [DecidableEq β] {key : α → β} {change : α → α}
    (hkey : ∀ item, key (change item) = key item) {value : β} {items : List α} {index : Nat}
    (hindex : (items.findIdx? fun item ↦ key item = value) = some index) (other : β) :
    ((items.modify index change).find? fun item ↦ key item = other) =
      if other = value then (items.find? fun item ↦ key item = value).map change
      else items.find? fun item ↦ key item = other := by
  induction items generalizing index with
  | nil => simp at hindex
  | cons first rest ih =>
    rw [List.findIdx?_cons] at hindex
    by_cases hfirst : key first = value
    · rw [if_pos (decide_eq_true hfirst), Option.some.injEq] at hindex
      subst hindex
      subst hfirst
      rw [List.modify_zero_cons, List.find?_cons, hkey, List.find?_cons, List.find?_cons]
      by_cases hother : other = key first
      · simp [hother]
      · simp [hother, Ne.symm hother]
    · rw [if_neg (by simpa using hfirst)] at hindex
      obtain ⟨position, hposition, rfl⟩ := Option.map_eq_some_iff.mp hindex
      rw [List.modify_succ_cons, List.find?_cons, List.find?_cons, List.find?_cons, ih hposition]
      by_cases hother : key first = other
      · subst hother
        simp [hfirst]
      · simp [hother, hfirst]

namespace Table

variable {α : Type}

/-- A new entry takes the place of the old one under its name. -/
theorem lookup_insertEntry (name other : String) (value : α) (entries : List (String × α)) :
    (insertEntry name value entries).lookup other =
      if other = name then some value else entries.lookup other := by
  induction entries with
  | nil =>
    rw [insertEntry, List.lookup_cons]
    by_cases hother : other = name
    · rw [if_pos hother, beq_iff_eq.mpr hother]
    · rw [if_neg hother, beq_false_of_ne hother]
  | cons first rest ih =>
    rcases first with ⟨n, v⟩
    rw [insertEntry]
    by_cases hother : other = name
    · subst hother
      rw [if_pos rfl] at ih ⊢
      by_cases hn : other = n
      · rw [if_pos hn, List.lookup_cons_self]
      · rw [if_neg hn]
        split
        · rw [List.lookup_cons_self]
        · rw [List.lookup_cons, beq_false_of_ne hn, ih]
    · rw [if_neg hother] at ih ⊢
      split
      · rename_i hn
        subst hn
        rw [List.lookup_cons, List.lookup_cons, beq_false_of_ne hother]
      · split
        · rw [List.lookup_cons, beq_false_of_ne hother]
        · rw [List.lookup_cons, List.lookup_cons, ih]

theorem get?_insert (table : Table α) (name other : String) (value : α) :
    (table.insert name value).get? other = if other = name then some value else table.get? other :=
  lookup_insertEntry name other value table.entries

theorem get?_erase (table : Table α) (name other : String) :
    (table.erase name).get? other = if other = name then none else table.get? other := by
  by_cases hother : other = name
  · rw [if_pos hother]
    exact lookup_filter_eq_none (· ≠ name) (decide_eq_false (not_not_intro hother)) table.entries
  · rw [if_neg hother]
    exact lookup_filter (· ≠ name) (decide_eq_true hother) table.entries

/-! ## Names -/

theorem mem_names_insert {table : Table α} {name other : String} {value : α} :
    other ∈ (table.insert name value).names ↔ other = name ∨ other ∈ table.names := by
  rw [names, names, insert]
  induction table.entries with
  | nil => simp [insertEntry]
  | cons first rest ih =>
    rcases first with ⟨n, v⟩
    rw [insertEntry]
    split
    · rename_i hn
      subst hn
      simp
    · split
      · simp
      · rw [List.map_cons, List.mem_cons, ih, List.map_cons, List.mem_cons]
        exact or_left_comm

/-- Names stay in strict order, so none stands twice. -/
theorem pairwise_names_insert {table : Table α} (h : table.names.Pairwise (· < ·)) (name : String)
    (value : α) : (table.insert name value).names.Pairwise (· < ·) := by
  rcases table with ⟨entries⟩
  induction entries with
  | nil => exact List.pairwise_singleton _ _
  | cons first rest ih =>
    rcases first with ⟨n, v⟩
    obtain ⟨hfirst, hrest⟩ := List.pairwise_cons.mp h
    rw [names, insert, insertEntry]
    split
    · rename_i hn
      subst hn
      exact h
    · rename_i hne
      split
      · rename_i hlt
        refine List.pairwise_cons.mpr ⟨fun other hother ↦ ?_, h⟩
        obtain rfl | hother := List.mem_cons.mp hother
        · exact hlt
        · exact lt_trans hlt (hfirst other hother)
      · rename_i hnlt
        refine List.pairwise_cons.mpr ⟨fun other hother ↦ ?_, ih hrest⟩
        obtain rfl | hother := (@mem_names_insert α ⟨rest⟩ _ _ _).mp hother
        · exact lt_of_le_of_ne (not_lt.mp hnlt) (Ne.symm hne)
        · exact hfirst other hother

theorem names_erase_sublist (table : Table α) (name : String) :
    (table.erase name).names.Sublist table.names :=
  List.filter_sublist.map Prod.fst

/-- Of several entries with one name the last counts. -/
theorem get?_ofList (entries : List (String × α)) (name : String) :
    (ofList entries).get? name = entries.reverse.lookup name := by
  induction entries using List.reverseRecOn with
  | nil => rfl
  | append_singleton entries entry ih =>
    have hinsert : ofList (entries ++ [entry]) = (ofList entries).insert entry.1 entry.2 := by
      rw [ofList, List.foldl_append]
      rfl
    rw [hinsert, get?_insert, List.reverse_concat, List.lookup_cons]
    by_cases hname : name = entry.1
    · rw [if_pos hname, beq_iff_eq.mpr hname]
    · rw [if_neg hname, beq_false_of_ne hname]
      exact ih

/-- What a table gives was put in under this name. -/
theorem mem_of_get?_ofList {entries : List (String × α)} {name : String} {value : α}
    (h : (ofList entries).get? name = some value) : (name, value) ∈ entries := by
  rw [get?_ofList] at h
  exact List.mem_reverse.mp (mem_of_lookup_eq_some h)

theorem contains_iff_mem_names {table : Table α} {name : String} :
    table.contains name = true ↔ name ∈ table.names := by
  rw [contains, Option.isSome_iff_exists, names, List.mem_map]
  constructor
  · rintro ⟨value, hvalue⟩
    exact ⟨(name, value), mem_of_lookup_eq_some hvalue, rfl⟩
  · rintro ⟨⟨_, value⟩, hmem, rfl⟩
    rw [← Option.isSome_iff_exists, get?, List.lookup_isSome_iff]
    exact ⟨_, hmem, beq_self_eq_true _⟩

end Table

end PageScript
