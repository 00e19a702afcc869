import Mathlib.Data.List.Nodup
import PageScript.Emission
import PageScript.Proofs.Wire

/-!
# Pools

Pools only grow while a module is emitted, so that an index handed out early still means the same in
the tables of the finished image. Indices are words: all this holds as long as a pool has at most
2^32 members.
-/

namespace PageScript.Emission

/-! ## Interning -/

/-- Only values that are missing are added, so no value ever stands twice in a pool. -/
theorem nodup_intern {α : Type} [BEq α] [LawfulBEq α] {pool : List α} (h : pool.Nodup) (value : α) :
    (intern pool value).2.Nodup := by
  unfold intern
  cases hindex : pool.idxOf? value with
  | some index => exact h
  | none => exact List.concat_eq_append ▸ h.concat (List.idxOf?_eq_none_iff.mp hindex)

/-- Interning adds at the end at most, and the index it gives is that of the value. -/
theorem intern_spec {α : Type} [BEq α] [LawfulBEq α] (pool : List α) (value : α) :
    pool <+: (intern pool value).2 ∧
      (intern pool value).2[(intern pool value).1]? = some value := by
  unfold intern
  cases hindex : pool.idxOf? value with
  | some index =>
    rw [List.idxOf?_eq_some_iff] at hindex
    obtain ⟨hlt, heq, _⟩ := hindex
    refine ⟨List.prefix_refl _, ?_⟩
    rw [List.getElem?_eq_getElem hlt, heq]
  | none => exact ⟨List.prefix_append _ _, by simp⟩

/-- An index stays good while a pool grows. -/
theorem getElem?_of_isPrefix {α : Type} {first second : List α} (h : first <+: second) {index : Nat}
    {value : α} (hvalue : first[index]? = some value) : second[index]? = some value := by
  obtain ⟨rest, rfl⟩ := h
  have hlt := (List.getElem?_eq_some_iff.mp hvalue).1
  rw [List.getElem?_append_left hlt, hvalue]

/-- An index that has become a word still finds its member. -/
theorem getElem?_toNat_ofNat {α : Type} {pool : List α} {index : Nat} {value : α}
    (hvalue : pool[index]? = some value) (hsize : pool.length ≤ UInt32.size) :
    pool[(UInt32.ofNat index).toNat]? = some value := by
  have hlt := (List.getElem?_eq_some_iff.mp hvalue).1
  rw [Wire.toNat_ofNat_of_lt (by omega), hvalue]

namespace Pools

/-- The tables of `pools` are the beginnings of those of `later`. -/
structure Within (pools later : Pools) : Prop where
  strings : pools.strings <+: later.strings
  types : pools.types <+: later.types
  entries : pools.entries <+: later.entries

/-- Places in the tables can be told by words. -/
structure Fits (pools : Pools) : Prop where
  strings : pools.strings.length ≤ UInt32.size
  entries : pools.entries.length ≤ UInt32.size

/-- `entry` names `type`. -/
structure Names (pools : Pools) (entry : Image.TypeEntry) (type : TypeName) : Prop where
  module : pools.strings[entry.module.toNat]? = some type.module
  name : pools.strings[entry.name.toNat]? = some type.name

/-- Every pooled type has an entry that names it. -/
structure Sound (pools : Pools) : Prop where
  length_entries : pools.entries.length = pools.types.length
  named : pools.Fits → ∀ (index : Nat) (type : TypeName), pools.types[index]? = some type →
    ∃ entry, pools.entries[index]? = some entry ∧ pools.Names entry type

theorem Within.refl (pools : Pools) : pools.Within pools :=
  ⟨List.prefix_refl _, List.prefix_refl _, List.prefix_refl _⟩

theorem Within.trans {pools middle later : Pools} (hfirst : pools.Within middle)
    (hsecond : middle.Within later) : pools.Within later :=
  ⟨hfirst.strings.trans hsecond.strings, hfirst.types.trans hsecond.types,
    hfirst.entries.trans hsecond.entries⟩

/-- A pool that is small enough at the end of emission was so all the time. -/
theorem Within.fits {pools later : Pools} (h : pools.Within later) (hfits : later.Fits) :
    pools.Fits :=
  ⟨Nat.le_trans h.strings.length_le hfits.strings, Nat.le_trans h.entries.length_le hfits.entries⟩

/-- What an entry of the type table names does not change while pools grow. -/
theorem Names.mono {pools later : Pools} {entry : Image.TypeEntry} {type : TypeName}
    (hnames : pools.Names entry type) (h : pools.Within later) : later.Names entry type :=
  ⟨getElem?_of_isPrefix h.strings hnames.module, getElem?_of_isPrefix h.strings hnames.name⟩

theorem sound_empty : Sound {} :=
  ⟨rfl, fun _ _ _ h ↦ by simp at h⟩

/-! ## Texts -/

theorem text_within (pools : Pools) (value : String) : pools.Within (pools.text value).2 :=
  ⟨(intern_spec pools.strings value).1, List.prefix_refl _, List.prefix_refl _⟩

/-- The index of a text leads back to it, as long as indices are words of 32 bits. -/
theorem getElem?_text (pools : Pools) (value : String)
    (hsize : (pools.text value).2.strings.length ≤ UInt32.size) :
    (pools.text value).2.strings[(pools.text value).1.toNat]? = some value :=
  getElem?_toNat_ofNat (intern_spec pools.strings value).2 hsize

theorem Sound.text {pools : Pools} (h : pools.Sound) (value : String) :
    (pools.text value).2.Sound := by
  have hwithin := pools.text_within value
  refine ⟨h.length_entries, fun hfits index type htype ↦ ?_⟩
  obtain ⟨entry, hentry, hnames⟩ := h.named (hwithin.fits hfits) index type htype
  exact ⟨entry, hentry, hnames.mono hwithin⟩

/-! ## Types -/

/-- A type that is known already keeps its index and leaves the pools alone. -/
theorem type_of_mem {pools : Pools} {value : TypeName} {index : Nat}
    (h : pools.types.idxOf? value = some index) :
    pools.type value = (UInt32.ofNat index, pools) := by
  simp only [type, h]

/-- A new type takes the texts of its module and its name along, in this order. -/
theorem type_of_not_mem {pools : Pools} {value : TypeName}
    (h : pools.types.idxOf? value = none) :
    pools.type value =
      let named := (pools.text value.module).2.text value.name
      (UInt32.ofNat pools.types.length,
        { named.2 with
          types := pools.types ++ [value]
          entries := pools.entries ++ [⟨(pools.text value.module).1, named.1⟩] }) := by
  simp only [type, h]
  rfl

theorem type_within (pools : Pools) (value : TypeName) : pools.Within (pools.type value).2 := by
  cases hindex : pools.types.idxOf? value with
  | some index =>
    rw [type_of_mem hindex]
    exact .refl pools
  | none =>
    have hmodule := pools.text_within value.module
    have hname := (pools.text value.module).2.text_within value.name
    rw [type_of_not_mem hindex]
    exact ⟨hmodule.strings.trans hname.strings, List.prefix_append _ _, List.prefix_append _ _⟩

/-- The entries of a new type are made of indices that its texts have at this time. -/
theorem Sound.type {pools : Pools} (h : pools.Sound) (value : TypeName) :
    (pools.type value).2.Sound := by
  cases hindex : pools.types.idxOf? value with
  | some index =>
    rw [type_of_mem hindex]
    exact h
  | none =>
    have hwithin := pools.type_within value
    rw [type_of_not_mem hindex] at hwithin ⊢
    refine ⟨by simp [h.length_entries], fun hfits index type htype ↦ ?_⟩
    by_cases hlt : index < pools.types.length
    · rw [List.getElem?_append_left hlt] at htype
      obtain ⟨entry, hentry, hnames⟩ := h.named (hwithin.fits hfits) index type htype
      exact ⟨entry, getElem?_of_isPrefix hwithin.entries hentry, hnames.mono hwithin⟩
    · -- only the type that was just added is left
      have hvalue : index = pools.types.length ∧ type = value := by
        rw [List.getElem?_append_right (by omega)] at htype
        obtain ⟨hzero, heq⟩ := List.getElem?_eq_some_iff.mp htype
        simp only [List.length_singleton] at hzero
        have hindex : index - pools.types.length = 0 := by omega
        simp only [hindex, List.getElem_cons_zero] at heq
        exact ⟨by omega, heq.symm⟩
      obtain ⟨rfl, rfl⟩ := hvalue
      have hname := (pools.text type.module).2.text_within type.name
      have hstrings := Nat.le_trans hname.strings.length_le hfits.strings
      refine ⟨⟨(pools.text type.module).1, ((pools.text type.module).2.text type.name).1⟩,
        ?_, ?_, ?_⟩
      · rw [← h.length_entries]
        exact List.getElem?_concat_length
      · exact getElem?_of_isPrefix hname.strings (getElem?_text _ _ hstrings)
      · exact getElem?_text _ _ hfits.strings

/-- The index of a type leads back to it before it is cut down to 32 bits. -/
theorem exists_getElem?_type (pools : Pools) (value : TypeName) :
    ∃ index, (pools.type value).1 = UInt32.ofNat index ∧
      (pools.type value).2.types[index]? = some value := by
  cases hindex : pools.types.idxOf? value with
  | some index =>
    rw [type_of_mem hindex]
    obtain ⟨hlt, heq, _⟩ := List.idxOf?_eq_some_iff.mp hindex
    exact ⟨index, rfl, by rw [List.getElem?_eq_getElem hlt, heq]⟩
  | none =>
    rw [type_of_not_mem hindex]
    exact ⟨pools.types.length, rfl, List.getElem?_concat_length⟩

/-- The entry at the index of a type names the module and the type, if everything fits. -/
theorem Sound.getElem?_type {pools : Pools} (h : pools.Sound) (value : TypeName)
    (hfits : (pools.type value).2.Fits) :
    ∃ entry, (pools.type value).2.entries[(pools.type value).1.toNat]? = some entry ∧
      (pools.type value).2.Names entry value := by
  obtain ⟨index, hindex, htype⟩ := pools.exists_getElem?_type value
  obtain ⟨entry, hentry, hnames⟩ := (h.type value).named hfits index value htype
  rw [hindex]
  exact ⟨entry, getElem?_toNat_ofNat hentry hfits.entries, hnames⟩

/-! ## What emission keeps -/

/-- A property of pools that stays when one more text or type is pooled. -/
structure Kept (holds : Pools → Prop) : Prop where
  text : ∀ {pools : Pools} (value : String), holds pools → holds (pools.text value).2
  type : ∀ {pools : Pools} (value : TypeName), holds pools → holds (pools.type value).2

/-- Pools only grow: whatever is emitted, the pools from before are within those behind it. -/
theorem kept_within (pools : Pools) : Kept pools.Within :=
  ⟨fun value h ↦ h.trans (text_within _ value), fun value h ↦ h.trans (type_within _ value)⟩

theorem kept_sound : Kept Sound := ⟨fun value h ↦ h.text value, fun value h ↦ h.type value⟩

/-- No text and no type is pooled twice. -/
structure Distinct (pools : Pools) : Prop where
  strings : pools.strings.Nodup
  types : pools.types.Nodup

theorem distinct_empty : Distinct {} := ⟨List.nodup_nil, List.nodup_nil⟩

theorem Distinct.text {pools : Pools} (h : pools.Distinct) (value : String) :
    (pools.text value).2.Distinct := ⟨nodup_intern h.strings value, h.types⟩

theorem Distinct.type {pools : Pools} (h : pools.Distinct) (value : TypeName) :
    (pools.type value).2.Distinct := by
  cases hindex : pools.types.idxOf? value with
  | some index =>
    rw [type_of_mem hindex]
    exact h
  | none =>
    have htypes := nodup_intern h.types value
    rw [intern, hindex] at htypes
    rw [type_of_not_mem hindex]
    exact ⟨((h.text value.module).text value.name).strings, htypes⟩

theorem kept_distinct : Kept Distinct := ⟨fun value h ↦ h.text value, fun value h ↦ h.type value⟩

end Pools

end PageScript.Emission
