import PageScript.Proofs.Files.Spellings

/-!
# What holders of a store see

Whoever holds a handle on a store sees the edits that were made through any handle on it, in their
order, and no others. A copy of a handle shows at any time what the handle shows.
-/

namespace PageScript.SharedFiles

open FileStore

/-- The edit that a call makes on the store of a number. -/
def Call.edit? (call : Call) (shared : SharedFiles) (number : Nat) : Option Edit :=
  match call with
  | .change handle edit => if shared.handles[handle]? = some number then some edit else none
  | .create => none
  | .copy _ => none

/-- The edits that some calls make on the store of a number. -/
def edits (number : Nat) : SharedFiles → List Call → List Edit
  | _, [] => []
  | shared, next :: rest =>
    (next.edit? shared number).toList ++ edits number (shared.call next) rest

/-- The edits that are made in a run through the handles on one store. -/
def history (calls : List Call) (handle : Nat) : List Edit :=
  (run calls).handles[handle]?.elim [] fun number ↦ edits number fresh calls

/-! ## Handles -/

/-- Handles stay where they are. -/
theorem handles_call (shared : SharedFiles) (next : Call) :
    shared.handles <+: (shared.call next).handles := by
  cases next with
  | create => exact List.prefix_append _ _
  | copy handle => exact List.prefix_append _ _
  | change handle edit => exact List.prefix_rfl

theorem handles_foldl_call (shared : SharedFiles) (calls : List Call) :
    shared.handles <+: (calls.foldl call shared).handles := by
  induction calls generalizing shared with
  | nil => exact List.prefix_rfl
  | cons next rest ih => exact (handles_call shared next).trans (ih (shared.call next))

theorem handle_foldl_call {shared : SharedFiles} {handle number : Nat}
    (h : shared.handles[handle]? = some number) (calls : List Call) :
    (calls.foldl call shared).handles[handle]? = some number := by
  obtain ⟨more, hmore⟩ := handles_foldl_call shared calls
  rw [← hmore, List.getElem?_append_left (List.getElem?_eq_some_iff.mp h).1, h]

theorem store?_eq_some_iff {shared : SharedFiles} {handle : Nat} {store : FileStore} :
    shared.store? handle = some store ↔
      ∃ number, shared.handles[handle]? = some number ∧ shared.stores[number]? = some store :=
  Option.bind_eq_some_iff

/-- A copy leads where its original leads, whatever is done afterwards. -/
theorem store?_copy {shared : SharedFiles} {handle : Nat} {store : FileStore}
    (h : shared.store? handle = some store) (others : List Call) :
    (others.foldl call (shared.call (.copy handle))).store? shared.handles.length =
      (others.foldl call (shared.call (.copy handle))).store? handle := by
  obtain ⟨number, hnumber, _⟩ := store?_eq_some_iff.mp h
  have hcopy : (shared.call (.copy handle)).handles = shared.handles ++ [number] := by
    change shared.handles ++ shared.handles[handle]?.toList = _
    rw [hnumber, Option.toList_some]
  have hnew : (shared.call (.copy handle)).handles[shared.handles.length]? = some number := by
    rw [hcopy, List.getElem?_concat_length]
  have hold : (shared.call (.copy handle)).handles[handle]? = some number := by
    rw [hcopy, List.getElem?_append_left (List.getElem?_eq_some_iff.mp hnumber).1, hnumber]
  rw [store?, store?, handle_foldl_call hnew, handle_foldl_call hold]

/-! ## Stores -/

/-- A call changes a store by its edit on this store, and by nothing else. A store that is still to
be made counts as empty. -/
theorem getD_stores_call (shared : SharedFiles) (next : Call) (number : Nat) :
    (shared.call next).stores.getD number empty =
      (next.edit? shared number).toList.foldl FileStore.apply
        (shared.stores.getD number empty) := by
  cases next with
  | create =>
    change (shared.stores ++ [FileStore.empty]).getD number empty = _
    rw [List.getD_eq_getElem?_getD, List.getD_eq_getElem?_getD, List.getElem?_append]
    split
    · rfl
    · rename_i hnumber
      rw [List.getElem?_eq_none (Nat.le_of_not_lt hnumber), List.getElem?_singleton]
      split <;> rfl
  | copy handle => rfl
  | change handle edit =>
    cases htarget : shared.handles[handle]? with
    | none =>
      simp [call, Call.edit?, htarget]
    | some target =>
      have hlt := shared.handles_lt target (List.mem_of_getElem? htarget)
      by_cases hsame : target = number
      · subst hsame
        simp [call, Call.edit?, htarget, hlt]
      · simp [call, Call.edit?, htarget, hsame]

theorem getD_stores_foldl_call (shared : SharedFiles) (calls : List Call) (number : Nat) :
    (calls.foldl call shared).stores.getD number empty =
      (edits number shared calls).foldl FileStore.apply (shared.stores.getD number empty) := by
  induction calls generalizing shared with
  | nil => rfl
  | cons next rest ih =>
    calc ((next :: rest).foldl call shared).stores.getD number empty
        = (edits number (shared.call next) rest).foldl FileStore.apply
            ((shared.call next).stores.getD number empty) := ih (shared.call next)
      _ = (edits number shared (next :: rest)).foldl FileStore.apply
            (shared.stores.getD number empty) := by
          rw [getD_stores_call, ← List.foldl_append, edits]

theorem store_eq_foldl_history {calls : List Call} {handle : Nat} {store : FileStore}
    (h : (run calls).store? handle = some store) :
    store = (history calls handle).foldl FileStore.apply empty := by
  obtain ⟨number, hnumber, hstore⟩ := store?_eq_some_iff.mp h
  have hrun := getD_stores_foldl_call fresh calls number
  rw [← run, List.getD_eq_getElem?_getD, hstore, Option.getD_some] at hrun
  rw [history, hnumber]
  exact hrun

/-- Stores in memory are maps over the spellings of paths, for all who hold a handle on them. -/
theorem holders_remember (calls : List Call) :
    (∀ handle store, (run calls).store? handle = some store →
      store.Remembers (history calls handle)) ∧
    (∀ handle store others, (run calls).store? handle = some store →
      (run (calls ++ .copy handle :: others)).store? (run calls).handles.length =
        (run (calls ++ .copy handle :: others)).store? handle) ∧
    (∀ path other, FileStore.key path = FileStore.key other ↔ Path.Equivalent path other) ∧
    ∀ path other, Path.Equivalent path other →
      ((∃ normal, Path.normalize path = .ok normal) ↔
        ∃ normal, Path.normalize other = .ok normal) := by
  refine ⟨?_, ?_, fun path other ↦ key_eq_iff, ?_⟩
  · intro handle store h
    rw [store_eq_foldl_history h]
    exact remembers_foldl_apply (history calls handle)
  · intro handle store others h
    rw [run, List.foldl_append]
    exact store?_copy h others
  · intro path other h
    refine exists_congr fun normal ↦ ?_
    rw [← normalize_key, key_eq_iff.mpr h, normalize_key]

/-- Two holders of one store, who change one file under two spellings and another one that has no
normal form. The last call is about a third file, which does not exist. -/
def sharedCalls : List Call :=
  [.create, .copy 0, .change 1 (.insert "pages\\a.kpage" [1]), .change 0 (.insert "/../a" [2]),
    .change 0 (.insert "/pages/x/../a.kpage" [3]), .change 1 (.remove "~/..\\a")]

theorem holders_remember_sharedCalls :
    ∃ store, (run sharedCalls).store? 1 = some store ∧
      (run (sharedCalls ++ [.copy 1])).store? 2 = (run (sharedCalls ++ [.copy 1])).store? 1 ∧
      store.read "~/pages/./a.kpage" = .ok [3] ∧ store.read "\\../a" = .ok [2] := by
  obtain ⟨hremember, hcopy, hkey, _⟩ := holders_remember sharedCalls
  have hisSome : ((run sharedCalls).store? 1).isSome = true := by decide +kernel
  have hhistory : history sharedCalls 1 = [.insert "pages\\a.kpage" [1], .insert "/../a" [2],
      .insert "/pages/x/../a.kpage" [3], .remove "~/..\\a"] := by decide +kernel
  obtain ⟨store, hstore⟩ := Option.isSome_iff_exists.mp hisSome
  have hread := (hremember 1 store hstore).read_eq_ok
  rw [hhistory] at hread
  refine ⟨store, hstore, hcopy 1 store [] hstore, (hread _ _).mpr ?_, (hread _ _).mpr ?_⟩
  · refine ⟨[_, _], "/pages/x/../a.kpage", [_], rfl, (hkey _ _).mp (by decide +kernel), ?_⟩
    rw [List.forall_mem_singleton, ← hkey]
    decide +kernel
  · refine ⟨[_], "/../a", [_, _], rfl, (hkey _ _).mp (by decide +kernel), ?_⟩
    rw [List.forall_mem_cons, List.forall_mem_singleton, ← hkey, ← hkey]
    decide +kernel

end PageScript.SharedFiles
