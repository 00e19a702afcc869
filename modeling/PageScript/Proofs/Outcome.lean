/-!
# Outcomes

Computations that end in a value or an error. A chain of steps gives a value exactly if every step
does, and a list of checks passes exactly if each of them passes. Where the steps change a state,
the first one that fails leaves the state for the whole chain.
-/

namespace PageScript.Outcome

variable {ε ε' α β : Type}

@[simp] theorem ok_bind (value : α) (next : α → Except ε β) :
    (Except.ok value >>= next) = next value := rfl

@[simp] theorem error_bind (error : ε) (next : α → Except ε β) :
    (Except.error error >>= next) = .error error := rfl

@[simp] theorem pure_eq (value : α) : (pure value : Except ε α) = .ok value := rfl

@[simp] theorem throw_eq (error : ε) : (throw error : Except ε α) = .error error := rfl

@[simp] theorem mapError_ok (f : ε → ε') (value : α) :
    (Except.ok value : Except ε α).mapError f = .ok value := rfl

@[simp] theorem mapError_error (f : ε → ε') (error : ε) :
    (Except.error error : Except ε α).mapError f = .error (f error) := rfl

/-- A chain of two steps gives a value exactly if both do, the second from what the first gave. -/
theorem bind_eq_ok {first : Except ε α} {next : α → Except ε β} {result : β} :
    (first >>= next) = .ok result ↔ ∃ value, first = .ok value ∧ next value = .ok result := by
  cases first with
  | ok value => simp
  | error error => simp

/-- Renaming errors neither makes nor loses a value. -/
theorem mapError_eq_ok {f : ε → ε'} {first : Except ε α} {value : α} :
    first.mapError f = .ok value ↔ first = .ok value := by
  cases first with
  | ok found => simp
  | error error => simp

@[simp] theorem discard_ok (value : α) :
    (discard (Except.ok value) : Except ε PUnit) = .ok () := rfl

@[simp] theorem discard_error (error : ε) :
    (discard (Except.error error : Except ε α) : Except ε PUnit) = .error error := rfl

/-- A step whose value is dropped is a check: it passes if there is a value at all. -/
theorem discard_eq_ok {first : Except ε α} :
    (discard first : Except ε PUnit) = .ok () ↔ ∃ value, first = .ok value := by
  cases first with
  | ok value => simp
  | error error => simp

/-- Checks are made from left to right, and the first that fails ends the list. -/
theorem forM_cons (check : α → Except ε PUnit) (item : α) (rest : List α) :
    (item :: rest).forM check = check item >>= fun _ ↦ rest.forM check := rfl

/-- A list of checks passes if each item passes its own, whatever the order. -/
theorem forM_eq_ok {check : α → Except ε PUnit} {items : List α} :
    items.forM check = .ok () ↔ ∀ item ∈ items, check item = .ok () := by
  induction items with
  | nil => simp
  | cons item rest ih =>
    rw [forM_cons, bind_eq_ok]
    constructor
    · rintro ⟨_, hitem, hrest⟩ other hother
      rcases List.mem_cons.mp hother with rfl | hother
      · exact hitem
      · exact ih.mp hrest other hother
    · intro h
      exact ⟨(), h item (by simp), ih.mpr fun other hother ↦ h other (by simp [hother])⟩

/-- A list of steps gives a result for each item, at the place of the item. -/
theorem mapM_eq_ok {step : α → Except ε β} {items : List α} {results : List β}
    (h : items.mapM step = .ok results) :
    results.length = items.length ∧ ∀ (index : Nat) (hitem : index < items.length)
      (hresult : index < results.length), step items[index] = .ok results[index] := by
  induction items generalizing results with
  | nil =>
    rw [List.mapM_nil] at h
    obtain rfl : [] = results := Except.ok.inj h
    simp
  | cons item rest ih =>
    rw [List.mapM_cons] at h
    obtain ⟨first, hfirst, h⟩ := bind_eq_ok.mp h
    obtain ⟨others, hothers, h⟩ := bind_eq_ok.mp h
    obtain rfl : first :: others = results := Except.ok.inj h
    obtain ⟨hlength, hrest⟩ := ih hothers
    refine ⟨by simp [hlength], fun index hitem hresult ↦ ?_⟩
    cases index with
    | zero => exact hfirst
    | succ index => exact hrest index (by simpa using hitem) (by simpa using hresult)

/-! ## Steps that change a state -/

variable {σ : Type} {first : EStateM ε σ α} {next : α → EStateM ε σ β} {state middle : σ}

/-- The second step goes on in the state that the first one left. -/
theorem bind_of_ok {value : α} (h : first state = .ok value middle) :
    (first >>= next) state = next value middle := by
  change EStateM.bind first next state = _
  rw [EStateM.bind, h]

/-- A step that fails skips the next one and leaves its own state for the chain. -/
theorem bind_of_error {error : ε} (h : first state = .error error middle) :
    (first >>= next) state = .error error middle := by
  change EStateM.bind first next state = _
  rw [EStateM.bind, h]

end PageScript.Outcome
