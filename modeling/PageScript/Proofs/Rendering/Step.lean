import PageScript.Proofs.Outcome
import PageScript.Rendering

/-!
# Rendering step by step

Code runs one instruction at a time. An instruction gives a piece of text and the slots for the
instructions behind it, or it ends the rendering with an error.
-/

namespace PageScript.Rendering

variable {κ : Type} [Component κ]

/-- One instruction: what it writes, and the slots behind it. -/
def step (module : LoadedModule) (host : Host κ)
    (embed : Nat → Address → Except RenderError String) (address : Address) (slots : Slots κ) :
    Instruction → Except RenderError (String × Slots κ)
  | .write text => do
    let text ← table (module.image.string text)
    return (text, slots)
  | .create type slot => do
    let slots ← create module host slots address type slot
    return ("", slots)
  | .assign slot property value => do
    let slots ← assign module slots address slot property value
    return ("", slots)
  | .render slot => do
    let component ← component module slots address slot
    return (Component.render component, slots)
  | .embed index => do
    let text ← embed index.toNat address
    return (text, slots)
  | .stop => .ok ("", slots)

@[simp] theorem table_ok {α : Type} (value : α) :
    table (.ok value) = .ok value := rfl

variable (module : LoadedModule) (host : Host κ)
  (embed : Nat → Address → Except RenderError String) (classIndex ip : Nat) (slots : Slots κ)

theorem execute_nil : execute module host embed classIndex ip slots [] = .ok "" := rfl

/-- An instruction that does not stop the code is followed by the rest of it. -/
theorem execute_cons {instruction : Instruction} (hstop : instruction ≠ .stop)
    (rest : List Instruction) :
    execute module host embed classIndex ip slots (instruction :: rest) =
      step module host embed ⟨classIndex, ip⟩ slots instruction >>= fun next ↦
        execute module host embed classIndex (ip + 1) next.2 rest >>= fun more ↦
          .ok (next.1 ++ more) := by
  cases instruction with
  | write text =>
    rw [execute, step]
    cases table (module.image.string text) <;> rfl
  | create type slot =>
    rw [execute, step]
    cases create module host slots ⟨classIndex, ip⟩ type slot with
    | error error => rfl
    | ok slots =>
      simp only [Outcome.ok_bind, Outcome.pure_eq, String.empty_append]
      cases execute module host embed classIndex (ip + 1) slots rest <;> rfl
  | assign slot property value =>
    rw [execute, step]
    cases assign module slots ⟨classIndex, ip⟩ slot property value with
    | error error => rfl
    | ok slots =>
      simp only [Outcome.ok_bind, Outcome.pure_eq, String.empty_append]
      cases execute module host embed classIndex (ip + 1) slots rest <;> rfl
  | render slot =>
    rw [execute, step]
    cases component module slots ⟨classIndex, ip⟩ slot <;> rfl
  | embed index =>
    rw [execute, step]
    cases embed index.toNat ⟨classIndex, ip⟩ <;> rfl
  | stop => exact absurd rfl hstop

/-! ## Outcomes -/

/-- A value that is as it should be, or an error that may occur. -/
inductive Ends {α : Type} (allowed : RenderError → Prop) (holds : α → Prop) :
    Except RenderError α → Prop
  | ok {value : α} (h : holds value) : Ends allowed holds (.ok value)
  | error {error : RenderError} (h : allowed error) : Ends allowed holds (.error error)

/-- Two steps in a row fail only in ways that one of them is allowed to. -/
theorem Ends.bind {α β : Type} {allowed : RenderError → Prop} {holds : α → Prop}
    {target : β → Prop} {first : Except RenderError α} {next : α → Except RenderError β}
    (h : Ends allowed holds first)
    (hnext : ∀ value, holds value → Ends allowed target (next value)) :
    Ends allowed target (first >>= next) := by
  cases h with
  | ok h => exact hnext _ h
  | error h => exact .error h

/-- A way to fail that is not allowed does not occur. -/
theorem Ends.ne_error {α : Type} {allowed : RenderError → Prop} {holds : α → Prop}
    {result : Except RenderError α} (h : Ends allowed holds result) {error : RenderError}
    (herror : ¬allowed error) : result ≠ .error error := by
  rintro rfl
  cases h with
  | error h => exact herror h

end PageScript.Rendering
