import PageScript.Proofs.Rendering.BuildModes
import PageScript.Proofs.Rendering.Safety

/-!
# Limits on embedding

How deep classes may be embedded is a matter of the limit alone: a rendering that does not come to
its limit ends alike within any higher one. Runs are told here by how many levels are left, which is
the same as counting the levels that were entered.
-/

namespace PageScript.Rendering

variable {κ : Type} [Component κ]

/-! ## Levels -/

/-- What embedding a class does if `budget` levels are left. -/
def entering (module : LoadedModule) (host : Host κ) (limit : Nat) :
    Nat → Nat → Address → Except RenderError String
  | 0 => tooDeep module limit
  | budget + 1 => fun index _ ↦ run module host limit budget index

theorem run_eq_execute (module : LoadedModule) (host : Host κ) (limit budget index : Nat) :
    run module host limit budget index =
      execute module host (entering module host limit budget) index 0
        ⟨module.slotCount index, []⟩ (module.instructions index) := by
  cases budget with
  | zero => rfl
  | succ budget => rfl

/-- `enter` runs a class at a depth, and the classes it embeds one level deeper, unless that is
beyond the limit. -/
def CountsLevels (module : LoadedModule) (host : Host κ) (limit : Nat)
    (enter : Nat → Nat → Except RenderError String) : Prop :=
  ∀ depth index, enter depth index =
    execute module host
      (fun inner address ↦
        if depth + 1 > limit then tooDeep module limit inner address else enter (depth + 1) inner)
      index 0 ⟨module.slotCount index, []⟩ (module.instructions index)

/-- Runs a class that lies `depth` levels deep. -/
def runAt (module : LoadedModule) (host : Host κ) (limit depth index : Nat) :
    Except RenderError String :=
  run module host limit (limit - depth) index

theorem countsLevels_runAt (module : LoadedModule) (host : Host κ) (limit : Nat) :
    CountsLevels module host limit (runAt module host limit) := by
  intro depth index
  rw [runAt, run_eq_execute]
  congr 1
  funext inner address
  by_cases hdeep : depth + 1 > limit
  · rw [if_pos hdeep, show limit - depth = 0 by omega, entering]
  · rw [if_neg hdeep, show limit - depth = limit - (depth + 1) + 1 by omega, entering, runAt]

/-- Counting levels comes to an end, so that there is only one way to do it. -/
theorem CountsLevels.eq_runAt {module : LoadedModule} {host : Host κ} {limit : Nat}
    {enter : Nat → Nat → Except RenderError String} (h : CountsLevels module host limit enter)
    (depth index : Nat) : enter depth index = runAt module host limit depth index := by
  rw [h depth index, countsLevels_runAt module host limit depth index]
  congr 1
  funext inner address
  by_cases hdeep : depth + 1 > limit
  · rw [if_pos hdeep, if_pos hdeep]
  · rw [if_neg hdeep, if_neg hdeep]
    exact h.eq_runAt (depth + 1) inner
termination_by limit - depth

theorem existsUnique_countsLevels (module : LoadedModule) (host : Host κ) (limit : Nat) :
    ∃! enter, CountsLevels module host limit enter := by
  apply ExistsUnique.intro _ (countsLevels_runAt module host limit)
  intro enter henter
  funext depth index
  exact henter.eq_runAt depth index

/-! ## Higher limits -/

/-- An outcome and that within a higher limit: they are the same, unless the first is due to its
limit. -/
inductive Extends {α : Type} : Except RenderError α → Except RenderError α → Prop
  | same (outcome : Except RenderError α) : Extends outcome outcome
  | cut (className : String) (limit : Nat) (location : Option Location)
      (later : Except RenderError α) :
      Extends (.error (.includeDepth className limit location)) later

theorem Extends.bind {α β : Type} {first later : Except RenderError α}
    {next other : α → Except RenderError β} (h : Extends first later)
    (hnext : ∀ value, Extends (next value) (other value)) :
    Extends (first >>= next) (later >>= other) := by
  cases h with
  | same =>
    cases first with
    | ok value => exact hnext value
    | error error => exact .same _
  | cut className limit location => exact .cut className limit location _

theorem Extends.eq {α : Type} {first later : Except RenderError α} (h : Extends first later)
    (hfirst : ∀ className limit location, first ≠ .error (.includeDepth className limit location)) :
    later = first := by
  cases h with
  | same => rfl
  | cut className limit location => exact absurd rfl (hfirst className limit location)

variable {module : LoadedModule} {embed later : Nat → Address → Except RenderError String}

theorem extends_step (host : Host κ)
    (hembed : ∀ index < module.image.classes.length, ∀ address,
      Extends (embed index address) (later index address))
    (address : Address) (slots : Slots κ) {count : UInt32} {instruction : Instruction}
    (hcheck : LoadedModule.checkOperands module.image count instruction = .ok ()) :
    Extends (step module host embed address slots instruction)
      (step module host later address slots instruction) := by
  cases instruction with
  | embed index =>
    exact (hembed _ (lt_of_checkOperands_embed hcheck) address).bind fun text ↦ .same _
  | _ => exact .same _

theorem extends_execute (host : Host κ)
    (hembed : ∀ index < module.image.classes.length, ∀ address,
      Extends (embed index address) (later index address))
    (classIndex ip : Nat) (slots : Slots κ) {count : UInt32} {code : List Instruction}
    (hcode : ∀ instruction ∈ code,
      LoadedModule.checkOperands module.image count instruction = .ok ()) :
    Extends (execute module host embed classIndex ip slots code)
      (execute module host later classIndex ip slots code) := by
  induction code generalizing ip slots with
  | nil => exact .same _
  | cons instruction rest ih =>
    obtain ⟨hfirst, hrest⟩ := List.forall_mem_cons.mp hcode
    by_cases hstop : instruction = .stop
    · subst hstop
      exact .same _
    · rw [execute_cons _ _ _ _ _ _ hstop, execute_cons _ _ _ _ _ _ hstop]
      apply (extends_step host hembed ⟨classIndex, ip⟩ slots hfirst).bind
      intro next
      exact (ih (ip + 1) next.2 hrest).bind fun more ↦ .same _

/-- A class of a valid module only embeds classes of the module. -/
theorem extends_class (hvalid : module.Valid) (host : Host κ)
    (hembed : ∀ inner < module.classCount, ∀ address,
      Extends (embed inner address) (later inner address))
    {index : Nat} (hindex : index < module.classCount) (slots : Slots κ) :
    Extends (execute module host embed index 0 slots (module.instructions index))
      (execute module host later index 0 slots (module.instructions index)) := by
  obtain ⟨entry, _, hcode⟩ := hvalid.operands index hindex
  rw [LoadedModule.classCount, hvalid.length_code] at hembed
  exact extends_execute host hembed index 0 slots hcode

/-- More levels and a higher limit extend a run. -/
theorem extends_run (hvalid : module.Valid) (host : Host κ) (limit higher : Nat)
    {budget more : Nat} (hle : budget ≤ more) {index : Nat} (hindex : index < module.classCount) :
    Extends (run module host limit budget index) (run module host higher more index) := by
  induction budget generalizing more index with
  | zero =>
    rw [run_eq_execute, run_eq_execute]
    apply extends_class hvalid host ?_ hindex
    intro inner hinner address
    obtain ⟨name, hname⟩ := hvalid.className inner hinner
    rw [entering, tooDeep, hname]
    exact .cut name limit _ _
  | succ budget ih =>
    obtain ⟨more, rfl⟩ := Nat.exists_eq_succ_of_ne_zero (show more ≠ 0 by omega)
    rw [run_eq_execute, run_eq_execute]
    apply extends_class hvalid host ?_ hindex
    intro inner hinner address
    exact ih (Nat.le_of_succ_le_succ hle) hinner

end PageScript.Rendering

namespace PageScript

/-- A host with the component that `Emission.greeting` creates. -/
def boxHost : Host Echo :=
  (Host.empty.register {
    name := "Lib"
    components := [{ descriptor := { name := "Box" }, fresh := { name := "Box" } }] }).2

/-- Raising the limit does not change a rendering that has not come to it. -/
theorem render_of_limit_le {bytes : Bytes} {symbols : Option Bytes} {module : LoadedModule}
    (hload : LoadedModule.ofBytes bytes symbols = .ok module) {κ : Type} [Component κ]
    (host : Host κ) {limits higher : LimitSettings}
    (hle : limits.maxIncludeDepth ≤ higher.maxIncludeDepth) (index : Nat)
    (hrender : ∀ className limit location,
      render module host limits index ≠ .error (.includeDepth className limit location)) :
    render module host higher index = render module host limits index := by
  by_cases hindex : index < module.classCount
  · have hvalid := LoadedModule.valid_of_ofBytes hload
    exact (Rendering.extends_run hvalid host _ _ hle hindex).eq hrender
  · have hcount : module.classCount ≤ index := Nat.le_of_not_lt hindex
    rw [Emission.render_of_length_le hcount, Emission.render_of_length_le hcount]

open Emission in
theorem render_greeting_of_one_le :
    ∃ module, LoadedModule.ofBytes
        (streams greeting [] [] ⟨"site", .release, false, false⟩ false).1 none = .ok module ∧
      ∀ limits : LimitSettings, 1 ≤ limits.maxIncludeDepth →
        render module boxHost limits 0 = .ok "Hello you[Box title=T]Bye" := by
  obtain ⟨module, hload, _, _, hrender⟩ := render_streams
    (show Fit (streams greeting [] [] ⟨"site", .release, false, false⟩ false) from
      fit_of_lengths (by decide +kernel) (by decide +kernel))
    (by decide) (by decide)
  refine ⟨module, hload, fun limits hle ↦ ?_⟩
  have hone : render module boxHost ⟨1⟩ 0 = .ok "Hello you[Box title=T]Bye" := by
    rw [hrender boxHost ⟨1⟩ 0 _ rfl]
    decide +kernel
  rw [← hone]
  refine render_of_limit_le hload boxHost hle 0 fun className limit location ↦ ?_
  rw [hone]
  nofun

end PageScript
