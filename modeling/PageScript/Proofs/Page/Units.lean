import Mathlib.Data.List.Basic
import PageScript.Page.Unit
import PageScript.Proofs.Outcome
import PageScript.Proofs.Page.Catalog

/-!
# Units on a host

The name of a unit ends in its number, so that no two units have the same name, whatever the paths
of their pages are. Where no module has the name of a new unit, as on a host where dynamic modules
are units, it is one more module at the end, and unloading it gives back the modules from before.
-/

namespace PageScript

variable {κ : Type}

/-! ## Names -/

/-- The name of a unit. -/
def unitName (path : String) (number : Nat) : String := s!"{path}:{number}"

theorem toList_unitName (path : String) (number : Nat) :
    (unitName path number).toList = path.toList ++ ':' :: Nat.toDigits 10 number := by
  simp [unitName, toString]

theorem ne_colon_of_mem_toDigits {number : Nat} {c : Char} (h : c ∈ Nat.toDigits 10 number) :
    c ≠ ':' := by
  rintro rfl
  have hdigit := Nat.isDigit_of_mem_toDigits (by decide) (by decide) h
  contradiction

/-- The number is what follows the last colon of a name. -/
theorem takeWhile_reverse_unitName (path : String) (number : Nat) :
    (unitName path number).toList.reverse.takeWhile (· ≠ ':') =
      (Nat.toDigits 10 number).reverse := by
  have hdigits : ∀ c ∈ (Nat.toDigits 10 number).reverse, decide (c ≠ ':') = true :=
    fun c hc ↦ decide_eq_true (ne_colon_of_mem_toDigits (List.mem_reverse.mp hc))
  rw [toList_unitName, List.reverse_append, List.reverse_cons, List.append_assoc,
    List.singleton_append, List.takeWhile_append_of_pos hdigits,
    List.takeWhile_cons_of_neg (by decide), List.append_nil]

/-- Units with one name have one number, also if a path ends in a colon and digits. -/
theorem number_eq_of_unitName_eq {path other : String} {number next : Nat}
    (h : unitName path number = unitName other next) : number = next := by
  have hreverse : (Nat.toDigits 10 number).reverse = (Nat.toDigits 10 next).reverse := by
    rw [← takeWhile_reverse_unitName path, h, takeWhile_reverse_unitName]
  have hdigits := List.reverse_injective hreverse
  calc number = Nat.ofDigitChars 10 (Nat.toDigits 10 number) 0 :=
        Nat.ofDigitChars_ten_toDigits.symm
    _ = Nat.ofDigitChars 10 (Nat.toDigits 10 next) 0 := by rw [hdigits]
    _ = next := Nat.ofDigitChars_ten_toDigits

/-! ## Hosts -/

namespace Host

/-- A module under a new name comes last, and no other one goes. -/
theorem modules_register_of_fresh {host : Host κ} {spec : ModuleSpec κ}
    (h : ∀ module ∈ host.modules, module.name ≠ spec.name) :
    (host.register spec).2.modules = host.modules ++ [host.registered spec] := by
  have hkept : host.modules.filter (fun module ↦ module.name ≠ spec.name) = host.modules :=
    List.filter_eq_self.mpr fun module hmodule ↦ decide_eq_true (h module hmodule)
  rw [register, hkept]
  rfl

end Host

/-! ## Deployments -/

namespace Deployment

/-- The numbers of all units have been given out. -/
structure Counted (deployment : Deployment κ) : Prop where
  host : deployment.host.Sound
  unit_le : ∀ unit ∈ deployment.units, unit.id ≤ deployment.lastUnit

/-- Moreover, the dynamic modules of the host are named like units that were loaded before. -/
structure Sound (deployment : Deployment κ) : Prop extends Counted deployment where
  dynamic : ∀ module ∈ deployment.host.modules, module.isDynamic = true →
    ∃ path number, number ≤ deployment.lastUnit ∧ module.name = unitName path number

/-- Where nothing was loaded yet, there is nothing to count. -/
theorem counted_of_units_nil {deployment : Deployment κ} (hsound : deployment.host.Sound)
    (hunits : deployment.units = []) : deployment.Counted :=
  ⟨hsound, by simp [hunits]⟩

theorem sound_of_static {deployment : Deployment κ} (hsound : deployment.host.Sound)
    (hstatic : ∀ module ∈ deployment.host.modules, module.isDynamic = false)
    (hunits : deployment.units = []) : deployment.Sound := by
  refine ⟨counted_of_units_nil hsound hunits, fun module hmodule hdynamic ↦ ?_⟩
  rw [hstatic module hmodule] at hdynamic
  contradiction

/-- Only a static module can stand in the way of the next unit. -/
theorem Sound.fresh {deployment : Deployment κ} (h : deployment.Sound) {path : String}
    (hstatic : ∀ module ∈ Catalog.staticModules deployment.host,
      module.name ≠ unitName path (deployment.lastUnit + 1)) :
    ∀ module ∈ deployment.host.modules, module.name ≠ unitName path (deployment.lastUnit + 1) := by
  intro module hmodule hname
  cases hkind : module.isDynamic with
  | true =>
    obtain ⟨root, number, hle, hown⟩ := h.dynamic module hmodule hkind
    have hnumber := number_eq_of_unitName_eq (hown.symm.trans hname)
    omega
  | false =>
    refine hstatic module (List.mem_filter.mpr ⟨hmodule, ?_⟩) hname
    rw [hkind]
    rfl

theorem mem_of_unit?_eq_some {deployment : Deployment κ} {id : Nat} {unit : ExecutionUnit}
    (h : deployment.unit? id = some unit) : unit ∈ deployment.units ∧ unit.id = id :=
  ⟨List.mem_of_find?_eq_some h, by simpa using List.find?_some h⟩

theorem unit?_eq_some_of_unique {deployment : Deployment κ} {unit : ExecutionUnit}
    (hunit : unit ∈ deployment.units)
    (hunique : ∀ other ∈ deployment.units, other.id = unit.id → other = unit) :
    deployment.unit? unit.id = some unit :=
  find?_eq_some_of_unique hunit hunique

/-- The deployment after one more number was given out. -/
def count (deployment : Deployment κ) : Deployment κ :=
  { deployment with lastUnit := deployment.lastUnit + 1 }

/-- Numbers that are skipped do no harm. -/
theorem Counted.count {deployment : Deployment κ} (h : deployment.Counted) :
    deployment.count.Counted where
  host := h.host
  unit_le := fun unit hunit ↦ Nat.le_succ_of_le (h.unit_le unit hunit)

theorem Sound.count {deployment : Deployment κ} (h : deployment.Sound) :
    deployment.count.Sound where
  toCounted := h.toCounted.count
  dynamic := by
    intro module hmodule hdynamic
    obtain ⟨path, number, hle, hname⟩ := h.dynamic module hmodule hdynamic
    exact ⟨path, number, Nat.le_succ_of_le hle, hname⟩

theorem Counted.removeUnit {deployment : Deployment κ} (h : deployment.Counted)
    (unit : ExecutionUnit) : (deployment.removeUnit unit).Counted where
  host := h.host.unregister unit.registration
  unit_le := fun other hother ↦ h.unit_le other (List.mem_of_mem_filter hother)

theorem Sound.removeUnit {deployment : Deployment κ} (h : deployment.Sound)
    (unit : ExecutionUnit) : (deployment.removeUnit unit).Sound where
  toCounted := h.toCounted.removeUnit unit
  dynamic := fun module hmodule ↦ h.dynamic module (Host.mem_unregister hmodule)

end Deployment

/-! ## Loaders -/

theorem LoadedModule.registration_eq_ok {module : LoadedModule} {name : String}
    {spec : ModuleSpec κ} (h : module.registration name = .ok spec) :
    spec.name = name ∧ spec.isDynamic = true := by
  obtain ⟨types, _, hspec⟩ := Outcome.bind_eq_ok.mp h
  rw [← Except.ok.inj hspec]
  exact ⟨rfl, rfl⟩

namespace Loader

variable {loader : Loader} {deployment : Deployment κ}

/-- What unloading can come to. -/
theorem unload_cases (loader : Loader) (deployment : Deployment κ) (entry : Option EntryPoint) :
    ((loader.unload deployment entry).2 = (loader, deployment) ∧
      (entry = none → loader.unit? deployment = none)) ∨
    ∃ unit, loader.unit? deployment = some unit ∧
      (loader.unload deployment entry).2 =
        ({ loader with owned := none }, deployment.removeUnit unit) := by
  unfold unload
  split
  next hnone => exact .inl ⟨rfl, fun _ ↦ hnone⟩
  next unit hunit =>
    split
    next foreign hforeign =>
      refine .inl ⟨rfl, fun hentry ↦ ?_⟩
      rw [hentry] at hforeign
      contradiction
    · exact .inr ⟨unit, hunit, rfl⟩

/-- Unloading takes modules away and adds none. -/
theorem modules_unload_sublist (loader : Loader) (deployment : Deployment κ)
    (entry : Option EntryPoint) :
    (loader.unload deployment entry).2.2.host.modules.Sublist deployment.host.modules := by
  rcases loader.unload_cases deployment entry with ⟨hsame, _⟩ | ⟨unit, _, hgone⟩
  · rw [hsame]
  · rw [hgone]
    change (deployment.host.unregister unit.registration).2.modules.Sublist _
    rw [Host.modules_unregister]
    exact List.filter_sublist

/-- A new unit is found by its number, which no other unit has. -/
theorem unit?_deploy (h : deployment.Counted) (loader : Loader) (name : String)
    (module : LoadedModule) (spec : ModuleSpec κ) :
    (loader.deploy deployment.count name module spec).2.1.unit?
        (loader.deploy deployment.count name module spec).2.2 =
      some (loader.deploy deployment.count name module spec).1 := by
  apply Deployment.unit?_eq_some_of_unique
  · exact List.mem_append_right _ (List.mem_singleton_self _)
  · intro other hother hid
    rcases List.mem_append.mp hother with hold | hnew
    · have hle := h.unit_le other hold
      have hnext : other.id = deployment.lastUnit + 1 := hid
      omega
    · exact List.mem_singleton.mp hnew

/-- A new unit has the last number that was given out, under any name. -/
theorem deploy_counted (h : deployment.Counted) (loader : Loader) (name : String)
    (module : LoadedModule) (spec : ModuleSpec κ) :
    (loader.deploy deployment name module spec).2.2.Counted where
  host := h.host.register spec
  unit_le := by
    intro unit hunit
    rcases List.mem_append.mp hunit with hold | hnew
    · exact h.unit_le unit hold
    · rw [List.mem_singleton.mp hnew]
      exact Nat.le_refl _

theorem deploy_sound (h : deployment.Sound) {path : String} {module : LoadedModule}
    {spec : ModuleSpec κ} (hname : spec.name = unitName path deployment.lastUnit) :
    (loader.deploy deployment spec.name module spec).2.2.Sound where
  toCounted := deploy_counted h.toCounted loader spec.name module spec
  dynamic := by
    intro module hmodule hdynamic
    rcases Host.mem_register.mp hmodule with ⟨hold, _⟩ | rfl
    · exact h.dynamic module hold hdynamic
    · exact ⟨path, deployment.lastUnit, Nat.le_refl _, hname⟩

/-- What loading can come to: the old unit goes and a number is used up, and then there is a new
unit or a failure. -/
theorem load_cases (loader : Loader) (deployment : Deployment κ) (path : String)
    (artifact : Artifact) (className : String) :
    let cleared := (loader.unload deployment none).2.1
    let emptied := loader.discard deployment
    (∃ error, loader.load deployment path artifact className =
      (.error (.load error), cleared, emptied.count)) ∨
    ∃ module spec, spec.name = unitName path (emptied.lastUnit + 1) ∧ spec.isDynamic = true ∧
      loader.load deployment path artifact className =
        (.ok (entryPoint? (cleared.deploy emptied.count spec.name module spec).1 className),
          (cleared.deploy emptied.count spec.name module spec).2) := by
  unfold load discard
  rcases loader.unload deployment none with ⟨result, cleared, emptied⟩
  simp only
  split
  next error hloaded => exact .inl ⟨error, rfl⟩
  next module spec hloaded =>
    obtain ⟨read, _, hread⟩ := Outcome.bind_eq_ok.mp hloaded
    obtain ⟨made, hmade, hpair⟩ := Outcome.bind_eq_ok.mp hread
    obtain ⟨rfl, rfl⟩ := Prod.mk.inj (Except.ok.inj hpair)
    obtain ⟨hname, hdynamic⟩ :=
      LoadedModule.registration_eq_ok (Outcome.mapError_eq_ok.mp hmade)
    refine .inr ⟨read, made, hname, hdynamic, ?_⟩
    rw [hname]
    rfl

theorem unload_counted (h : deployment.Counted) (loader : Loader) (entry : Option EntryPoint) :
    (loader.unload deployment entry).2.2.Counted := by
  rcases loader.unload_cases deployment entry with ⟨hsame, _⟩ | ⟨unit, _, hgone⟩
  · rw [hsame]
    exact h
  · rw [hgone]
    exact h.removeUnit unit

/-- Numbers stay counted, also if an artifact cannot be loaded. -/
theorem load_counted (h : deployment.Counted) (loader : Loader) (path : String)
    (artifact : Artifact) (className : String) :
    (loader.load deployment path artifact className).2.2.Counted := by
  have hcount : (loader.discard deployment).count.Counted := (unload_counted h loader none).count
  rcases loader.load_cases deployment path artifact className with
    ⟨error, hload⟩ | ⟨module, spec, _, _, hload⟩
  · rw [hload]
    exact hcount
  · rw [hload]
    exact deploy_counted hcount _ _ _ _

end Loader

/-! ## Reached deployments -/

namespace Deployment

/-- What a deployment can come to be. Modules of any kind and under any name come and go, and so do
the units of any loaders. -/
inductive Reached : Deployment κ → Prop
  | empty : Reached {}
  | register {deployment : Deployment κ} (h : Reached deployment) (spec : ModuleSpec κ) :
      Reached { deployment with host := (deployment.host.register spec).2 }
  | unregister {deployment : Deployment κ} (h : Reached deployment) (id : Nat) :
      Reached { deployment with host := (deployment.host.unregister id).2 }
  | load {deployment : Deployment κ} (h : Reached deployment) (loader : Loader) (path : String)
      (artifact : Artifact) (className : String) :
      Reached (loader.load deployment path artifact className).2.2
  | unload {deployment : Deployment κ} (h : Reached deployment) (loader : Loader)
      (entry : Option EntryPoint) : Reached (loader.unload deployment entry).2.2

/-- Numbers are counted whatever happens to the modules of the host. -/
theorem Reached.counted {deployment : Deployment κ} (h : deployment.Reached) :
    deployment.Counted := by
  induction h with
  | empty => exact counted_of_units_nil Host.sound_empty rfl
  | register _ spec ih => exact ⟨ih.host.register spec, ih.unit_le⟩
  | unregister _ id ih => exact ⟨ih.host.unregister id, ih.unit_le⟩
  | load _ loader path artifact className ih =>
    exact Loader.load_counted ih loader path artifact className
  | unload _ loader entry ih => exact Loader.unload_counted ih loader entry

end Deployment

end PageScript
