import PageScript.Proofs.Image.Faults
import PageScript.Proofs.Page.Fleet

/-!
# The life of units

At every time the dynamic modules of a host are the units that are owned by a loader, one for each,
and an entry point works as long as the loader it comes from owns its unit.
-/

namespace PageScript.Fleet

variable {κ ι : Type}

section

variable [DecidableEq ι]

theorem made_step (fleet : Fleet κ ι) (operation : Operation ι) :
    fleet.made <+: (fleet.step operation).made := by
  cases operation with
  | load i path artifact className =>
    rw [step]
    cases fleet.loaders i with
    | none => exact List.prefix_rfl
    | some loader => exact List.prefix_append _ _
  | unload i entry =>
    rw [step]
    cases fleet.loaders i with
    | none => exact List.prefix_rfl
    | some loader => exact List.prefix_rfl
  | drop i =>
    rw [step]
    cases fleet.loaders i with
    | none => exact List.prefix_rfl
    | some loader => exact List.prefix_rfl

/-- Units that were made are never forgotten in the records, also if they are gone. -/
theorem made_run (fleet : Fleet κ ι) (operations : List (Operation ι)) :
    fleet.made <+: (fleet.run operations).made := by
  induction operations generalizing fleet with
  | nil => exact List.prefix_rfl
  | cons operation rest ih => exact (fleet.made_step operation).trans (ih _)

/-- A run keeps a fleet consistent. No static module may have the name of a unit of the run. -/
theorem Consistent.run {fleet : Fleet κ ι} {static : List (HostModule κ)}
    (h : fleet.Consistent static) (operations : List (Operation ι))
    (hnames : ∀ made ∈ (fleet.run operations).made,
      ∀ module ∈ static, module.name ≠ made.2.name) :
    (fleet.run operations).Consistent static := by
  induction operations generalizing fleet with
  | nil => exact h
  | cons operation rest ih =>
    -- What has been made so far is part of what the whole run makes.
    have hstep := h.step operation fun made hmade ↦
      hnames made ((made_run _ rest).subset hmade)
    exact ih hstep hnames

end

/-- At the start no unit has been made, and every loader is empty. -/
theorem consistent_fresh {deployment : Deployment κ} (hsound : deployment.host.Sound)
    (hstatic : ∀ module ∈ deployment.host.modules, module.isDynamic = false)
    (hunits : deployment.units = []) (limits : ι → LimitSettings) :
    (fresh deployment limits).Consistent deployment.host.modules where
  sound := Deployment.sound_of_static hsound hstatic hunits
  static_eq := by
    apply List.filter_eq_self.mpr
    intro module hmodule
    rw [hstatic module hmodule]
    rfl
  dynamic_eq := by
    have hnone : deployment.host.dynamicModules = [] := by
      apply List.filter_eq_nil_iff.mpr
      intro module hmodule
      rw [hstatic module hmodule]
      exact Bool.false_ne_true
    change deployment.host.dynamicModules.map _ = deployment.units.map _
    rw [hnone, hunits]
    rfl
  units_eq := hunits
  ids := List.Pairwise.nil
  id_le := fun _ hmade ↦ absurd hmade List.not_mem_nil
  named := fun _ hmade ↦ absurd hmade List.not_mem_nil
  maker := fun _ _ howned ↦ absurd howned (Option.some_ne_none _).symm
  issued := fun _ hissued ↦ absurd hissued List.not_mem_nil

/-! ## What holds at every time -/

/-- Units, modules and entry points fit together. -/
structure Orderly [Component κ] [DecidableEq ι] (static : List (HostModule κ))
    (fleet : Fleet κ ι) : Prop where
  static_eq : Catalog.staticModules fleet.deployment.host = static
  /-- The dynamic modules are the units that are owned, under their names. -/
  dynamic_eq : fleet.deployment.host.dynamicModules.map (fun module ↦ module.name) =
    fleet.live.map fun owned ↦ owned.2.name
  /-- Each loader that owns a unit is there with this unit, and only once. -/
  owners_nodup : (fleet.live.map Prod.fst).Nodup
  owned_iff : ∀ i id, fleet.owned i = some id ↔ ∃ unit, (i, unit) ∈ fleet.live ∧ unit.id = id
  ids_nodup : (fleet.made.map fun made ↦ made.2.id).Nodup
  names_nodup : (fleet.made.map fun made ↦ made.2.name).Nodup
  /-- An entry point works exactly as long as its unit is owned by its loader. -/
  entries : ∀ i entry, (i, entry) ∈ fleet.issued → ∃ unit, (i, unit) ∈ fleet.made ∧
    entry.unitId = unit.id ∧ entry.unitName = unit.name ∧
    (fleet.deployment.isLoaded entry = true ↔ fleet.owned i = some unit.id) ∧
    (fleet.owned i ≠ some unit.id → fleet.deployment.render entry = .error (.unloaded unit.name))
  /-- A load that fails leaves the loader without a unit and registers nothing. -/
  failure : ∀ i loader path artifact className error, fleet.loaders i = some loader →
    (loader.load fleet.deployment path artifact className).1 = .error error →
    (fleet.step (.load i path artifact className)).owned i = none ∧
    (fleet.step (.load i path artifact className)).deployment.host.modules.Sublist
      fleet.deployment.host.modules

namespace Consistent

variable {fleet : Fleet κ ι} {static : List (HostModule κ)}

/-- No two units that are loaded belong to one loader. -/
theorem owners_nodup (h : fleet.Consistent static) : (fleet.live.map Prod.fst).Nodup := by
  have hids : fleet.live.Pairwise fun made other ↦ made.2.id < other.2.id :=
    (List.pairwise_map.mp h.ids).sublist List.filter_sublist
  apply List.pairwise_map.mpr
  apply hids.imp_of_mem
  intro made other hmade hother hlt heq
  have howned := (mem_live.mp hmade).2
  rw [heq, (mem_live.mp hother).2, Option.some.injEq] at howned
  omega

/-- No two units ever have one name, also if one of them is gone. -/
theorem names_nodup (h : fleet.Consistent static) :
    (fleet.made.map fun made ↦ made.2.name).Nodup := by
  apply List.pairwise_map.mpr
  apply (List.pairwise_map.mp h.ids).imp_of_mem
  intro made other hmade hother hlt heq
  obtain ⟨path, hname⟩ := h.named made hmade
  obtain ⟨root, hroot⟩ := h.named other hother
  rw [hname, hroot] at heq
  have hid := number_eq_of_unitName_eq heq
  omega

/-- An entry point works exactly as long as the loader of its unit still owns the unit. -/
theorem isLoaded_iff (h : fleet.Consistent static) {i : ι} {unit : ExecutionUnit}
    (hmade : (i, unit) ∈ fleet.made) {entry : EntryPoint} (hentry : entry.unitId = unit.id) :
    fleet.deployment.isLoaded entry = true ↔ fleet.owned i = some unit.id := by
  rw [Deployment.isLoaded, hentry, Option.isSome_iff_exists]
  constructor
  · rintro ⟨found, hfound⟩
    obtain ⟨hmem, hid⟩ := Deployment.mem_of_unit?_eq_some hfound
    obtain ⟨j, hmade', howned⟩ := h.mem_units.mp hmem
    have hsame := h.eq_of_id hmade' hmade hid
    rw [Prod.mk.injEq] at hsame
    rw [← hsame.1, howned, hid]
  · intro howned
    obtain ⟨found, _, _, hfound⟩ := h.unit?_eq howned
    exact ⟨found, hfound⟩

theorem orderly [Component κ] [DecidableEq ι] (h : fleet.Consistent static) :
    fleet.Orderly static where
  static_eq := h.static_eq
  dynamic_eq := by
    have hnames := congrArg (List.map Prod.fst) h.dynamic_eq
    rw [h.units_eq, List.map_map, List.map_map, List.map_map] at hnames
    exact hnames
  owners_nodup := h.owners_nodup
  owned_iff := by
    intro i id
    constructor
    · intro howned
      obtain ⟨unit, hlive, hid, _⟩ := h.unit?_eq howned
      exact ⟨unit, hlive, hid⟩
    · rintro ⟨unit, hlive, rfl⟩
      exact (mem_live.mp hlive).2
  ids_nodup := h.ids_nodup
  names_nodup := h.names_nodup
  entries := by
    intro i entry hissued
    obtain ⟨unit, hmade, hid, hname⟩ := h.issued (i, entry) hissued
    have hloaded := h.isLoaded_iff hmade hid
    refine ⟨unit, hmade, hid, hname, hloaded, fun hgone ↦ ?_⟩
    have hnone : fleet.deployment.unit? entry.unitId = none :=
      Option.not_isSome_iff_eq_none.mp fun hsome ↦ hgone (hloaded.mp hsome)
    rw [Deployment.render, hnone, ← hname]
  failure := by
    intro i loader path artifact className error hloader hfailed
    rcases h.step_load_cases hloader path artifact className with
      ⟨_, cleared, _, hcleared, hstep⟩ | ⟨entry, _, _, _, hok, _⟩
    · rw [hstep, owned_put, Function.update_self]
      exact ⟨hcleared, loader.modules_unload_sublist fleet.deployment none⟩
    · rw [hok] at hfailed
      contradiction

end Consistent

/-- However many loaders load, unload and are dropped in whatever order, units, modules and entry
points fit together. -/
theorem orderly_run [Component κ] [DecidableEq ι] {deployment : Deployment κ}
    (hsound : deployment.host.Sound)
    (hstatic : ∀ module ∈ deployment.host.modules, module.isDynamic = false)
    (hunits : deployment.units = []) (limits : ι → LimitSettings)
    (operations : List (Operation ι))
    (hnames : ∀ made ∈ ((fresh deployment limits).run operations).made,
      ∀ module ∈ deployment.host.modules, module.name ≠ made.2.name) :
    ((fresh deployment limits).run operations).Orderly deployment.host.modules := by
  have hfresh := consistent_fresh hsound hstatic hunits limits
  exact (hfresh.run operations hnames).orderly

/-- A host with one static module. -/
def busyDeployment : Deployment Echo where
  host := (Host.empty.register { name := "web.ui", types := ["Base"] }).2

def pageArtifact (image : Bytes) : Artifact :=
  { moduleName := "Compiled.Page", image, symbols := none, buildId := .zero, warnings := [] }

/-- Two loaders load a page from paths that look like units, one of them twice. Then the other one
fails to load. -/
def busyOperations : List (Operation Bool) := [
  .load true "a:2" (pageArtifact (ModuleImage.pageImage 0).encode.1) "Page",
  .load false "a" (pageArtifact (ModuleImage.pageImage 0).encode.1) "Page",
  .unload true (some { unitId := 2, unitName := "a:2", classIndex := 0, className := "Page" }),
  .load true "a:2" (pageArtifact (ModuleImage.pageImage 0).encode.1) "Other",
  .load false "b" (pageArtifact []) "Page"]

theorem orderly_busy :
    let fleet := (fresh busyDeployment fun _ ↦ {}).run busyOperations
    fleet.Orderly busyDeployment.host.modules ∧
      fleet.made.map (fun made ↦ made.2.name) = ["a:2:1", "a:2", "a:2:3"] ∧
      fleet.deployment.host.modules.map (fun module ↦ module.name) = ["web.ui", "a:2:3"] := by
  refine ⟨orderly_run (Host.sound_empty.register _) ?_ rfl _ _ ?_, ?_, ?_⟩
  · decide
  · decide +kernel
  · decide +kernel
  · decide +kernel

end PageScript.Fleet
