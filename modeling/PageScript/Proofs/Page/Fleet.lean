import Mathlib.Data.List.Basic
import Mathlib.Data.List.Nodup
import Mathlib.Logic.Function.Basic
import PageScript.Proofs.Page.Units

/-!
# Many loaders on one host

Loaders come and go, load again before they have unloaded, and fail to load. A record of what they
have made and given out beside the host says what each of them owns, and one operation after the
other keeps the record, the loaders and the host consistent.
-/

namespace PageScript

/-- What can be asked of one of several loaders. -/
inductive Operation (ι : Type) where
  | load (loader : ι) (path : String) (artifact : Artifact) (className : String)
  | unload (loader : ι) (entry : Option EntryPoint)
  | drop (loader : ι)

/-- Loaders on one host, with a record of all units they have made and of all entry points they have
given out. -/
structure Fleet (κ ι : Type) where
  deployment : Deployment κ
  /-- A loader that was dropped is not there any more. -/
  loaders : ι → Option Loader
  made : List (ι × ExecutionUnit) := []
  issued : List (ι × EntryPoint) := []

/-- The dynamic modules of a host. -/
def Host.dynamicModules {κ : Type} (host : Host κ) : List (HostModule κ) :=
  host.modules.filter fun module ↦ module.isDynamic

namespace Fleet

variable {κ ι : Type}

/-- Loaders that have not loaded anything. -/
def fresh (deployment : Deployment κ) (limits : ι → LimitSettings) : Fleet κ ι where
  deployment
  loaders := fun i ↦ some { limits := limits i }

/-- Number of the unit that a loader owns. -/
def owned (fleet : Fleet κ ι) (i : ι) : Option Nat := (fleet.loaders i).bind Loader.owned

/-- The units that their makers still own. -/
def live (fleet : Fleet κ ι) : List (ι × ExecutionUnit) :=
  fleet.made.filter fun (maker, unit) ↦ fleet.owned maker = some unit.id

def record (fleet : Fleet κ ι) (i : ι) (unit : Option ExecutionUnit) (entry : Option EntryPoint) :
    Fleet κ ι :=
  { fleet with
    made := fleet.made ++ unit.toList.map (i, ·)
    issued := fleet.issued ++ entry.toList.map (i, ·) }

section

variable [DecidableEq ι]

/-- The fleet after loader `i` has worked. -/
def put (fleet : Fleet κ ι) (i : ι) (loader : Option Loader) (deployment : Deployment κ) :
    Fleet κ ι :=
  { fleet with deployment, loaders := Function.update fleet.loaders i loader }

/-- The fleet after loader `i` has got a unit and a class was looked for in it. -/
def enroll (fleet : Fleet κ ι) (i : ι) (deployed : ExecutionUnit × Loader × Deployment κ)
    (className : String) : Fleet κ ι :=
  (fleet.put i (some deployed.2.1) deployed.2.2).record i (some deployed.1)
    (Loader.entryPoint? deployed.1 className)

/-- One operation. Nothing happens if the loader is not there. -/
def step (fleet : Fleet κ ι) : Operation ι → Fleet κ ι
  | .load i path artifact className =>
    match fleet.loaders i with
    | none => fleet
    | some loader =>
      let (result, loader, deployment) := loader.load fleet.deployment path artifact className
      (fleet.put i (some loader) deployment).record i (loader.unit? deployment)
        result.toOption.join
  | .unload i entry =>
    match fleet.loaders i with
    | none => fleet
    | some loader =>
      let (_, loader, deployment) := loader.unload fleet.deployment entry
      fleet.put i (some loader) deployment
  | .drop i =>
    match fleet.loaders i with
    | none => fleet
    | some loader => fleet.put i none (loader.discard fleet.deployment)

def run (fleet : Fleet κ ι) : List (Operation ι) → Fleet κ ι
  | [] => fleet
  | operation :: rest => (fleet.step operation).run rest

/-- The fleet after loader `i` has given up its unit. -/
def vacate (fleet : Fleet κ ι) (i : ι) (loader : Loader) : Fleet κ ι :=
  fleet.put i (some (loader.unload fleet.deployment none).2.1) (loader.discard fleet.deployment)

end

/-! ## Consistency -/

/-- Name and id under which a unit is registered. -/
def unitStamp (unit : ExecutionUnit) : String × Nat := (unit.name, unit.registration)

def moduleStamp (module : HostModule κ) : String × Nat := (module.name, module.id)

/-- The record, the loaders and the host tell the same story, which began with the static modules
`static`. -/
structure Consistent (static : List (HostModule κ)) (fleet : Fleet κ ι) : Prop where
  sound : fleet.deployment.Sound
  static_eq : Catalog.staticModules fleet.deployment.host = static
  dynamic_eq : fleet.deployment.host.dynamicModules.map moduleStamp =
    fleet.deployment.units.map unitStamp
  units_eq : fleet.deployment.units = fleet.live.map Prod.snd
  ids : (fleet.made.map fun made ↦ made.2.id).Pairwise (· < ·)
  id_le : ∀ made ∈ fleet.made, made.2.id ≤ fleet.deployment.lastUnit
  named : ∀ made ∈ fleet.made, ∃ path, made.2.name = unitName path made.2.id
  maker : ∀ i id, fleet.owned i = some id → ∃ unit, (i, unit) ∈ fleet.made ∧ unit.id = id
  issued : ∀ issued ∈ fleet.issued, ∃ unit, (issued.1, unit) ∈ fleet.made ∧
    issued.2.unitId = unit.id ∧ issued.2.unitName = unit.name

section

variable {fleet : Fleet κ ι} {static : List (HostModule κ)} {i : ι}

theorem mem_live {made : ι × ExecutionUnit} :
    made ∈ fleet.live ↔ made ∈ fleet.made ∧ fleet.owned made.1 = some made.2.id := by
  simp [live]

theorem owned_put [DecidableEq ι] (fleet : Fleet κ ι) (i : ι) (loader : Option Loader)
    (deployment : Deployment κ) :
    (fleet.put i loader deployment).owned =
      Function.update fleet.owned i (loader.bind Loader.owned) := by
  funext j
  rcases eq_or_ne j i with rfl | hne
  · simp [owned, put]
  · simp [owned, put, hne]

theorem owned_enroll [DecidableEq ι] (fleet : Fleet κ ι) (i : ι)
    (deployed : ExecutionUnit × Loader × Deployment κ) (className : String) :
    (fleet.enroll i deployed className).owned =
      Function.update fleet.owned i deployed.2.1.owned :=
  owned_put fleet i (some deployed.2.1) deployed.2.2

theorem record_none (fleet : Fleet κ ι) (i : ι) : fleet.record i none none = fleet := by
  simp [record]

theorem put_put [DecidableEq ι] (fleet : Fleet κ ι) (i : ι) (loader next : Option Loader)
    (deployment later : Deployment κ) :
    (fleet.put i loader deployment).put i next later = fleet.put i next later := by
  simp [put]

namespace Consistent

theorem ids_nodup (h : fleet.Consistent static) :
    (fleet.made.map fun made ↦ made.2.id).Nodup := h.ids.imp Nat.ne_of_lt

/-- No number is given out twice. -/
theorem eq_of_id (h : fleet.Consistent static) {made other : ι × ExecutionUnit}
    (hmade : made ∈ fleet.made) (hother : other ∈ fleet.made) (hid : made.2.id = other.2.id) :
    made = other := List.inj_on_of_nodup_map h.ids_nodup hmade hother hid

/-- The units that are loaded are those that a loader owns. -/
theorem mem_units (h : fleet.Consistent static) {unit : ExecutionUnit} :
    unit ∈ fleet.deployment.units ↔ ∃ i, (i, unit) ∈ fleet.made ∧ fleet.owned i = some unit.id := by
  rw [h.units_eq]
  simp [mem_live]

theorem unit_eq_of_id (h : fleet.Consistent static) {unit other : ExecutionUnit}
    (hunit : unit ∈ fleet.deployment.units) (hother : other ∈ fleet.deployment.units)
    (hid : unit.id = other.id) : unit = other := by
  obtain ⟨i, hmade, _⟩ := h.mem_units.mp hunit
  obtain ⟨j, hmade', _⟩ := h.mem_units.mp hother
  exact congrArg Prod.snd (h.eq_of_id hmade hmade' hid)

/-- The number that a loader keeps leads to a unit that it has made. -/
theorem unit?_eq (h : fleet.Consistent static) {id : Nat} (howned : fleet.owned i = some id) :
    ∃ unit, (i, unit) ∈ fleet.live ∧ unit.id = id ∧ fleet.deployment.unit? id = some unit := by
  obtain ⟨unit, hmade, rfl⟩ := h.maker i id howned
  have hunit : unit ∈ fleet.deployment.units := h.mem_units.mpr ⟨i, hmade, howned⟩
  exact ⟨unit, mem_live.mpr ⟨hmade, howned⟩, rfl, Deployment.unit?_eq_some_of_unique hunit
    fun other hother ↦ h.unit_eq_of_id hother hunit⟩

/-- No two units are registered as one module. -/
theorem registrations_nodup (h : fleet.Consistent static) :
    (fleet.deployment.units.map ExecutionUnit.registration).Nodup := by
  have hstamps := congrArg (List.map Prod.snd) h.dynamic_eq
  rw [List.map_map, List.map_map] at hstamps
  have hids := (h.sound.host.filter fun module ↦ module.isDynamic).2
  exact hstamps ▸ hids

theorem exists_module (h : fleet.Consistent static) {unit : ExecutionUnit}
    (hunit : unit ∈ fleet.deployment.units) :
    ∃ module ∈ fleet.deployment.host.modules, module.isDynamic = true ∧
      module.id = unit.registration := by
  have hstamp : unitStamp unit ∈ fleet.deployment.host.dynamicModules.map moduleStamp := by
    rw [h.dynamic_eq]
    exact List.mem_map_of_mem hunit
  obtain ⟨module, hmodule, heq⟩ := List.mem_map.mp hstamp
  obtain ⟨hmem, hdynamic⟩ := List.mem_filter.mp hmodule
  exact ⟨module, hmem, hdynamic, congrArg Prod.snd heq⟩

/-! ## A loader gives up its unit -/

/-- Nothing is left of the unit of a loader that unloads without naming an entry point. -/
theorem owned_unload (h : fleet.Consistent static) {loader : Loader}
    (hloader : fleet.loaders i = some loader) :
    (loader.unload fleet.deployment none).2.1.owned = none := by
  rcases loader.unload_cases fleet.deployment none with ⟨hsame, hnone⟩ | ⟨unit, _, hgone⟩
  · rw [hsame]
    cases hid : loader.owned with
    | none => rfl
    | some id =>
      have howned : fleet.owned i = some id := by rw [owned, hloader, Option.bind_some, hid]
      obtain ⟨unit, _, _, hunit⟩ := h.unit?_eq howned
      have habsent := hnone rfl
      rw [Loader.unit?, hid, Option.bind_some, hunit] at habsent
      contradiction
  · rw [hgone]

/-- Unloading a unit leaves the static modules alone. -/
theorem static_unregister (h : fleet.Consistent static) {unit : ExecutionUnit}
    (hunit : unit ∈ fleet.deployment.units) :
    Catalog.staticModules (fleet.deployment.host.unregister unit.registration).2 = static := by
  unfold Catalog.staticModules
  rw [Host.modules_unregister, List.filter_comm]
  change (Catalog.staticModules fleet.deployment.host).filter _ = static
  rw [h.static_eq, List.filter_eq_self]
  intro module hmodule
  rw [← h.static_eq] at hmodule
  obtain ⟨hmem, hstatic⟩ := List.mem_filter.mp hmodule
  obtain ⟨other, hother, hdynamic, hid⟩ := h.exists_module hunit
  refine decide_eq_true fun heq ↦ ?_
  rw [h.sound.host.eq_of_id hmem hother (heq.trans hid.symm), hdynamic] at hstatic
  contradiction

/-- Unloading a unit takes its own module away, and no other one. -/
theorem dynamic_unregister (h : fleet.Consistent static) {unit : ExecutionUnit}
    (hregistration : ∀ other ∈ fleet.deployment.units,
      other.registration = unit.registration ↔ other.id = unit.id) :
    (fleet.deployment.host.unregister unit.registration).2.dynamicModules.map moduleStamp =
      (fleet.deployment.removeUnit unit).units.map unitStamp := by
  have hmodules : (fleet.deployment.host.unregister unit.registration).2.dynamicModules =
      fleet.deployment.host.dynamicModules.filter fun module ↦ module.id ≠ unit.registration := by
    unfold Host.dynamicModules
    rw [Host.modules_unregister, List.filter_comm]
  have hunits : (fleet.deployment.removeUnit unit).units =
      fleet.deployment.units.filter fun other ↦ other.registration ≠ unit.registration := by
    apply List.filter_congr
    intro other hother
    simp [hregistration other hother]
  -- Either filter looks at the second part of the stamp alone.
  rw [hmodules, hunits]
  calc (fleet.deployment.host.dynamicModules.filter _).map moduleStamp
      = (fleet.deployment.host.dynamicModules.map moduleStamp).filter
          fun stamp ↦ stamp.2 ≠ unit.registration := List.filter_map.symm
    _ = (fleet.deployment.units.map unitStamp).filter
          fun stamp ↦ stamp.2 ≠ unit.registration := by rw [h.dynamic_eq]
    _ = _ := List.filter_map

section

variable [DecidableEq ι]

theorem live_put_none {loader : Option Loader} (hloader : loader.bind Loader.owned = none)
    (deployment : Deployment κ) :
    (fleet.put i loader deployment).live = fleet.live.filter fun made ↦ made.1 ≠ i := by
  unfold live
  rw [owned_put, hloader, List.filter_filter]
  apply List.filter_congr
  rintro ⟨maker, unit⟩ _
  rcases eq_or_ne maker i with rfl | hne
  · simp
  · simp [hne]

/-- No other unit is registered or numbered like the one that is removed. -/
theorem removeUnit (h : fleet.Consistent static) {unit : ExecutionUnit}
    (hunit : (i, unit) ∈ fleet.live) {loader : Option Loader}
    (hloader : loader.bind Loader.owned = none) :
    (fleet.put i loader (fleet.deployment.removeUnit unit)).Consistent static := by
  obtain ⟨hmade, howned⟩ := mem_live.mp hunit
  have hmem : unit ∈ fleet.deployment.units := h.mem_units.mpr ⟨i, hmade, howned⟩
  have hregistration : ∀ other ∈ fleet.deployment.units,
      other.registration = unit.registration ↔ other.id = unit.id := by
    intro other hother
    constructor
    · intro heq
      rw [List.inj_on_of_nodup_map h.registrations_nodup hother hmem heq]
    · intro heq
      rw [h.unit_eq_of_id hother hmem heq]
  have hmaker : ∀ made ∈ fleet.live, made.1 = i ↔ made.2.id = unit.id := by
    intro made hlive
    obtain ⟨hmade', howned'⟩ := mem_live.mp hlive
    constructor
    · intro heq
      rw [heq, howned, Option.some.injEq] at howned'
      exact howned'.symm
    · intro heq
      rw [h.eq_of_id hmade' hmade heq]
  constructor
  case sound => exact h.sound.removeUnit unit
  case static_eq => exact h.static_unregister hmem
  case dynamic_eq => exact h.dynamic_unregister hregistration
  case units_eq =>
    rw [live_put_none hloader]
    change fleet.deployment.units.filter _ = _
    rw [h.units_eq, List.filter_map]
    congr 1
    apply List.filter_congr
    intro made hlive
    simp [hmaker made hlive]
  case ids => exact h.ids
  case id_le => exact h.id_le
  case named => exact h.named
  case maker =>
    intro j id hj
    rw [owned_put, hloader] at hj
    rcases eq_or_ne j i with rfl | hne
    · simp at hj
    · rw [Function.update_of_ne hne] at hj
      exact h.maker j id hj
  case issued => exact h.issued

/-- A loader that works without giving up or getting a unit may use up a number. -/
theorem idle (h : fleet.Consistent static) {loader : Option Loader}
    (hloader : loader.bind Loader.owned = fleet.owned i) {deployment : Deployment κ}
    (hdeployment : deployment = fleet.deployment ∨ deployment = fleet.deployment.count) :
    (fleet.put i loader deployment).Consistent static := by
  have howned : (fleet.put i loader deployment).owned = fleet.owned := by
    rw [owned_put, hloader, Function.update_eq_self]
  have hlive : (fleet.put i loader deployment).live = fleet.live := by
    unfold live
    rw [howned]
    rfl
  obtain ⟨hhost, hunits, hlast⟩ : deployment.host = fleet.deployment.host ∧
      deployment.units = fleet.deployment.units ∧
      fleet.deployment.lastUnit ≤ deployment.lastUnit := by
    rcases hdeployment with rfl | rfl
    · exact ⟨rfl, rfl, Nat.le_refl _⟩
    · exact ⟨rfl, rfl, Nat.le_succ _⟩
  constructor
  case sound =>
    rcases hdeployment with rfl | rfl
    · exact h.sound
    · exact h.sound.count
  case static_eq => exact hhost ▸ h.static_eq
  case dynamic_eq =>
    change deployment.host.dynamicModules.map _ = deployment.units.map _
    rw [hhost, hunits, h.dynamic_eq]
  case units_eq =>
    rw [hlive, ← h.units_eq]
    exact hunits
  case ids => exact h.ids
  case id_le => exact fun made hmade ↦ Nat.le_trans (h.id_le made hmade) hlast
  case named => exact h.named
  case maker =>
    rw [howned]
    exact h.maker
  case issued => exact h.issued

/-- Unloading, with whatever entry point. -/
theorem unload (h : fleet.Consistent static) {loader : Loader}
    (hloader : fleet.loaders i = some loader) (entry : Option EntryPoint) :
    (fleet.put i (some (loader.unload fleet.deployment entry).2.1)
      (loader.unload fleet.deployment entry).2.2).Consistent static := by
  have howned : fleet.owned i = loader.owned := by rw [owned, hloader, Option.bind_some]
  rcases loader.unload_cases fleet.deployment entry with ⟨hsame, _⟩ | ⟨unit, hunit, hgone⟩
  · rw [hsame]
    have hkept : (some loader).bind Loader.owned = fleet.owned i := howned.symm
    exact h.idle hkept (.inl rfl)
  · rw [hgone]
    obtain ⟨id, hid, hfound⟩ := Option.bind_eq_some_iff.mp hunit
    obtain ⟨own, hlive, _, hown⟩ := h.unit?_eq (howned.trans hid)
    rw [hown, Option.some.injEq] at hfound
    exact h.removeUnit (hfound ▸ hlive) rfl

end

/-! ## A loader gets a unit -/

section

variable [DecidableEq ι] {path : String} {spec : ModuleSpec κ}

/-- Units made before have smaller numbers, so they are live or not as before. -/
theorem live_enroll (h : fleet.Consistent static) (howned : fleet.owned i = none)
    {deployed : ExecutionUnit × Loader × Deployment κ}
    (hid : deployed.1.id = fleet.deployment.lastUnit + 1)
    (howner : deployed.2.1.owned = some deployed.1.id) (className : String) :
    (fleet.enroll i deployed className).live = fleet.live ++ [(i, deployed.1)] := by
  change (fleet.made ++ [(i, deployed.1)]).filter (fun (maker, other) ↦
    (fleet.enroll i deployed className).owned maker = some other.id) = _
  rw [owned_enroll, howner, List.filter_append]
  congr 1
  · apply List.filter_congr
    rintro ⟨maker, other⟩ hmade
    have hle : other.id ≤ fleet.deployment.lastUnit := h.id_le (maker, other) hmade
    rcases eq_or_ne maker i with rfl | hne
    · have hother : deployed.1.id ≠ other.id := by omega
      simp [howned, hother]
    · simp [hne]
  · simp

/-- A loader that owns nothing gets a unit with the next number. -/
theorem deploy (h : fleet.Consistent static) (howned : fleet.owned i = none)
    (hname : spec.name = unitName path (fleet.deployment.lastUnit + 1))
    (hdynamic : spec.isDynamic = true) (hstatic : ∀ other ∈ static, other.name ≠ spec.name)
    (loader : Loader) (module : LoadedModule) (className : String) :
    (fleet.enroll i (loader.deploy fleet.deployment.count spec.name module spec)
      className).Consistent static := by
  -- Neither a static module nor an earlier unit has the new name, so nothing is replaced.
  have hmodules : (fleet.deployment.host.register spec).2.modules =
      fleet.deployment.host.modules ++ [fleet.deployment.host.registered spec] := by
    apply Host.modules_register_of_fresh
    rw [hname]
    apply h.sound.fresh
    rw [h.static_eq, ← hname]
    exact hstatic
  have hkind : (fleet.deployment.host.registered spec).isDynamic = true := hdynamic
  constructor
  case sound => exact Loader.deploy_sound h.sound.count hname
  case static_eq =>
    change (fleet.deployment.host.register spec).2.modules.filter _ = static
    rw [hmodules, List.filter_append, List.filter_singleton, hkind]
    exact (List.append_nil _).trans h.static_eq
  case dynamic_eq =>
    change ((fleet.deployment.host.register spec).2.modules.filter _).map _ =
      (fleet.deployment.units ++ [_]).map _
    rw [hmodules, List.filter_append, List.filter_singleton, hkind, List.map_append,
      List.map_append, ← h.dynamic_eq]
    rfl
  case units_eq =>
    rw [h.live_enroll howned rfl rfl, List.map_append, ← h.units_eq]
    rfl
  case ids =>
    change ((fleet.made ++ [_]).map _).Pairwise _
    rw [List.map_append, List.pairwise_append]
    refine ⟨h.ids, List.pairwise_singleton _ _, ?_⟩
    intro id hid last hlast
    obtain ⟨made, hmade, rfl⟩ := List.mem_map.mp hid
    rw [List.mem_singleton.mp hlast]
    exact Nat.lt_succ_of_le (h.id_le made hmade)
  case id_le =>
    intro made hmade
    rcases List.mem_append.mp hmade with hold | hnew
    · exact Nat.le_succ_of_le (h.id_le made hold)
    · rw [List.mem_singleton.mp hnew]
      exact Nat.le_refl _
  case named =>
    intro made hmade
    rcases List.mem_append.mp hmade with hold | hnew
    · exact h.named made hold
    · rw [List.mem_singleton.mp hnew]
      exact ⟨path, hname⟩
  case maker =>
    intro j id hj
    rw [owned_enroll] at hj
    rcases eq_or_ne j i with rfl | hne
    · rw [Function.update_self] at hj
      exact ⟨_, List.mem_append_right _ (List.mem_singleton_self _), Option.some.inj hj⟩
    · rw [Function.update_of_ne hne] at hj
      obtain ⟨unit, hmade, hid⟩ := h.maker j id hj
      exact ⟨unit, List.mem_append_left _ hmade, hid⟩
  case issued =>
    intro issued hissued
    rcases List.mem_append.mp hissued with hold | hnew
    · obtain ⟨unit, hmade, hunit⟩ := h.issued issued hold
      exact ⟨unit, List.mem_append_left _ hmade, hunit⟩
    · obtain ⟨entry, hentry, rfl⟩ := List.mem_map.mp hnew
      obtain ⟨index, _, rfl⟩ := Option.map_eq_some_iff.mp (Option.mem_toList.mp hentry)
      exact ⟨_, List.mem_append_right _ (List.mem_singleton_self _), rfl, rfl⟩

end

/-! ## Runs -/

section

variable [DecidableEq ι]

theorem owned_vacate (h : fleet.Consistent static) {loader : Loader}
    (hloader : fleet.loaders i = some loader) : (fleet.vacate i loader).owned i = none := by
  rw [vacate, owned_put, Function.update_self]
  exact h.owned_unload hloader

/-- Loading begins with giving up the old unit. What follows is a failure or a new unit. -/
theorem step_load_cases (h : fleet.Consistent static) {loader : Loader}
    (hloader : fleet.loaders i = some loader) (path : String) (artifact : Artifact)
    (className : String) :
    (∃ error cleared, (loader.load fleet.deployment path artifact className).1 = .error error ∧
      cleared.owned = none ∧ fleet.step (.load i path artifact className) =
        fleet.put i (some cleared) (fleet.vacate i loader).deployment.count) ∨
    ∃ entry cleared module spec,
      (loader.load fleet.deployment path artifact className).1 = .ok entry ∧
      spec.name = unitName path ((fleet.vacate i loader).deployment.lastUnit + 1) ∧
      spec.isDynamic = true ∧ fleet.step (.load i path artifact className) = fleet.enroll i
        (Loader.deploy cleared (fleet.vacate i loader).deployment.count spec.name module spec)
        className := by
  have hstep : fleet.step (.load i path artifact className) =
      let (result, owner, deployment) := loader.load fleet.deployment path artifact className
      (fleet.put i (some owner) deployment).record i (owner.unit? deployment)
        result.toOption.join := by
    rw [Fleet.step, hloader]
  have hcleared := h.owned_unload hloader
  have hsound : (fleet.vacate i loader).deployment.Sound := (h.unload hloader none).sound
  rcases loader.load_cases fleet.deployment path artifact className with
    ⟨cause, hload⟩ | ⟨module, spec, hname, hdynamic, hload⟩
  · refine .inl ⟨_, _, congrArg Prod.fst hload, hcleared, ?_⟩
    have hunit (deployment : Deployment κ) :
        (loader.unload fleet.deployment none).2.1.unit? deployment = none := by
      rw [Loader.unit?, hcleared, Option.bind_none]
    rw [hstep, hload]
    simp only [hunit]
    exact record_none _ _
  · refine .inr ⟨_, (loader.unload fleet.deployment none).2.1, module, spec,
      congrArg Prod.fst hload, hname, hdynamic, ?_⟩
    have hunit := Loader.unit?_deploy hsound.toCounted (loader.unload fleet.deployment none).2.1
      spec.name module spec
    rw [hstep, hload]
    exact congrArg (Fleet.record _ i · _) hunit

theorem step_load (h : fleet.Consistent static) {loader : Loader}
    (hloader : fleet.loaders i = some loader) {path : String} {artifact : Artifact}
    {className : String}
    (hnames : ∀ made ∈ (fleet.step (.load i path artifact className)).made,
      ∀ module ∈ static, module.name ≠ made.2.name) :
    (fleet.step (.load i path artifact className)).Consistent static := by
  have hvacant : (fleet.vacate i loader).Consistent static := h.unload hloader none
  have howned := h.owned_vacate hloader
  rcases h.step_load_cases hloader path artifact className with
    ⟨_, cleared, _, hcleared, hstep⟩ | ⟨_, cleared, module, spec, _, hname, hdynamic, hstep⟩
  · rw [hstep, ← put_put fleet i _ _ (fleet.vacate i loader).deployment]
    have hkept : (some cleared).bind Loader.owned = (fleet.vacate i loader).owned i :=
      hcleared.trans howned.symm
    exact hvacant.idle hkept (.inr rfl)
  · rw [hstep] at hnames ⊢
    have hstatic : ∀ other ∈ static, other.name ≠ spec.name :=
      hnames _ (List.mem_append_right _ (List.mem_singleton_self _))
    have hdeploy := hvacant.deploy howned hname hdynamic hstatic cleared module className
    rwa [enroll, vacate, put_put] at hdeploy

/-- Every operation keeps a fleet consistent, as long as no static module has the name of a unit. -/
theorem step (h : fleet.Consistent static) (operation : Operation ι)
    (hnames : ∀ made ∈ (fleet.step operation).made,
      ∀ module ∈ static, module.name ≠ made.2.name) :
    (fleet.step operation).Consistent static := by
  cases operation with
  | load i path artifact className =>
    cases hloader : fleet.loaders i with
    | none =>
      rw [Fleet.step, hloader]
      exact h
    | some loader => exact h.step_load hloader hnames
  | unload i entry =>
    rw [Fleet.step]
    cases hloader : fleet.loaders i with
    | none => exact h
    | some loader => exact h.unload hloader entry
  | drop i =>
    rw [Fleet.step]
    cases hloader : fleet.loaders i with
    | none => exact h
    | some loader =>
      have hvacant : (fleet.vacate i loader).Consistent static := h.unload hloader none
      have hkept : (none : Option Loader).bind Loader.owned = (fleet.vacate i loader).owned i :=
        (h.owned_vacate hloader).symm
      have hdrop := hvacant.idle hkept (.inl rfl)
      rwa [vacate, put_put] at hdrop

end

end Consistent

end

end Fleet

end PageScript
