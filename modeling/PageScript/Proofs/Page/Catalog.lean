import Mathlib.Data.List.Nodup
import PageScript.Page.Catalog
import PageScript.Proofs.Table

/-!
# Catalogs of a host

No two modules of a host share a name or an id, and ids are never used again. So what a catalog has
kept of a module still holds as long as the module is registered, and looking through a host gives
the symbols of its static modules, whatever the catalog remembers.
-/

namespace PageScript

variable {κ : Type}

/-! ## Hosts -/

namespace Host

/-- Names and ids tell the modules of a host apart, and no id lies ahead. -/
structure Sound (host : Host κ) : Prop where
  names : (host.modules.map fun module ↦ module.name).Nodup
  ids : (host.modules.map HostModule.id).Nodup
  id_le : ∀ module ∈ host.modules, module.id ≤ host.lastId

theorem sound_empty : (empty : Host κ).Sound :=
  ⟨List.nodup_nil, List.nodup_nil, by simp [empty]⟩

theorem Sound.eq_of_name {host : Host κ} (h : host.Sound) {module other : HostModule κ}
    (hmodule : module ∈ host.modules) (hother : other ∈ host.modules)
    (hname : module.name = other.name) : module = other :=
  List.inj_on_of_nodup_map h.names hmodule hother hname

theorem Sound.eq_of_id {host : Host κ} (h : host.Sound) {module other : HostModule κ}
    (hmodule : module ∈ host.modules) (hother : other ∈ host.modules)
    (hid : module.id = other.id) : module = other :=
  List.inj_on_of_nodup_map h.ids hmodule hother hid

theorem Sound.filter {host : Host κ} (h : host.Sound) (keep : HostModule κ → Bool) :
    ((host.modules.filter keep).map fun module ↦ module.name).Nodup ∧
      ((host.modules.filter keep).map HostModule.id).Nodup :=
  ⟨h.names.sublist (List.filter_sublist.map _), h.ids.sublist (List.filter_sublist.map _)⟩

/-- The module that registering a specification gives. -/
def registered (host : Host κ) (spec : ModuleSpec κ) : HostModule κ :=
  { spec with id := host.lastId + 1, generation := host.generation + 1 }

/-- A new module drives out the one that has its name, whatever kinds the two are of. -/
theorem mem_register {host : Host κ} {spec : ModuleSpec κ} {module : HostModule κ} :
    module ∈ (host.register spec).2.modules ↔
      (module ∈ host.modules ∧ module.name ≠ spec.name) ∨ module = host.registered spec := by
  simp [register, registered]

/-- A new module has an id beyond all others, and no module with its name is left. -/
theorem Sound.register {host : Host κ} (h : host.Sound) (spec : ModuleSpec κ) :
    (host.register spec).2.Sound := by
  obtain ⟨hnames, hids⟩ := h.filter fun module ↦ module.name ≠ spec.name
  refine ⟨?_, ?_, fun module hmodule ↦ ?_⟩
  · simp only [Host.register, List.map_append]
    refine List.nodup_append.mpr ⟨hnames, List.nodup_singleton _, ?_⟩
    rintro name hname _ hlast rfl
    obtain ⟨module, hmodule, rfl⟩ := List.mem_map.mp hname
    have hother := (List.mem_filter.mp hmodule).2
    rw [List.mem_singleton.mp hlast] at hother
    simp at hother
  · simp only [Host.register, List.map_append]
    refine List.nodup_append.mpr ⟨hids, List.nodup_singleton _, ?_⟩
    rintro id hid _ hlast rfl
    obtain ⟨module, hmodule, rfl⟩ := List.mem_map.mp hid
    have hle := h.id_le module (List.mem_of_mem_filter hmodule)
    have hnew : module.id = host.lastId + 1 := List.mem_singleton.mp hlast
    omega
  · rcases mem_register.mp hmodule with ⟨hold, _⟩ | rfl
    · exact Nat.le_succ_of_le (h.id_le module hold)
    · exact Nat.le_refl _

/-- An id that is not there changes nothing. -/
theorem modules_unregister (host : Host κ) (id : Nat) :
    (host.unregister id).2.modules = host.modules.filter fun module ↦ module.id ≠ id := by
  unfold unregister
  split
  · rfl
  next habsent =>
    symm
    rw [List.filter_eq_self]
    intro module hmodule
    refine decide_eq_true fun hid ↦ habsent ?_
    exact List.any_eq_true.mpr ⟨module, hmodule, decide_eq_true hid⟩

theorem mem_unregister {host : Host κ} {id : Nat} {module : HostModule κ}
    (h : module ∈ (host.unregister id).2.modules) : module ∈ host.modules := by
  rw [modules_unregister] at h
  exact List.mem_of_mem_filter h

theorem lastId_unregister (host : Host κ) (id : Nat) :
    (host.unregister id).2.lastId = host.lastId := by
  unfold unregister
  split <;> rfl

theorem Sound.unregister {host : Host κ} (h : host.Sound) (id : Nat) :
    (host.unregister id).2.Sound := by
  unfold Host.unregister
  split
  · obtain ⟨hnames, hids⟩ := h.filter fun module ↦ module.id ≠ id
    exact ⟨hnames, hids, fun module hmodule ↦ h.id_le module (List.mem_of_mem_filter hmodule)⟩
  · exact h

end Host

/-! ## Catalogs -/

namespace Catalog

/-- What the catalog has kept of a module that is registered are its symbols. -/
def Holds (catalog : Catalog) (host : Host κ) : Prop :=
  ∀ id entry, (id, entry) ∈ catalog.entries → id ≤ host.lastId ∧
    ∀ module ∈ host.modules, module.id = id → entry.symbols = module.symbols

theorem holds_empty (host : Host κ) : Holds {} host := by
  intro id entry hentry
  simp at hentry

/-- Forgetting entries makes no entry wrong. -/
theorem Holds.evict {catalog : Catalog} {host : Host κ} (h : catalog.Holds host)
    (live : List Nat) : (catalog.evict live).Holds host :=
  fun id entry hentry ↦ h id entry (List.mem_of_mem_filter hentry)

/-- A new entry is right since no other module has its id. -/
theorem Holds.renew {catalog : Catalog} {host : Host κ} (h : catalog.Holds host)
    (hsound : host.Sound) {module : HostModule κ} (hmodule : module ∈ host.modules) :
    (catalog.renew module).Holds host := by
  intro id entry hentry
  rcases List.mem_append.mp hentry with hold | hnew
  · exact h id entry (List.mem_of_mem_filter hold)
  · rw [List.mem_singleton, Prod.mk.injEq] at hnew
    obtain ⟨rfl, rfl⟩ := hnew
    refine ⟨hsound.id_le module hmodule, fun other hother hid ↦ ?_⟩
    rw [hsound.eq_of_id hother hmodule hid]

/-- A kept entry gives the symbols that the module itself would give. -/
theorem Holds.symbolsOf {catalog : Catalog} {host : Host κ} (h : catalog.Holds host)
    (hsound : host.Sound) {module : HostModule κ} (hmodule : module ∈ host.modules) :
    (catalog.symbolsOf module).1 = module.symbols ∧
      (catalog.symbolsOf module).2.Holds host := by
  unfold Catalog.symbolsOf
  cases hentry : catalog.entry? module.id with
  | none => exact ⟨rfl, h.renew hsound hmodule⟩
  | some entry =>
    simp only
    split
    · have hkept := (h module.id entry (mem_of_lookup_eq_some hentry)).2
      exact ⟨hkept module hmodule rfl, h⟩
    · exact ⟨rfl, h.renew hsound hmodule⟩

/-- What is kept on the way through the modules is as right as what was there before. -/
theorem Holds.symbolsOfAll {catalog : Catalog} {host : Host κ} (h : catalog.Holds host)
    (hsound : host.Sound) {modules : List (HostModule κ)}
    (hmodules : ∀ module ∈ modules, module ∈ host.modules) :
    (catalog.symbolsOfAll modules).1 = modules.map (fun module ↦ module.symbols) ∧
      (catalog.symbolsOfAll modules).2.Holds host := by
  induction modules generalizing catalog with
  | nil => exact ⟨rfl, h⟩
  | cons module rest ih =>
    obtain ⟨hmodule, hrest⟩ := List.forall_mem_cons.mp hmodules
    obtain ⟨hsymbols, hnext⟩ := h.symbolsOf hsound hmodule
    obtain ⟨hothers, hlast⟩ := ih hnext hrest
    refine ⟨?_, hlast⟩
    rw [List.map_cons, ← hsymbols, ← hothers]
    rfl

/-- Looking through a host gives the symbols of its static modules. -/
theorem Holds.snapshot {catalog : Catalog} {host : Host κ} (h : catalog.Holds host)
    (hsound : host.Sound) :
    (catalog.snapshot host).1.references =
        (staticModules host).map (fun module ↦ module.symbols) ∧
      (catalog.snapshot host).2.Holds host :=
  (h.evict _).symbolsOfAll hsound fun _ hmodule ↦ List.mem_of_mem_filter hmodule

/-- What a host and its catalog can come to be. -/
inductive Reached : Host κ → Catalog → Prop
  | empty : Reached Host.empty Catalog.empty
  | register {host : Host κ} {catalog : Catalog} (h : Reached host catalog) (spec : ModuleSpec κ) :
      Reached (host.register spec).2 catalog
  | unregister {host : Host κ} {catalog : Catalog} (h : Reached host catalog) (id : Nat) :
      Reached (host.unregister id).2 catalog
  | snapshot {host : Host κ} {catalog : Catalog} (h : Reached host catalog) :
      Reached host (catalog.snapshot host).2
  | invalidate {host : Host κ} {catalog : Catalog} (h : Reached host catalog) :
      Reached host catalog.invalidate

theorem Reached.sound {host : Host κ} {catalog : Catalog} (h : Reached host catalog) :
    host.Sound := by
  induction h with
  | empty => exact Host.sound_empty
  | register _ spec ih => exact ih.register spec
  | unregister _ id ih => exact ih.unregister id
  | snapshot _ ih => exact ih
  | invalidate _ ih => exact ih

/-- Whatever happens to a host, the entries of its catalog are right or for modules that are gone:
ids are never given twice. -/
theorem Reached.holds {host : Host κ} {catalog : Catalog} (h : Reached host catalog) :
    catalog.Holds host := by
  induction h with
  | empty => exact holds_empty _
  | @register host catalog _ spec ih =>
    intro id entry hentry
    obtain ⟨hle, hkept⟩ := ih id entry hentry
    refine ⟨Nat.le_succ_of_le hle, fun module hmodule hid ↦ ?_⟩
    rcases Host.mem_register.mp hmodule with ⟨hold, _⟩ | rfl
    · exact hkept module hold hid
    · have hnew : host.lastId + 1 = id := hid
      omega
  | @unregister host catalog _ id ih =>
    intro id' entry hentry
    obtain ⟨hle, hkept⟩ := ih id' entry hentry
    rw [Host.lastId_unregister]
    exact ⟨hle, fun module hmodule ↦ hkept module (Host.mem_unregister hmodule)⟩
  | snapshot h ih => exact (ih.snapshot h.sound).2
  | invalidate _ _ => exact holds_empty _

theorem Reached.references_eq {host : Host κ} {catalog : Catalog} (h : Reached host catalog) :
    (catalog.snapshot host).1.references =
      (staticModules host).map (fun module ↦ module.symbols) :=
  (h.holds.snapshot h.sound).1

end Catalog

/-! ## Component types -/

/-- A type that the symbols of a module show as a component has instances. -/
theorem ModuleSpec.findComponent_of_symbols {module : ModuleSpec κ} {name : String}
    {symbol : TypeSymbol} (h : module.symbols.types.get? name = some symbol)
    (hcomponent : symbol.isComponent = true) : (module.findComponent name).isSome := by
  rcases List.mem_append.mp (Table.mem_of_get?_ofList h) with hmem | hmem
  · obtain ⟨component, hmem, hsymbol⟩ := List.mem_map.mp hmem
    rw [ModuleSpec.componentSymbol, Prod.mk.injEq] at hsymbol
    rw [ModuleSpec.findComponent, List.find?_isSome]
    exact ⟨component, hmem, decide_eq_true hsymbol.1⟩
  · obtain ⟨plain, _, hsymbol⟩ := List.mem_map.mp hmem
    rw [Prod.mk.injEq] at hsymbol
    rw [← hsymbol.2] at hcomponent
    contradiction

end PageScript
