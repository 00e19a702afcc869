import Mathlib.Data.List.Nodup
import Mathlib.Data.List.Perm.Basic
import Mathlib.Logic.Function.Basic
import PageScript.Proofs.Page.Catalog

/-!
# What a catalog keeps

As long as a catalog serves one host, nobody can tell that it keeps anything: every look through the
host gives what a look without any memory would give, and leaves one entry for each static module.
Ids and generations are counted by each host for itself. A catalog that serves several hosts may
therefore take what it has kept of a module of one host for a module of another.
-/

namespace PageScript

namespace Catalog

variable {κ : Type}

/-- What looking through a host gives without any memory. -/
def scan (host : Host κ) : Snapshot where
  references := (staticModules host).map fun module ↦ module.symbols
  components := (staticModules host).flatMap metadataOf

/-- The modules of which something is kept. -/
def keys (catalog : Catalog) : List Nat := catalog.entries.map Prod.fst

/-! ## Steps of a look -/

theorem entry_evict (catalog : Catalog) {live : List Nat} {id : Nat} (h : id ∈ live) :
    entry? (catalog.evict live) id = catalog.entry? id :=
  lookup_filter live.contains (List.contains_iff_mem.mpr h) catalog.entries

theorem mem_keys_evict {catalog : Catalog} {live : List Nat} {id : Nat} :
    id ∈ (catalog.evict live).keys ↔ id ∈ catalog.keys ∧ id ∈ live := by
  simp only [keys, evict, List.mem_map, List.mem_filter, List.contains_iff_mem]
  constructor
  · rintro ⟨entry, ⟨hentry, hlive⟩, rfl⟩
    exact ⟨⟨entry, hentry, rfl⟩, hlive⟩
  · rintro ⟨⟨entry, hentry, rfl⟩, hlive⟩
    exact ⟨entry, ⟨hentry, hlive⟩, rfl⟩

theorem nodup_keys_evict {catalog : Catalog} (h : catalog.keys.Nodup) (live : List Nat) :
    (catalog.evict live).keys.Nodup := h.sublist (List.filter_sublist.map _)

variable {module : HostModule κ} {catalog : Catalog} {id : Nat}

theorem entry_renew_self : entry? (catalog.renew module) module.id =
    some ⟨module.generation, module.symbols, catalog.lastSerial + 1⟩ := by
  have hold : (catalog.entries.filter fun old ↦ decide (old.1 ≠ module.id)).lookup module.id =
      none := lookup_filter_eq_none (fun id ↦ decide (id ≠ module.id)) (by simp) _
  simp only [renew, entry?, List.lookup_append, hold, Option.none_or, List.lookup_cons_self]

theorem entry_renew_of_ne (h : id ≠ module.id) :
    entry? (catalog.renew module) id = catalog.entry? id := by
  have hold : (catalog.entries.filter fun old ↦ decide (old.1 ≠ module.id)).lookup id =
      catalog.entries.lookup id :=
    lookup_filter (fun id ↦ decide (id ≠ module.id)) (by simpa using h) _
  simp only [renew, entry?, List.lookup_append, hold, List.lookup_cons, beq_false_of_ne h,
    List.lookup_nil, Option.or_none]

theorem mem_keys_renew : id ∈ (catalog.renew module).keys ↔ id = module.id ∨ id ∈ catalog.keys := by
  by_cases hid : id = module.id <;> simp [keys, renew, hid]

theorem nodup_keys_renew (h : catalog.keys.Nodup) : (catalog.renew module).keys.Nodup := by
  simp only [keys, renew, List.map_append]
  refine List.nodup_append.mpr ⟨h.sublist (List.filter_sublist.map _), List.nodup_singleton _, ?_⟩
  rintro id hid _ hlast rfl
  obtain ⟨entry, hentry, rfl⟩ := List.mem_map.mp hid
  rw [List.map_singleton, List.mem_singleton] at hlast
  simpa [hlast] using (List.mem_filter.mp hentry).2

/-- The entry of a module fits it, as far as the catalog can tell. -/
def Fits (catalog : Catalog) (module : HostModule κ) (entry : Entry) : Prop :=
  catalog.entry? module.id = some entry ∧ entry.generation = module.generation

/-- A module is looked up in its entry if that fits, and gets a new entry otherwise. -/
theorem symbolsOf_cases (catalog : Catalog) (module : HostModule κ) :
    (∃ entry, catalog.Fits module entry ∧ catalog.symbolsOf module = (entry.symbols, catalog)) ∨
      (∀ entry, ¬catalog.Fits module entry) ∧
        catalog.symbolsOf module = (module.symbols, catalog.renew module) := by
  unfold symbolsOf
  cases hentry : catalog.entry? module.id with
  | none =>
    refine .inr ⟨fun entry hfits ↦ ?_, rfl⟩
    cases hentry.symm.trans hfits.1
  | some entry =>
    simp only
    split
    · rename_i hgeneration
      exact .inl ⟨entry, ⟨hentry, hgeneration⟩, rfl⟩
    · rename_i hgeneration
      refine .inr ⟨fun other hfits ↦ ?_, rfl⟩
      cases hentry.symm.trans hfits.1
      exact hgeneration hfits.2

/-! ## A whole look -/

theorem Fits.congr {other : Catalog} (h : catalog.entry? module.id = other.entry? module.id)
    {entry : Entry} : catalog.Fits module entry ↔ other.Fits module entry := by
  rw [Fits, Fits, h]

/-- Only the entry of a module matters for its symbols. -/
theorem symbolsOf_congr {other : Catalog}
    (h : catalog.entry? module.id = other.entry? module.id) :
    (catalog.symbolsOf module).1 = (other.symbolsOf module).1 := by
  unfold symbolsOf
  rw [h]
  cases other.entry? module.id with
  | none => rfl
  | some entry =>
    simp only
    split <;> rfl

/-- Looking at a module leaves the entries of others alone. -/
theorem entry_symbolsOf_of_ne (h : id ≠ module.id) :
    entry? (catalog.symbolsOf module).2 id = catalog.entry? id := by
  obtain ⟨_, _, hsymbols⟩ | ⟨_, hsymbols⟩ := catalog.symbolsOf_cases module
  · rw [hsymbols]
  · rw [hsymbols]
    exact entry_renew_of_ne h

/-- Behind the look-up of a module stands an entry that fits it. -/
theorem fits_symbolsOf (catalog : Catalog) (module : HostModule κ) :
    ∃ entry, (catalog.symbolsOf module).2.Fits module entry := by
  obtain ⟨entry, hfits, hsymbols⟩ | ⟨_, hsymbols⟩ := catalog.symbolsOf_cases module
  · rw [hsymbols]
    exact ⟨entry, hfits⟩
  · rw [hsymbols]
    exact ⟨_, entry_renew_self, rfl⟩

theorem mem_keys_of_entry {entry : Entry} (h : catalog.entry? id = some entry) :
    id ∈ catalog.keys := List.mem_map_of_mem (mem_of_lookup_eq_some h)

theorem mem_keys_symbolsOf :
    id ∈ (catalog.symbolsOf module).2.keys ↔ id = module.id ∨ id ∈ catalog.keys := by
  obtain ⟨entry, hfits, hsymbols⟩ | ⟨_, hsymbols⟩ := catalog.symbolsOf_cases module
  · rw [hsymbols]
    refine ⟨.inr, ?_⟩
    rintro (rfl | hmem)
    · exact mem_keys_of_entry hfits.1
    · exact hmem
  · rw [hsymbols]
    exact mem_keys_renew

theorem nodup_keys_symbolsOf (h : catalog.keys.Nodup) :
    (catalog.symbolsOf module).2.keys.Nodup := by
  obtain ⟨_, _, hsymbols⟩ | ⟨_, hsymbols⟩ := catalog.symbolsOf_cases module
  · rw [hsymbols]
    exact h
  · rw [hsymbols]
    exact nodup_keys_renew h

/-- What a look over some modules leaves: the catalog has distinct keys, those of the modules beside
the old ones, each module has an entry that fits, and the entries of all others stay. -/
structure Leaves (catalog : Catalog) (modules : List (HostModule κ)) (next : Catalog) : Prop where
  nodup : catalog.keys.Nodup → next.keys.Nodup
  mem_keys : ∀ id, id ∈ next.keys ↔ id ∈ modules.map HostModule.id ∨ id ∈ catalog.keys
  fits : ∀ module ∈ modules, ∃ entry, next.Fits module entry
  others : ∀ id, id ∉ modules.map HostModule.id → next.entry? id = catalog.entry? id

/-- What a look leaves does not depend on the order of the modules, since their ids are distinct. -/
theorem leaves_symbolsOfAll {modules : List (HostModule κ)}
    (h : (modules.map HostModule.id).Nodup) :
    catalog.Leaves modules (catalog.symbolsOfAll modules).2 := by
  induction modules generalizing catalog with
  | nil => exact ⟨id, by simp [symbolsOfAll], by simp, fun _ _ ↦ rfl⟩
  | cons module rest ih =>
    obtain ⟨hfresh, hrest⟩ := List.nodup_cons.mp h
    have hleaves : (catalog.symbolsOf module).2.Leaves rest _ := ih hrest
    refine ⟨fun hnodup ↦ hleaves.nodup (nodup_keys_symbolsOf hnodup), fun id ↦ ?_, ?_, ?_⟩
    · rw [List.map_cons, List.mem_cons, or_assoc, or_left_comm, ← mem_keys_symbolsOf]
      exact hleaves.mem_keys id
    · intro other hother
      rcases List.mem_cons.mp hother with rfl | hother
      · obtain ⟨entry, hfits⟩ := catalog.fits_symbolsOf other
        exact ⟨entry, (Fits.congr (hleaves.others other.id hfresh)).mpr hfits⟩
      · exact hleaves.fits other hother
    · intro id hid
      rw [List.map_cons, List.mem_cons, not_or] at hid
      exact (hleaves.others id hid.2).trans (entry_symbolsOf_of_ne hid.1)

/-- Modules are looked up in what the catalog kept before the look. -/
theorem symbolsOfAll_fst {modules : List (HostModule κ)}
    (h : (modules.map HostModule.id).Nodup) :
    (catalog.symbolsOfAll modules).1 = modules.map fun module ↦ (catalog.symbolsOf module).1 := by
  induction modules generalizing catalog with
  | nil => rfl
  | cons module rest ih =>
    obtain ⟨hfresh, hrest⟩ := List.nodup_cons.mp h
    have hothers : rest.map (fun other ↦ ((catalog.symbolsOf module).2.symbolsOf other).1) =
        rest.map fun other ↦ (catalog.symbolsOf other).1 := by
      refine List.map_congr_left fun other hother ↦ symbolsOf_congr (entry_symbolsOf_of_ne ?_)
      rintro hid
      exact hfresh (hid ▸ List.mem_map_of_mem hother)
    rw [List.map_cons, ← hothers, ← ih hrest]
    rfl

theorem nodup_staticModules {host : Host κ} (h : host.Sound) :
    ((staticModules host).map HostModule.id).Nodup := (h.filter _).2

/-- Behind a look through a host, the catalog has one entry for each static module. -/
theorem perm_keys_snapshot {host : Host κ} (hhost : host.Sound) (h : catalog.keys.Nodup) :
    (catalog.snapshot host).2.keys.Perm ((staticModules host).map HostModule.id) := by
  have hnodup := nodup_staticModules hhost
  have hleaves : (catalog.evict ((staticModules host).map HostModule.id)).Leaves
      (staticModules host) (catalog.snapshot host).2 := leaves_symbolsOfAll hnodup
  refine (List.perm_ext_iff_of_nodup (hleaves.nodup (nodup_keys_evict h _)) hnodup).mpr ?_
  intro id
  rw [hleaves.mem_keys, mem_keys_evict]
  exact or_iff_left_of_imp And.right

theorem fits_snapshot {host : Host κ} (hhost : host.Sound) (catalog : Catalog) :
    ∀ module ∈ staticModules host, ∃ entry, (catalog.snapshot host).2.Fits module entry :=
  (leaves_symbolsOfAll (nodup_staticModules hhost)).fits

/-- A look gives what the catalog had kept of each module, if that fits. -/
theorem references_snapshot {host : Host κ} (hhost : host.Sound) (catalog : Catalog) :
    (catalog.snapshot host).1.references =
      (staticModules host).map fun module ↦ (catalog.symbolsOf module).1 := by
  refine (symbolsOfAll_fst (nodup_staticModules hhost)).trans ?_
  refine List.map_congr_left fun module hmodule ↦ symbolsOf_congr ?_
  exact entry_evict catalog (List.mem_map_of_mem hmodule)

/-! ## One host -/

/-- Modules stand in the order of their registration. -/
theorem Reached.pairwise_id {host : Host κ} (h : Reached host catalog) :
    (host.modules.map HostModule.id).Pairwise (· < ·) := by
  induction h with
  | empty => exact .nil
  | @register host catalog h spec ih =>
    simp only [Host.register, List.map_append]
    refine List.pairwise_append.mpr
      ⟨ih.sublist (List.filter_sublist.map _), List.pairwise_singleton _ _, ?_⟩
    intro id hid last hlast
    obtain ⟨module, hmodule, rfl⟩ := List.mem_map.mp hid
    have hle := h.sound.id_le module (List.mem_of_mem_filter hmodule)
    have hnew : last = host.lastId + 1 := List.mem_singleton.mp hlast
    omega
  | @unregister host catalog h id ih =>
    unfold Host.unregister
    split
    · exact ih.sublist (List.filter_sublist.map _)
    · exact ih
  | snapshot _ ih => exact ih
  | invalidate _ ih => exact ih

/-- A catalog has one entry for an id at most. -/
theorem Reached.nodup_keys {host : Host κ} (h : Reached host catalog) : catalog.keys.Nodup := by
  induction h with
  | empty => exact List.nodup_nil
  | register _ _ ih => exact ih
  | unregister _ _ ih => exact ih
  | snapshot h ih =>
    exact (perm_keys_snapshot h.sound ih).nodup_iff.mpr (nodup_staticModules h.sound)
  | invalidate _ _ => exact List.nodup_nil

/-- Whatever has happened to a host and its catalog, the next look gives what a look without memory
would give, also if there were no dynamic modules, with the static modules in the order of their
registration. It leaves one entry for each of them, with its generation. -/
theorem snapshot_eq_scan {host : Host κ} (h : Reached host catalog) :
    (catalog.snapshot host).1 = scan host ∧
      (catalog.snapshot { host with modules := staticModules host }).1 = scan host ∧
      ((staticModules host).map HostModule.id).Pairwise (· < ·) ∧
      (catalog.snapshot host).2.keys.Perm ((staticModules host).map HostModule.id) ∧
      ∀ module ∈ staticModules host, ∃ entry,
        entry? (catalog.snapshot host).2 module.id = some entry ∧
          entry.generation = module.generation := by
  have hscan : (catalog.snapshot host).1 = scan host :=
    congrArg (Snapshot.mk · ((staticModules host).flatMap metadataOf)) h.references_eq
  refine ⟨hscan, ?_, ?_, perm_keys_snapshot h.sound h.nodup_keys, fits_snapshot h.sound catalog⟩
  · have hstatic : staticModules { host with modules := staticModules host } =
        staticModules host := by
      simp [staticModules]
    rw [← hscan, snapshot, snapshot, hstatic]
  · exact h.pairwise_id.sublist (List.filter_sublist.map _)

/-- A host whose first module was replaced by another of its name after a look, beside a dynamic
one. -/
def replacedHost : Host Echo :=
  (((Host.empty.register { name := "web.ui", types := ["Page"] }).2.register
    { name := "/a.kpage:1", isDynamic := true }).2.register
    { name := "web.ui", types := ["Page", "Form"] }).2

def replacedCatalog : Catalog :=
  (Catalog.empty.snapshot
    ((Host.empty : Host Echo).register { name := "web.ui", types := ["Page"] }).2).2

theorem snapshot_eq_scan_replaced :
    (replacedCatalog.snapshot replacedHost).1 = scan replacedHost ∧
      (replacedCatalog.snapshot replacedHost).2.keys.Perm [3] := by
  have hreached : Reached replacedHost replacedCatalog :=
    .register (.register (.snapshot (.register .empty _)) _) _
  obtain ⟨hscan, _, _, hkeys, _⟩ := snapshot_eq_scan hreached
  exact ⟨hscan, hkeys⟩

/-! ## Several hosts -/

/-- What several hosts and one catalog for all of them can come to be. -/
inductive Shared {ι : Type} [DecidableEq ι] : (ι → Host κ) → Catalog → Prop
  | empty : Shared (fun _ ↦ Host.empty) Catalog.empty
  | register {hosts : ι → Host κ} {catalog : Catalog} (h : Shared hosts catalog) (which : ι)
      (spec : ModuleSpec κ) :
      Shared (Function.update hosts which ((hosts which).register spec).2) catalog
  | unregister {hosts : ι → Host κ} {catalog : Catalog} (h : Shared hosts catalog) (which : ι)
      (id : Nat) : Shared (Function.update hosts which ((hosts which).unregister id).2) catalog
  | snapshot {hosts : ι → Host κ} {catalog : Catalog} (h : Shared hosts catalog) (which : ι) :
      Shared hosts (catalog.snapshot (hosts which)).2
  | invalidate {hosts : ι → Host κ} {catalog : Catalog} (h : Shared hosts catalog) :
      Shared hosts catalog.invalidate

/-- A host does not notice what other hosts the catalog serves. -/
theorem Shared.sound {ι : Type} [DecidableEq ι] {hosts : ι → Host κ} (h : Shared hosts catalog)
    (which : ι) : (hosts which).Sound := by
  induction h generalizing which with
  | empty => exact Host.sound_empty
  | @register hosts _ _ other spec ih =>
    by_cases hwhich : which = other
    · subst hwhich
      rw [Function.update_self]
      exact (ih which).register spec
    · rw [Function.update_of_ne hwhich]
      exact ih which
  | @unregister hosts _ _ other id ih =>
    by_cases hwhich : which = other
    · subst hwhich
      rw [Function.update_self]
      exact (ih which).unregister id
    · rw [Function.update_of_ne hwhich]
      exact ih which
  | snapshot _ _ ih => exact ih which
  | invalidate _ ih => exact ih which

/-- The symbols are right unless an entry fits that has been made of others. -/
theorem symbolsOf_eq_iff : (catalog.symbolsOf module).1 = module.symbols ↔
    ∀ entry, catalog.Fits module entry → entry.symbols = module.symbols := by
  obtain ⟨entry, hfits, hsymbols⟩ | ⟨hnone, hsymbols⟩ := catalog.symbolsOf_cases module
  · rw [hsymbols]
    refine ⟨fun heq other hother ↦ ?_, fun hall ↦ hall entry hfits⟩
    cases hfits.1.symm.trans hother.1
    exact heq
  · rw [hsymbols]
    exact iff_of_true rfl fun entry hfits ↦ absurd hfits (hnone entry)

/-- What a catalog has kept under the id and generation of a static module of a host are the symbols
of this module, and not those of another host's. -/
def Owns (catalog : Catalog) (host : Host κ) : Prop :=
  ∀ module ∈ staticModules host, ∀ entry, catalog.entry? module.id = some entry →
    entry.generation = module.generation → entry.symbols = module.symbols

/-- A catalog that owns its entries gives the symbols of the host itself. -/
theorem Owns.references_eq {host : Host κ} (h : catalog.Owns host) (hsound : host.Sound) :
    (catalog.snapshot host).1.references =
      (staticModules host).map (fun module ↦ module.symbols) := by
  rw [references_snapshot hsound]
  refine List.map_congr_left fun module hmodule ↦ symbolsOf_eq_iff.mpr ?_
  exact fun entry hfits ↦ h module hmodule entry hfits.1 hfits.2

/-- A catalog that has served one host only has kept nothing of another one. -/
theorem Reached.owns {host : Host κ} (h : Reached host catalog) : catalog.Owns host := by
  intro module hmodule entry hentry _
  have hkept := (h.holds module.id entry (mem_of_lookup_eq_some hentry)).2
  exact hkept module (List.mem_of_mem_filter hmodule) rfl

/-- One host is as good as several. -/
theorem Reached.shared {host : Host κ} (h : Reached host catalog) :
    Shared (fun _ : Unit ↦ host) catalog := by
  have hconst (host next : Host κ) : Function.update (fun _ : Unit ↦ host) () next = fun _ ↦ next :=
    Function.update_eq_const_of_subsingleton _ _ _
  induction h with
  | empty => exact .empty
  | register _ spec ih =>
    have hnext := ih.register () spec
    rwa [hconst] at hnext
  | unregister _ id ih =>
    have hnext := ih.unregister () id
    rwa [hconst] at hnext
  | snapshot _ ih => exact ih.snapshot ()
  | invalidate _ ih => exact ih.invalidate

/-- The facts about components are always those of the host that is looked through. The symbols are
too, unless the catalog has kept others under the id and generation of one of its modules. -/
theorem snapshot_shared_eq_scan_iff {ι : Type} [DecidableEq ι] {hosts : ι → Host κ}
    (h : Shared hosts catalog) (which : ι) :
    (catalog.snapshot (hosts which)).1.components = (scan (hosts which)).components ∧
      ((catalog.snapshot (hosts which)).1 = scan (hosts which) ↔
        ∀ module ∈ staticModules (hosts which), ∀ entry,
          catalog.entry? module.id = some entry → entry.generation = module.generation →
            entry.symbols = module.symbols) := by
  refine ⟨rfl, ?_⟩
  have hreferences := references_snapshot (h.sound which) catalog
  have hscan : (catalog.snapshot (hosts which)).1 = scan (hosts which) ↔
      (catalog.snapshot (hosts which)).1.references = (scan (hosts which)).references :=
    ⟨congrArg Snapshot.references,
      congrArg (Snapshot.mk · ((staticModules (hosts which)).flatMap metadataOf))⟩
  rw [hscan, hreferences, scan, List.map_inj_left]
  exact forall₂_congr fun module _ ↦ symbolsOf_eq_iff.trans
    ⟨fun hall entry hentry hgeneration ↦ hall entry ⟨hentry, hgeneration⟩,
      fun hall entry hfits ↦ hall entry hfits.1 hfits.2⟩

/-- Two hosts with one module each, which have the same id and generation. -/
def neighbours : Bool → Host Echo :=
  Function.update (Function.update (fun _ ↦ Host.empty) false
    (Host.empty.register { name := "left", types := ["Page"] }).2) true
    (Host.empty.register { name := "right", types := ["Form"] }).2

/-- The catalog of both hosts after a look through the first. -/
def neighboursCatalog : Catalog := (Catalog.empty.snapshot (neighbours false)).2

theorem shared_neighbours : Shared neighbours neighboursCatalog :=
  .snapshot (.register (.register .empty false { name := "left", types := ["Page"] }) true
    { name := "right", types := ["Form"] }) false

/-- What was kept of the first host shows up in the second. -/
theorem snapshot_neighbours_ne_scan :
    (neighboursCatalog.snapshot (neighbours true)).1 ≠ scan (neighbours true) ∧
      (neighboursCatalog.snapshot (neighbours true)).1.references =
        [.ofTypes "left" [("Page", { isComponent := false })]] := by
  have hreferences : (neighboursCatalog.snapshot (neighbours true)).1.references =
      [.ofTypes "left" [("Page", { isComponent := false })]] := by decide +kernel
  refine ⟨fun hscan ↦ ?_, hreferences⟩
  have hown := (snapshot_shared_eq_scan_iff shared_neighbours true).2.mp hscan
  have hmem : { name := "right", types := ["Form"], id := 1, generation := 1 } ∈
      staticModules (neighbours true) := List.mem_singleton_self _
  have hentry : neighboursCatalog.entry? 1 =
      some ⟨1, .ofTypes "left" [("Page", { isComponent := false })], 1⟩ := rfl
  have hsymbols := congrArg ModuleSymbols.name (hown _ hmem _ hentry rfl)
  exact absurd hsymbols (by decide)

end Catalog

end PageScript
