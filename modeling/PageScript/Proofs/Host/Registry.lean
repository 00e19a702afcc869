import PageScript.Proofs.Page.Catalog

/-!
# Histories of a host

Modules are registered and unregistered by turns. A new module replaces the one that has its name,
and modules are removed by id, which works because names and ids both tell modules apart: no id is
given twice, modules stand in the order in which they came, and a name leads to the last module that
was registered under it for as long as that one has not been unregistered.
-/

namespace PageScript.Host

variable {κ : Type}

/-- What changes a host. -/
inductive Call (κ : Type) where
  | register (spec : ModuleSpec κ)
  | unregister (id : Nat)

/-- The module that a call registers: it has the id that is answered, and the generation that the
host has from then on. -/
def Call.registers? (host : Host κ) : Call κ → Option (HostModule κ)
  | .register spec =>
    let (id, next) := host.register spec
    some { spec with id, generation := next.generation }
  | .unregister _ => none

def call (host : Host κ) : Call κ → Host κ
  | .register spec => (host.register spec).2
  | .unregister id => (host.unregister id).2

def run (host : Host κ) (calls : List (Call κ)) : Host κ := calls.foldl call host

/-- All modules that are registered in the course of some calls, also those that are gone again. -/
def registrations (host : Host κ) : List (Call κ) → List (HostModule κ)
  | [] => []
  | first :: rest => (first.registers? host).toList ++ registrations (host.call first) rest

theorem run_append (host : Host κ) (calls more : List (Call κ)) :
    host.run (calls ++ more) = (host.run calls).run more :=
  List.foldl_append

theorem Sound.call {host : Host κ} (h : host.Sound) (call : Call κ) : (host.call call).Sound := by
  cases call with
  | register spec => exact h.register spec
  | unregister id => exact h.unregister id

/-- Names and ids tell modules apart after any number of calls. -/
theorem Sound.run {host : Host κ} (h : host.Sound) (calls : List (Call κ)) :
    (host.run calls).Sound := by
  induction calls generalizing host with
  | nil => exact h
  | cons first rest ih => exact ih (h.call first)

/-! ## Generations -/

/-- Even a module that replaces an equal one makes a new generation. -/
theorem generation_lt_register (host : Host κ) (spec : ModuleSpec κ) :
    host.generation < (host.register spec).2.generation :=
  Nat.lt_succ_self _

/-- If the module was there, the generation grows, and otherwise everything is as it was. -/
theorem unregister_cases (host : Host κ) (id : Nat) :
    ((host.unregister id).1 = true ∧ host.generation < (host.unregister id).2.generation) ∨
      ((host.unregister id).1 = false ∧ (host.unregister id).2 = host) := by
  unfold unregister
  split
  · exact .inl ⟨rfl, Nat.lt_succ_self _⟩
  · exact .inr ⟨rfl, rfl⟩

/-- The generation of a host never goes back. -/
theorem generation_le_unregister (host : Host κ) (id : Nat) :
    host.generation ≤ (host.unregister id).2.generation := by
  obtain ⟨_, hlt⟩ | ⟨_, hsame⟩ := unregister_cases host id
  · exact Nat.le_of_lt hlt
  · exact Nat.le_of_eq (congrArg generation hsame.symm)

/-! ## The order of modules -/

/-- Of the modules `made`, a later one has a later id and a later generation. Those of them that are
left on the host stand in the same order. -/
structure Dated (made : List (HostModule κ)) (host : Host κ) : Prop where
  order : host.modules.Sublist made
  ids : (made.map HostModule.id).Pairwise (· < ·)
  generations : (made.map HostModule.generation).Pairwise (· < ·)
  past : ∀ module ∈ made, module.id ≤ host.lastId ∧ module.id ≤ module.generation ∧
    module.generation ≤ host.generation
  lastId_le : host.lastId ≤ host.generation

theorem dated_empty : Dated [] (empty : Host κ) where
  order := List.Sublist.refl _
  ids := List.Pairwise.nil
  generations := List.Pairwise.nil
  past := by simp
  lastId_le := Nat.le_refl _

theorem pairwise_map_concat {α : Type} {number : α → Nat} {items : List α} {last : α}
    (h : (items.map number).Pairwise (· < ·)) (hlast : ∀ item ∈ items, number item < number last) :
    ((items ++ [last]).map number).Pairwise (· < ·) := by
  rw [List.map_append, List.map_singleton]
  apply List.pairwise_append.mpr
  refine ⟨h, List.pairwise_singleton _ _, ?_⟩
  intro value hvalue other hother
  obtain ⟨item, hitem, rfl⟩ := List.mem_map.mp hvalue
  rw [List.mem_singleton.mp hother]
  exact hlast item hitem

/-- A new module is later than all that there ever were, those that are gone included. -/
theorem Dated.register {made : List (HostModule κ)} {host : Host κ} (h : Dated made host)
    (spec : ModuleSpec κ) :
    Dated (made ++ [host.registered spec]) (host.register spec).2 where
  order := (List.filter_sublist.trans h.order).append (List.Sublist.refl _)
  ids := by
    apply pairwise_map_concat h.ids
    intro module hmodule
    exact Nat.lt_succ_of_le (h.past module hmodule).1
  generations := by
    apply pairwise_map_concat h.generations
    intro module hmodule
    exact Nat.lt_succ_of_le (h.past module hmodule).2.2
  past := by
    intro module hmodule
    rcases List.mem_append.mp hmodule with hold | hnew
    · obtain ⟨hid, hdate, hgeneration⟩ := h.past module hold
      exact ⟨Nat.le_succ_of_le hid, hdate, Nat.le_succ_of_le hgeneration⟩
    · rw [List.mem_singleton.mp hnew]
      exact ⟨Nat.le_refl _, Nat.succ_le_succ h.lastId_le, Nat.le_refl _⟩
  lastId_le := Nat.succ_le_succ h.lastId_le

theorem Dated.unregister {made : List (HostModule κ)} {host : Host κ} (h : Dated made host)
    (id : Nat) : Dated made (host.unregister id).2 where
  order := by
    rw [modules_unregister]
    exact List.filter_sublist.trans h.order
  ids := h.ids
  generations := h.generations
  past := by
    intro module hmodule
    obtain ⟨hid, hdate, hgeneration⟩ := h.past module hmodule
    rw [lastId_unregister]
    exact ⟨hid, hdate, Nat.le_trans hgeneration (generation_le_unregister host id)⟩
  lastId_le := by
    rw [lastId_unregister]
    exact Nat.le_trans h.lastId_le (generation_le_unregister host id)

/-- One call adds one module at most to those that were ever made. -/
theorem Dated.call {made : List (HostModule κ)} {host : Host κ} (h : Dated made host)
    (call : Call κ) : Dated (made ++ (call.registers? host).toList) (host.call call) := by
  cases call with
  | register spec => exact h.register spec
  | unregister id =>
    rw [Call.registers?, Option.toList_none, List.append_nil]
    exact h.unregister id

/-- Modules are dated in the order in which they were made, over any number of calls. -/
theorem Dated.run {made : List (HostModule κ)} {host : Host κ} (h : Dated made host)
    (calls : List (Call κ)) : Dated (made ++ host.registrations calls) (host.run calls) := by
  induction calls generalizing made host with
  | nil =>
    rw [registrations, List.append_nil]
    exact h
  | cons first rest ih =>
    rw [registrations, ← List.append_assoc]
    exact ih (h.call first)

/-! ## Finding modules -/

section

variable {host : Host κ} {module : HostModule κ}

theorem Sound.get?_eq_some_iff (h : host.Sound) {id : Nat} :
    host.get? id = some module ↔ module ∈ host.modules ∧ module.id = id :=
  find?_eq_some_iff_of_nodup h.ids

theorem Sound.find_eq_some_iff (h : host.Sound) {name : String} :
    host.find name = some module ↔ module ∈ host.modules ∧ module.name = name :=
  find?_eq_some_iff_of_nodup h.names

/-- A name leads to the module that was registered under it last. -/
theorem Sound.find_register_self (h : host.Sound) (spec : ModuleSpec κ) :
    (host.register spec).2.find spec.name = some (host.registered spec) :=
  (h.register spec).find_eq_some_iff.mpr ⟨mem_register.mpr (.inr rfl), rfl⟩

/-- Registering a module does not change what another name leads to. -/
theorem Sound.find_register_of_ne (h : host.Sound) {spec : ModuleSpec κ} {name : String}
    (hname : spec.name ≠ name) :
    (host.register spec).2.find name = some module ↔ host.find name = some module := by
  rw [(h.register spec).find_eq_some_iff, h.find_eq_some_iff, mem_register]
  constructor
  · rintro ⟨⟨hold, _⟩ | rfl, rfl⟩
    · exact ⟨hold, rfl⟩
    · exact absurd rfl hname
  · rintro ⟨hold, rfl⟩
    exact ⟨.inl ⟨hold, hname.symm⟩, rfl⟩

/-- Unregistering by id takes one name away, and no other name is touched. -/
theorem Sound.find_unregister (h : host.Sound) (id : Nat) {name : String} :
    (host.unregister id).2.find name = some module ↔
      host.find name = some module ∧ module.id ≠ id := by
  rw [(h.unregister id).find_eq_some_iff, h.find_eq_some_iff, modules_unregister, List.mem_filter,
    decide_eq_true_eq, and_right_comm]

/-- As long as nothing is registered under a name, it leads to the module it led to before, unless
that one is unregistered. -/
theorem Sound.find_run (h : host.Sound) {calls : List (Call κ)} {name : String}
    (hcalls : ∀ spec, .register spec ∈ calls → spec.name ≠ name) :
    (host.run calls).find name = some module ↔
      host.find name = some module ∧ .unregister module.id ∉ calls := by
  induction calls generalizing host with
  | nil =>
    change host.find name = some module ↔ _
    simp
  | cons first rest ih =>
    have hrest := ih (h.call first) fun spec hspec ↦ hcalls spec (List.mem_cons_of_mem _ hspec)
    refine hrest.trans ?_
    rw [List.mem_cons, not_or]
    cases first with
    | register spec =>
      have hname : spec.name ≠ name := hcalls spec List.mem_cons_self
      rw [Host.call, h.find_register_of_ne hname]
      simp
    | unregister id =>
      rw [Host.call, h.find_unregister id, and_assoc]
      simp

end

/-! ## Every history -/

/-- A host that was new before `calls`. -/
abbrev after (calls : List (Call κ)) : Host κ := empty.run calls

/-- What holds of a host after `calls`. -/
structure WellKept (calls : List (Call κ)) : Prop where
  names_nodup : ((after calls).modules.map fun module ↦ module.name).Nodup
  /-- Every module is kept under its own id, and nothing else is. -/
  get?_iff : ∀ id module, (after calls).get? id = some module ↔
    module ∈ (after calls).modules ∧ module.id = id
  /-- Ids grow with every module that is registered, so none is given twice. -/
  issued : ((empty.registrations calls).map HostModule.id).Pairwise (· < ·)
  order : (after calls).modules.Sublist (empty.registrations calls)
  ids : ((after calls).modules.map HostModule.id).Pairwise (· < ·)
  generations : ((after calls).modules.map HostModule.generation).Pairwise (· < ·)
  past : ∀ module ∈ (after calls).modules,
    module.id ≤ module.generation ∧ module.generation ≤ (after calls).generation
  /-- A name leads to the last module that was registered under it, until that is unregistered. -/
  find_last : ∀ before spec later, calls = before ++ .register spec :: later →
    (∀ other, .register other ∈ later → other.name ≠ spec.name) →
    (.unregister ((after before).register spec).1 ∉ later →
      (after calls).find spec.name = (Call.register spec).registers? (after before)) ∧
    (.unregister ((after before).register spec).1 ∈ later →
      (after calls).find spec.name = none)
  find_none : ∀ name, (∀ spec, .register spec ∈ calls → spec.name ≠ name) →
    (after calls).find name = none
  register_later : ∀ spec, (after calls).generation < ((after calls).register spec).2.generation
  unregister_later : ∀ id, ((after calls).unregister id).1 = true →
    (after calls).generation < ((after calls).unregister id).2.generation
  unregister_absent : ∀ id, ((after calls).unregister id).1 = false →
    ((after calls).unregister id).2 = after calls

theorem sound_after (calls : List (Call κ)) : (after calls).Sound := sound_empty.run calls

theorem dated_after (calls : List (Call κ)) :
    Dated ((empty : Host κ).registrations calls) (after calls) :=
  dated_empty.run calls

/-- After a module was registered, and others under other names, its name leads to it unless it was
unregistered. -/
theorem find_after_register {before later : List (Call κ)} {spec : ModuleSpec κ}
    {module : HostModule κ} (hlater : ∀ other, .register other ∈ later → other.name ≠ spec.name) :
    (after (before ++ .register spec :: later)).find spec.name = some module ↔
      (after before).registered spec = module ∧ .unregister module.id ∉ later := by
  have hsound := (sound_after before).register spec
  have hrun : after (before ++ .register spec :: later) =
      ((after before).register spec).2.run later := run_append _ _ _
  rw [hrun, hsound.find_run hlater, (sound_after before).find_register_self spec, Option.some.injEq]

/-- Whatever is registered and unregistered, and in whatever order, the modules of a host are well
kept. -/
theorem wellKept_after (calls : List (Call κ)) : WellKept calls where
  names_nodup := (sound_after calls).names
  get?_iff _ _ := (sound_after calls).get?_eq_some_iff
  issued := (dated_after calls).ids
  order := (dated_after calls).order
  ids := (dated_after calls).ids.sublist ((dated_after calls).order.map _)
  generations := (dated_after calls).generations.sublist ((dated_after calls).order.map _)
  past module hmodule :=
    ((dated_after calls).past module ((dated_after calls).order.subset hmodule)).2
  find_last := by
    rintro before spec later rfl hlater
    constructor
    · intro hkept
      exact (find_after_register hlater).mpr ⟨rfl, hkept⟩
    · intro hgone
      apply Option.eq_none_iff_forall_ne_some.mpr
      intro module hfound
      obtain ⟨rfl, hkept⟩ := (find_after_register hlater).mp hfound
      exact hkept hgone
  find_none := by
    intro name hcalls
    apply Option.eq_none_iff_forall_ne_some.mpr
    intro module hfound
    have hold := ((sound_empty.find_run hcalls).mp hfound).1
    contradiction
  register_later := generation_lt_register (after calls)
  unregister_later := by
    intro id htrue
    obtain ⟨_, hlater⟩ | ⟨hfalse, _⟩ := unregister_cases (after calls) id
    · exact hlater
    · rw [hfalse] at htrue
      contradiction
  unregister_absent := by
    intro id hfalse
    obtain ⟨htrue, _⟩ | ⟨_, hsame⟩ := unregister_cases (after calls) id
    · rw [htrue] at hfalse
      contradiction
    · exact hsame

/-- The third module replaces the first, which cannot be unregistered any more. -/
example :
    (after [.register { name := "a" }, .register { name := "b" }, .register { name := "a" },
      .unregister 1, .unregister 2] : Host Unit).modules.map
        (fun module ↦ (module.name, module.id, module.generation)) = [("a", 3, 3)] := by
  decide

end PageScript.Host
