import PageScript.Binding
import PageScript.Proofs.Script.Meaning

/-!
# Resolved types

A name that binding resolves stands for a type that the references have, and it is the type that
running the script would look up: where exactly one used module has a type, the first that has it is
that module.
-/

namespace PageScript

theorem References.name_of_find {references : References} {name : String} {module : ModuleSymbols}
    (h : references.find name = some module) : module.name = name := by
  simpa using List.find?_some h

namespace Binding

open Script

/-- One more `use` brings the module of that name into scope. -/
def addUsed (references : References) (modules : List ModuleSymbols) (name : QualifiedName) :
    List ModuleSymbols :=
  match references.find name.text with
  | some module => if modules.any (·.name = module.name) then modules else modules ++ [module]
  | none => modules

theorem usedModules_eq (references : References) (uses : List QualifiedName) :
    usedModules references uses = uses.foldl (addUsed references) [] := rfl

/-- Of several modules with one name, only that which the references find is ever in scope. -/
theorem mem_addUsed {references : References} {modules : List ModuleSymbols}
    (hmodules : ∀ module ∈ modules, references.find module.name = some module)
    {name : QualifiedName} {module : ModuleSymbols} :
    module ∈ addUsed references modules name ↔
      module ∈ modules ∨ references.find name.text = some module := by
  unfold addUsed
  cases hfind : references.find name.text with
  | none => simp
  | some found =>
    have hfound := References.name_of_find hfind
    by_cases hany : modules.any (·.name = found.name)
    · simp only [hany, if_true, Option.some.injEq]
      refine ⟨.inl, ?_⟩
      rintro (hmem | rfl)
      · exact hmem
      · obtain ⟨other, hother, hname⟩ := List.any_eq_true.mp hany
        have hsame := hmodules other hother
        rw [of_decide_eq_true hname, hfound, hfind, Option.some.injEq] at hsame
        exact hsame ▸ hother
    · simp only [hany, Bool.false_eq_true, if_false, List.mem_append, List.mem_singleton,
        Option.some.injEq]
      exact or_congr_right eq_comm

theorem mem_foldl_addUsed {references : References} {uses : List QualifiedName}
    {modules : List ModuleSymbols}
    (hmodules : ∀ module ∈ modules, references.find module.name = some module)
    {module : ModuleSymbols} :
    module ∈ uses.foldl (addUsed references) modules ↔
      module ∈ modules ∨ ∃ use ∈ uses, references.find use.text = some module := by
  induction uses generalizing modules with
  | nil => simp
  | cons use rest ih =>
    rw [List.foldl_cons, ih, mem_addUsed hmodules]
    · simp only [List.mem_cons, exists_eq_or_imp, or_assoc]
    · intro other hother
      rcases (mem_addUsed hmodules).mp hother with hother | hother
      · exact hmodules other hother
      · rw [References.name_of_find hother, hother]

theorem mem_usedModules {references : References} {uses : List QualifiedName}
    {module : ModuleSymbols} :
    module ∈ usedModules references uses ↔
      ∃ use ∈ uses, references.find use.text = some module := by
  rw [usedModules_eq, mem_foldl_addUsed (by simp)]
  simp

/-- The used modules that have a type of a name, with its symbol. -/
def candidates (used : List ModuleSymbols) (name : String) : List (String × TypeSymbol) :=
  used.filterMap fun module ↦ (module.types.get? name).map fun symbol ↦ (module.name, symbol)

theorem mem_candidates {used : List ModuleSymbols} {name moduleName : String}
    {symbol : TypeSymbol} :
    (moduleName, symbol) ∈ candidates used name ↔
      ∃ module ∈ used, module.name = moduleName ∧ module.types.get? name = some symbol := by
  simp only [candidates, List.mem_filterMap, Option.map_eq_some_iff, Prod.mk.injEq]
  constructor
  · rintro ⟨module, hmodule, found, hfound, rfl, rfl⟩
    exact ⟨module, hmodule, rfl, hfound⟩
  · rintro ⟨module, hmodule, rfl, hfound⟩
    exact ⟨module, hmodule, symbol, hfound, rfl, rfl⟩

/-- How a name can be resolved. -/
theorem resolve_cases {references : References} {used : List ModuleSymbols} {name : QualifiedName}
    {type : TypeName} {symbol : TypeSymbol}
    (h : resolve references used name = .ok (type, symbol)) :
    (∃ qualifier module, name.qualifier? = some qualifier ∧
      references.find qualifier = some module ∧ module.types.get? name.name = some symbol ∧
      type = ⟨module.name, name.name⟩) ∨
    (name.qualifier? = none ∧ candidates used name.name = [(type.module, symbol)] ∧
      type.name = name.name) := by
  unfold resolve at h
  cases hqualifier : name.qualifier? with
  | some qualifier =>
    simp only [hqualifier] at h
    split at h
    · contradiction
    · rename_i module hfind
      split at h
      · contradiction
      · rename_i found hfound
        cases h
        exact .inl ⟨qualifier, module, rfl, hfind, hfound, rfl⟩
  | none =>
    simp only [hqualifier] at h
    split at h
    · contradiction
    · rename_i module found hcandidates
      cases h
      exact .inr ⟨rfl, hcandidates, rfl⟩
    · contradiction

variable {references : References} {unit : ScriptUnit} {name : QualifiedName} {type : TypeName}
  {symbol : TypeSymbol}

/-- A resolved type is one of the references. -/
theorem find_of_resolve
    (h : resolve references (usedModules references unit.uses) name = .ok (type, symbol)) :
    ∃ module, references.find type.module = some module ∧
      module.types.get? type.name = some symbol := by
  obtain ⟨qualifier, module, _, hfind, hsymbol, rfl⟩ | ⟨_, hcandidates, hname⟩ := resolve_cases h
  · refine ⟨module, ?_, hsymbol⟩
    rw [References.name_of_find hfind, hfind]
  · obtain ⟨module, hmodule, hmoduleName, hsymbol⟩ :=
      mem_candidates.mp (hcandidates ▸ List.mem_singleton_self (type.module, symbol))
    obtain ⟨use, _, hfind⟩ := mem_usedModules.mp hmodule
    refine ⟨module, ?_, hname ▸ hsymbol⟩
    rw [← hmoduleName, References.name_of_find hfind, hfind]

theorem typeIn_eq_some {module found : String} {result : TypeName} :
    typeIn references module found = some result ↔
      result = ⟨module, found⟩ ∧ ∃ symbols, references.find module = some symbols ∧
        symbols.types.contains found = true := by
  unfold typeIn
  cases references.find module with
  | none => simp
  | some symbols =>
    by_cases hcontains : symbols.types.contains found = true
    · simp only [hcontains, if_true, Option.some.injEq, exists_eq_left', and_true]
      exact eq_comm
    · simp [hcontains]

/-- A resolved type is the one that running the script looks up. -/
theorem typeOf_of_resolve
    (h : resolve references (usedModules references unit.uses) name = .ok (type, symbol)) :
    typeOf references unit name = some type := by
  obtain ⟨qualifier, module, hqualifier, hfind, hsymbol, rfl⟩ | ⟨hqualifier, hcandidates, hname⟩ :=
    resolve_cases h
  · rw [typeOf, hqualifier]
    refine typeIn_eq_some.mpr ⟨?_, module, hfind, Option.isSome_iff_exists.mpr ⟨_, hsymbol⟩⟩
    rw [References.name_of_find hfind]
  · rw [typeOf, hqualifier]
    obtain ⟨module, hmodule, hmoduleName, hsymbol⟩ :=
      mem_candidates.mp (hcandidates ▸ List.mem_singleton_self (type.module, symbol))
    obtain ⟨use, huse, hfind⟩ := mem_usedModules.mp hmodule
    have hsome : (unit.uses.findSome? fun use ↦ typeIn references use.text name.name).isSome := by
      rw [List.findSome?_isSome_iff]
      have hcontains := Option.isSome_iff_exists.mpr ⟨_, hsymbol⟩
      exact ⟨use, huse, Option.isSome_iff_exists.mpr
        ⟨_, typeIn_eq_some.mpr ⟨rfl, module, hfind, hcontains⟩⟩⟩
    obtain ⟨result, hresult⟩ := Option.isSome_iff_exists.mp hsome
    -- Whichever use has the type first, its module is the only candidate.
    obtain ⟨first, hfirst, htype⟩ := List.exists_of_findSome?_eq_some hresult
    obtain ⟨rfl, symbols, hsymbols, hcontains⟩ := typeIn_eq_some.mp htype
    obtain ⟨found, hfound⟩ := Option.isSome_iff_exists.mp hcontains
    have hmem := mem_candidates.mpr
      ⟨symbols, mem_usedModules.mpr ⟨first, hfirst, hsymbols⟩, rfl, hfound⟩
    rw [hcandidates, List.mem_singleton, Prod.mk.injEq, References.name_of_find hsymbols] at hmem
    rw [hmem.1, ← hname] at hresult
    rw [← hname]
    exact hresult

end Binding

end PageScript
