import Mathlib.Data.List.Forall2
import Mathlib.Data.List.Nodup
import PageScript.Proofs.Binding.Resolution

/-!
# The rules of scripts

What a name stands for, and what the classes of scripts may refer to, stated without binding them.
Resolving a name gives the type that it stands for, and nothing if it stands for none.
-/

namespace PageScript

/-- The first module of a name is the one that references have under it. -/
def References.Serves (references : References) (name : String) (module : ModuleSymbols) : Prop :=
  ∃ before after, references = before ++ module :: after ∧ module.name = name ∧
    ∀ other ∈ before, other.name ≠ name

/-- Of modules with one name, the first serves. -/
theorem References.find_eq_some_iff {references : References} {name : String}
    {module : ModuleSymbols} :
    references.find name = some module ↔ references.Serves name module := by
  simp only [find, Serves, List.find?_eq_some_iff_append, decide_eq_true_eq, Bool.not_eq_true',
    decide_eq_false_iff_not]
  constructor
  · rintro ⟨hname, before, after, hsplit, hbefore⟩
    exact ⟨before, after, hsplit, hname, hbefore⟩
  · rintro ⟨before, after, hsplit, hname, hbefore⟩
    exact ⟨hname, before, after, hsplit, hbefore⟩

namespace Script

/-- A script uses the modules that its `use` declarations name. -/
def ScriptUnit.Uses (unit : ScriptUnit) (references : References) (module : ModuleSymbols) : Prop :=
  ∃ use ∈ unit.uses, references.Serves use.text module

/-- The type that a name stands for in a script. A qualified name tells the module that has the
type; for any other, exactly one of the modules that the script uses must have it. -/
inductive Denotes (references : References) (unit : ScriptUnit) (name : QualifiedName) :
    TypeName → TypeSymbol → Prop
  | qualified {qualifier : String} {module : ModuleSymbols} {symbol : TypeSymbol}
      (hqualifier : name.qualifier? = some qualifier)
      (hmodule : references.Serves qualifier module)
      (hsymbol : module.types.get? name.name = some symbol) :
      Denotes references unit name ⟨qualifier, name.name⟩ symbol
  | unqualified {module : ModuleSymbols} {symbol : TypeSymbol}
      (hqualifier : name.qualifier? = none) (hmodule : unit.Uses references module)
      (hsymbol : module.types.get? name.name = some symbol)
      (honly : ∀ other, unit.Uses references other → other.types.contains name.name = true →
        other = module) :
      Denotes references unit name ⟨module.name, name.name⟩ symbol

/-- The locals that some statements declare, each with the name of its type. -/
def lets (kinds : List Statement.Kind) : List (String × QualifiedName) :=
  kinds.filterMap fun kind ↦
    match kind with
    | .create name type => some (name, type)
    | _ => none

def ClassDeclaration.kinds (declaration : ClassDeclaration) : List Statement.Kind :=
  declaration.body.map Statement.kind

/-- The rules for one class of a script, if `classes` are the names of all classes. -/
structure WellFormedClass (references : References) (classes : List String) (unit : ScriptUnit)
    (declaration : ClassDeclaration) : Prop where
  base : ∃ type symbol, Denotes references unit declaration.base type symbol
  types : ∀ name type, .create name type ∈ declaration.kinds →
    ∃ found symbol, Denotes references unit type found symbol ∧ symbol.isComponent = true
  locals : ((lets declaration.kinds).map Prod.fst).Nodup
  assigns : ∀ before target property value after,
    declaration.kinds = before ++ .assign target property value :: after →
    ∃ type found symbol, (target, type) ∈ lets before ∧ Denotes references unit type found symbol ∧
      property ∈ symbol.assignable.names
  renders : ∀ before name after, declaration.kinds = before ++ .render name :: after →
    ∃ type, (name, type) ∈ lets before
  embeds : ∀ name, .embed name ∈ declaration.kinds → name ∈ classes

/-- The rules for a list of scripts. -/
structure WellFormed (units : List ScriptUnit) (references : References) : Prop where
  names : ((declarations units).map fun declaration ↦ declaration.2.name).Nodup
  uses : ∀ unit ∈ units, ∀ use ∈ unit.uses, ∃ module ∈ references, module.name = use.text
  classes : ∀ unit ∈ units, ∀ declaration ∈ unit.classes,
    WellFormedClass references ((declarations units).map fun declaration ↦ declaration.2.name)
      unit declaration

/-- A statement is bound to an operation of its own kind; a created local has the type that its type
name stands for. -/
inductive TypedAs (references : References) (unit : ScriptUnit) :
    Statement.Kind → BoundStatement.Op → Prop
  | write (text : String) : TypedAs references unit (.write text) (.write text)
  | create {type : QualifiedName} {found : TypeName} {symbol : TypeSymbol} (name : String)
      (slot : Nat) (htype : Denotes references unit type found symbol) :
      TypedAs references unit (.create name type) (.create found slot)
  | assign (target property value : String) (slot : Nat) :
      TypedAs references unit (.assign target property value) (.assign slot property value)
  | render (name : String) (slot : Nat) : TypedAs references unit (.render name) (.render slot)
  | embed (className : String) : TypedAs references unit (.embed className) (.embed className)

/-- All types of a bound class are those that the type names of its declaration stand for. -/
structure TypedClass (references : References) (unit : ScriptUnit) (declaration : ClassDeclaration)
    (current : BoundClass) : Prop where
  name : current.name = declaration.name
  base : ∃ symbol, Denotes references unit declaration.base current.base symbol
  body : List.Forall₂ (fun stmt bound ↦ TypedAs references unit stmt.kind bound.op)
    declaration.body current.body

end Script

namespace Binding

open Script

/-! ## Names of types -/

theorem nodup_addUsed {references : References} {modules : List ModuleSymbols}
    (h : modules.Nodup) (name : QualifiedName) : (addUsed references modules name).Nodup := by
  unfold addUsed
  split
  · rename_i module _
    split
    · exact h
    · rename_i hnew
      refine List.nodup_append.mpr ⟨h, List.nodup_singleton _, ?_⟩
      rintro other hother _ hlast rfl
      rw [List.mem_singleton] at hlast
      exact hnew (List.any_eq_true.mpr ⟨other, hother, by simp [hlast]⟩)
  · exact h

theorem nodup_usedModules (references : References) (uses : List QualifiedName) :
    (usedModules references uses).Nodup := by
  rw [usedModules_eq]
  exact List.foldlRecOn uses (addUsed references) (motive := List.Nodup) List.nodup_nil
    fun _ hmodules name _ ↦ nodup_addUsed hmodules name

/-- The used modules are those that some `use` of the unit names, in the references. -/
theorem mem_usedModules_iff_uses {references : References} {unit : ScriptUnit}
    {module : ModuleSymbols} :
    module ∈ usedModules references unit.uses ↔ unit.Uses references module := by
  simp only [mem_usedModules, References.find_eq_some_iff, ScriptUnit.Uses]

/-- A type of one used module only is the one candidate for its name. -/
theorem candidates_eq_singleton {used : List ModuleSymbols} (hnodup : used.Nodup)
    {name : String} {module : ModuleSymbols} {symbol : TypeSymbol} (hmodule : module ∈ used)
    (hsymbol : module.types.get? name = some symbol)
    (honly : ∀ other ∈ used, other.types.contains name = true → other = module) :
    candidates used name = [(module.name, symbol)] := by
  obtain ⟨before, after, rfl⟩ := List.append_of_mem hmodule
  have hnone : ∀ other ∈ before ++ module :: after, other ≠ module →
      (other.types.get? name).map (fun symbol ↦ (other.name, symbol)) = none := by
    intro other hother hne
    rw [Option.map_eq_none_iff, ← Option.not_isSome_iff_eq_none]
    exact fun hsome ↦ hne (honly other hother hsome)
  obtain ⟨_, hrest, hdisjoint⟩ := List.nodup_append.mp hnodup
  have hbefore : candidates before name = [] := by
    refine List.filterMap_eq_nil_iff.mpr fun other hother ↦ ?_
    exact hnone other (List.mem_append_left _ hother)
      (hdisjoint other hother module List.mem_cons_self)
  have hafter : candidates after name = [] := by
    refine List.filterMap_eq_nil_iff.mpr fun other hother ↦ ?_
    refine hnone other (List.mem_append_right _ (List.mem_cons_of_mem _ hother)) ?_
    rintro rfl
    exact (List.nodup_cons.mp hrest).1 hother
  rw [candidates] at hbefore hafter ⊢
  rw [List.filterMap_append, hbefore, List.nil_append,
    List.filterMap_cons_some (by rw [hsymbol, Option.map_some]), hafter]

/-- A name is resolved to the type that it stands for. -/
theorem resolve_eq_ok_iff {references : References} {unit : ScriptUnit} {name : QualifiedName}
    {type : TypeName} {symbol : TypeSymbol} :
    resolve references (usedModules references unit.uses) name = .ok (type, symbol) ↔
      Denotes references unit name type symbol := by
  constructor
  · intro h
    obtain ⟨qualifier, module, hqualifier, hfind, hsymbol, rfl⟩ |
      ⟨hqualifier, hcandidates, hname⟩ := resolve_cases h
    · rw [References.name_of_find hfind]
      exact .qualified hqualifier (References.find_eq_some_iff.mp hfind) hsymbol
    · obtain ⟨module, hmodule, hmoduleName, hsymbol⟩ :=
        mem_candidates.mp (hcandidates ▸ List.mem_singleton_self (type.module, symbol))
      have htype : type = ⟨module.name, name.name⟩ := by rw [hmoduleName, ← hname]
      rw [htype]
      refine .unqualified hqualifier (mem_usedModules_iff_uses.mp hmodule) hsymbol ?_
      intro other hother hcontains
      -- Two used modules of one name are the same, since the first of that name counts.
      obtain ⟨found, hfound⟩ := Option.isSome_iff_exists.mp hcontains
      have hother := mem_usedModules_iff_uses.mpr hother
      have hmem := mem_candidates.mpr ⟨other, hother, rfl, hfound⟩
      rw [hcandidates, List.mem_singleton, Prod.mk.injEq] at hmem
      obtain ⟨use, _, hfind⟩ := mem_usedModules.mp hmodule
      obtain ⟨use', _, hfind'⟩ := mem_usedModules.mp hother
      rw [← References.name_of_find hfind, hmoduleName] at hfind
      rw [← References.name_of_find hfind', hmem.1, hfind, Option.some.injEq] at hfind'
      exact hfind'.symm
  · intro h
    unfold resolve
    cases h with
    | qualified hqualifier hmodule hsymbol =>
      have hfind := References.find_eq_some_iff.mpr hmodule
      simp only [hqualifier, hfind, hsymbol, References.name_of_find hfind]
    | @unqualified module symbol hqualifier hmodule hsymbol honly =>
      have hcandidates := candidates_eq_singleton (nodup_usedModules references unit.uses)
        (mem_usedModules_iff_uses.mpr hmodule) hsymbol
        fun other hother ↦ honly other (mem_usedModules_iff_uses.mp hother)
      rw [candidates] at hcandidates
      simp only [hqualifier, hcandidates]

/-- A name can be resolved exactly if it denotes something by the rules. -/
theorem resolve_isOk_iff {references : References} {unit : ScriptUnit} {name : QualifiedName} :
    (∃ found, resolve references (usedModules references unit.uses) name = .ok found) ↔
      ∃ type symbol, Denotes references unit name type symbol := by
  simp only [Prod.exists, resolve_eq_ok_iff]

/-- By the rules, a name denotes one type at most. -/
theorem denotes_unique {references : References} {unit : ScriptUnit} {name : QualifiedName}
    {type other : TypeName} {symbol found : TypeSymbol}
    (h : Denotes references unit name type symbol)
    (hother : Denotes references unit name other found) :
    (type, symbol) = (other, found) :=
  Except.ok.inj ((resolve_eq_ok_iff.mpr h).symm.trans (resolve_eq_ok_iff.mpr hother))

end Binding

end PageScript
