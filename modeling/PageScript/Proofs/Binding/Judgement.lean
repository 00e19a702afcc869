import Mathlib.Data.List.Forall2
import PageScript.Binding
import PageScript.Proofs.Script.Meaning

/-!
# What binding establishes

If binding finds no error, every statement is bound to what its names stand for: a local to the
number of its declaration, a type to one that the references have, an embedded class to one that
some script declares. The classes of the bound module are those of the scripts, in order, and no two
of them have the same name.
-/

namespace PageScript.Binding

open Script

/-- None of the findings is an error. -/
def Clean (findings : List Finding) : Prop := ∀ finding ∈ findings, finding.isError = false

theorem clean_append {first second : List Finding} :
    Clean (first ++ second) ↔ Clean first ∧ Clean second := List.forall_mem_append

theorem not_clean_of_mem {findings : List Finding} {finding : Finding} (hmem : finding ∈ findings)
    (herror : finding.isError = true) : ¬Clean findings := by
  intro h
  rw [h finding hmem] at herror
  contradiction

/-- A name that stands for no type is an error. -/
theorem isError_of_resolve {references : References} {used : List ModuleSymbols}
    {name : QualifiedName} {problem : Problem} (h : resolve references used name = .error problem)
    {location : Location} : Finding.isError ⟨problem, location⟩ = true := by
  unfold resolve at h
  split at h
  · split at h
    · cases h
      rfl
    · split at h
      · cases h
        rfl
      · contradiction
  · simp only at h
    split at h
    · cases h
      rfl
    · contradiction
    · cases h
      rfl

/-! ## Statements -/

/-- Behind the locals `locals`, a statement is bound to an operation and gives the locals for what
follows. -/
inductive Binds (scope : Scope) (locals : List Local) :
    Statement.Kind → BoundStatement.Op → List Local → Prop
  | write (text : String) : Binds scope locals (.write text) (.write text) locals
  | create {type : QualifiedName} {found : TypeName} {symbol : TypeSymbol} (name : String)
      (location : Location)
      (hresolve : resolve scope.references scope.used type = .ok (found, symbol))
      (hcomponent : symbol.isComponent = true) (hfresh : slotOf locals name = none) :
      Binds scope locals (.create name type) (.create found locals.length)
        (locals ++ [⟨name, some (found, symbol), location⟩])
  | assign {target : String} {slot : Nat} (property value : String)
      (hslot : slotOf locals target = some slot) :
      Binds scope locals (.assign target property value) (.assign slot property value) locals
  | render {name : String} {slot : Nat} (hslot : slotOf locals name = some slot) :
      Binds scope locals (.render name) (.render slot) locals
  | embed {className : String} (hclass : className ∈ scope.classes) :
      Binds scope locals (.embed className) (.embed className) locals

theorem binds_create {scope : Scope} {locals : List Local} {location : Location} {name : String}
    {type : QualifiedName} (h : Clean (bindCreate scope locals location name type).findings) :
    ∃ op, (bindCreate scope locals location name type).op = some op ∧
      Binds scope locals (.create name type) op
        (bindCreate scope locals location name type).locals := by
  unfold bindCreate at h ⊢
  cases hslot : slotOf locals name with
  | some slot =>
    simp only [hslot, Option.isSome_some, if_true] at h
    exact absurd (clean_append.mp h).2 (not_clean_of_mem (List.mem_singleton_self _) rfl)
  | none =>
    simp only [hslot, Option.isSome_none, Bool.false_eq_true, if_false] at h ⊢
    cases hresolve : resolve scope.references scope.used type with
    | error problem =>
      rw [hresolve] at h
      refine absurd h (not_clean_of_mem (List.mem_singleton_self _) ?_)
      exact isError_of_resolve hresolve
    | ok found =>
      rcases found with ⟨found, symbol⟩
      rw [hresolve] at h
      cases hcomponent : symbol.isComponent with
      | true => exact ⟨_, rfl, .create name location hresolve hcomponent hslot⟩
      | false =>
        simp only [componentProblems, hcomponent, Bool.false_eq_true, if_false] at h
        exact absurd h (not_clean_of_mem (List.mem_singleton_self _) rfl)

/-- A statement without errors is bound. -/
theorem binds_statement {scope : Scope} {locals : List Local} {stmt : Statement}
    (h : Clean (bindStatement scope locals stmt).findings) :
    ∃ op, (bindStatement scope locals stmt).op = some op ∧
      Binds scope locals stmt.kind op (bindStatement scope locals stmt).locals := by
  rcases stmt with ⟨kind, start⟩
  cases kind with
  | write text => exact ⟨_, rfl, .write text⟩
  | create name type => exact binds_create h
  | assign target property value =>
    simp only [bindStatement] at h ⊢
    cases hslot : slotOf locals target with
    | some slot => exact ⟨_, rfl, .assign property value hslot⟩
    | none =>
      rw [hslot] at h
      exact absurd h (not_clean_of_mem (List.mem_singleton_self _) rfl)
  | render name =>
    simp only [bindStatement] at h ⊢
    cases hslot : slotOf locals name with
    | some slot => exact ⟨_, rfl, .render hslot⟩
    | none =>
      rw [hslot] at h
      exact absurd h (not_clean_of_mem (List.mem_singleton_self _) rfl)
  | embed className =>
    simp only [bindStatement] at h ⊢
    by_cases hclass : scope.classes.contains className
    · rw [if_pos hclass]
      exact ⟨_, rfl, .embed (List.contains_iff_mem.mp hclass)⟩
    · rw [if_neg hclass] at h
      exact absurd h (not_clean_of_mem (List.mem_singleton_self _) rfl)

/-! ## Bodies -/

/-- A body is bound statement by statement, each at its own place; the last list holds the locals
behind it. -/
inductive BindsBody (scope : Scope) :
    List Local → List Statement → List BoundStatement → List Local → Prop
  | nil (locals : List Local) : BindsBody scope locals [] [] locals
  | cons {locals next final : List Local} {stmt : Statement} {rest : List Statement}
      {op : BoundStatement.Op} {bound : List BoundStatement}
      (first : Binds scope locals stmt.kind op next)
      (others : BindsBody scope next rest bound final) :
      BindsBody scope locals (stmt :: rest) (⟨op, scope.unit.locate stmt.start⟩ :: bound) final

theorem binds_body {scope : Scope} {locals : List Local} {body : List Statement}
    (h : Clean (bindBody scope locals body).2.2) :
    BindsBody scope locals body (bindBody scope locals body).1
      (bindBody scope locals body).2.1 := by
  induction body generalizing locals with
  | nil => exact .nil locals
  | cons stmt rest ih =>
    obtain ⟨hfirst, hrest⟩ := clean_append.mp h
    obtain ⟨op, hop, hbinds⟩ := binds_statement hfirst
    have hbody := BindsBody.cons hbinds (ih hrest)
    simp only [bindBody, hop]
    exact hbody

/-- A statement declares at most one local, and never takes one away. -/
theorem Binds.length_le {scope : Scope} {locals next : List Local} {kind : Statement.Kind}
    {op : BoundStatement.Op} (h : Binds scope locals kind op next) :
    locals.length ≤ next.length := by
  cases h <;> simp

/-- Locals are never taken away. -/
theorem BindsBody.length_le {scope : Scope} {locals final : List Local} {body : List Statement}
    {bound : List BoundStatement} (h : BindsBody scope locals body bound final) :
    locals.length ≤ final.length := by
  induction h with
  | nil => exact Nat.le_refl _
  | cons first _ ih => exact Nat.le_trans first.length_le ih

/-! ## Classes -/

/-- What the classes of a script may refer to, if `classes` are the classes of all scripts. -/
def scopeOf (references : References) (classes : List String) (unit : ScriptUnit) : Scope :=
  { references, used := usedModules references unit.uses, classes, unit }

theorem bindUnit_eq (references : References) (classes : List String) (unit : ScriptUnit)
    (index : Nat) :
    bindUnit references classes unit index =
      ((unit.classes.map (bindClass (scopeOf references classes unit) index)).filterMap Prod.fst,
        useFindings references unit ++
          (unit.classes.map (bindClass (scopeOf references classes unit) index)).flatMap
            Prod.snd) := rfl

/-- A class is bound with a slot for each local of its body. -/
structure BindsClass (scope : Scope) (declaration : ClassDeclaration) (current : BoundClass) :
    Prop where
  name : current.name = declaration.name
  body : ∃ locals, BindsBody scope [] declaration.body current.body locals ∧
    current.slotCount = locals.length

theorem binds_class {scope : Scope} {unit : Nat} {declaration : ClassDeclaration}
    (h : Clean (bindClass scope unit declaration).2) :
    ∃ current, (bindClass scope unit declaration).1 = some current ∧
      BindsClass scope declaration current := by
  unfold bindClass at h ⊢
  cases hbase : resolve scope.references scope.used declaration.base with
  | error problem =>
    simp only [hbase] at h
    exact absurd h (not_clean_of_mem List.mem_cons_self (isError_of_resolve hbase))
  | ok base =>
    simp only [hbase] at h
    exact ⟨_, rfl, rfl, _, binds_body (clean_append.mp h).1, rfl⟩

/-- What binding makes of each class by itself, it makes of the classes of a script in order. -/
theorem forall₂_bindClasses {scope : Scope} {unit : Nat}
    {related : ClassDeclaration → BoundClass → Prop}
    (hrelated : ∀ declaration, Clean (bindClass scope unit declaration).2 →
      ∃ current, (bindClass scope unit declaration).1 = some current ∧
        related declaration current)
    {classes : List ClassDeclaration}
    (h : Clean ((classes.map (bindClass scope unit)).flatMap Prod.snd)) :
    List.Forall₂ related classes ((classes.map (bindClass scope unit)).filterMap Prod.fst) := by
  induction classes with
  | nil => exact .nil
  | cons declaration rest ih =>
    obtain ⟨hfirst, hrest⟩ := clean_append.mp h
    obtain ⟨current, hcurrent, hfirst⟩ := hrelated declaration hfirst
    rw [List.map_cons, List.filterMap_cons_some hcurrent]
    exact .cons hfirst (ih hrest)

/-! ## Modules -/

/-- Where no duplicate is reported, names are distinct and new. -/
theorem nodup_of_duplicateFindings {seen : List String} {declared : List (String × Location)}
    (h : Clean (duplicateFindings seen declared)) :
    (declared.map Prod.fst).Nodup ∧ ∀ name ∈ declared.map Prod.fst, name ∉ seen := by
  induction declared generalizing seen with
  | nil => simp
  | cons first rest ih =>
    rcases first with ⟨name, location⟩
    rw [duplicateFindings] at h
    by_cases hseen : seen.contains name
    · rw [if_pos hseen] at h
      exact absurd h (not_clean_of_mem List.mem_cons_self rfl)
    · rw [if_neg hseen] at h
      obtain ⟨hnodup, hfresh⟩ := ih h
      rw [List.contains_iff_mem] at hseen
      rw [List.map_cons, List.nodup_cons]
      refine ⟨⟨fun hmem ↦ hfresh name hmem List.mem_cons_self, hnodup⟩, fun other hother ↦ ?_⟩
      rcases List.mem_cons.mp hother with rfl | hother
      · exact hseen
      · exact fun hmem ↦ hfresh other hother (List.mem_cons_of_mem _ hmem)

/-- Every class of some scripts, with its script and the number of that script, which is `start` for
the first one. -/
def numberedDeclarations (units : List ScriptUnit) (start : Nat) :
    List (ScriptUnit × Nat × ClassDeclaration) :=
  (units.zipIdx start).flatMap fun (unit, index) ↦
    unit.classes.map fun declaration ↦ (unit, index, declaration)

theorem map_numberedDeclarations (units : List ScriptUnit) (start : Nat) :
    ((numberedDeclarations units start).map fun entry ↦ (entry.1, entry.2.2)) =
      declarations units := by
  have hunits : (units.zipIdx start).flatMap (fun entry ↦
      entry.1.classes.map fun declaration ↦ (entry.1, declaration)) = declarations units := by
    rw [declarations, ← List.zipIdx_map_fst start units, List.flatMap_map, List.zipIdx_map_fst]
  rw [numberedDeclarations, List.map_flatMap, ← hunits]
  simp only [List.map_map]
  rfl

theorem forall₂_bindUnits {references : References} {classes : List String}
    {related : ScriptUnit × Nat × ClassDeclaration → BoundClass → Prop}
    (hrelated : ∀ unit index declaration,
      Clean (bindClass (scopeOf references classes unit) index declaration).2 →
      ∃ current, (bindClass (scopeOf references classes unit) index declaration).1 = some current ∧
        related (unit, index, declaration) current)
    {units : List ScriptUnit} {start : Nat}
    (h : Clean (((units.zipIdx start).map fun (unit, index) ↦
      bindUnit references classes unit index).flatMap Prod.snd)) :
    List.Forall₂ related (numberedDeclarations units start)
      (((units.zipIdx start).map fun (unit, index) ↦
        bindUnit references classes unit index).flatMap Prod.fst) := by
  induction units generalizing start with
  | nil => exact .nil
  | cons unit rest ih =>
    obtain ⟨hfirst, hrest⟩ := clean_append.mp h
    have hclasses : List.Forall₂ related
        (unit.classes.map fun declaration ↦ (unit, start, declaration))
        (bindUnit references classes unit start).1 :=
      List.forall₂_map_left_iff.mpr
        (forall₂_bindClasses (hrelated unit start) (clean_append.mp hfirst).2)
    exact List.rel_append hclasses (ih hrest)

theorem map_fst_declaredClasses (units : List ScriptUnit) :
    (declaredClasses units).map Prod.fst =
      (declarations units).map fun declaration ↦ declaration.2.name := by
  simp only [declaredClasses, declarations, List.map_flatMap, List.map_map]
  rfl

/-- Binding gives a module if and only if it finds no error. -/
theorem bind_eq_ok_iff {units : List ScriptUnit} {references : References}
    {module : BoundModule} :
    bind units references = .ok module ↔ Clean (survey units references).2 ∧
      module = ⟨(survey units references).1,
        (survey units references).2.map Finding.diagnostic⟩ := by
  have hclean : ((survey units references).2.filter Finding.isError).isEmpty = true ↔
      Clean (survey units references).2 := by
    rw [List.isEmpty_iff, List.filter_eq_nil_iff]
    simp only [Clean, Bool.not_eq_true]
  unfold bind
  simp only
  split
  · rename_i hempty
    rw [Except.ok.injEq]
    exact ⟨fun h ↦ ⟨hclean.mp hempty, h.symm⟩, fun h ↦ h.2.symm⟩
  · rename_i hfound
    exact ⟨fun h ↦ by contradiction, fun h ↦ absurd (hclean.mpr h.1) hfound⟩

/-- The classes of a bound module are what binding makes of each class of the scripts, with the
number of its script. -/
theorem forall₂_numbered_of_bind {units : List ScriptUnit} {references : References}
    {related : ScriptUnit × Nat × ClassDeclaration → BoundClass → Prop}
    (hrelated : ∀ unit index declaration,
      Clean (bindClass (scopeOf references
        ((declarations units).map fun declaration ↦ declaration.2.name) unit) index
          declaration).2 →
      ∃ current, (bindClass (scopeOf references
          ((declarations units).map fun declaration ↦ declaration.2.name) unit) index
            declaration).1 = some current ∧
        related (unit, index, declaration) current)
    {module : BoundModule} (h : bind units references = .ok module) :
    List.Forall₂ related (numberedDeclarations units 0) module.classes := by
  obtain ⟨hclean, rfl⟩ := bind_eq_ok_iff.mp h
  rw [← map_fst_declaredClasses] at hrelated
  exact forall₂_bindUnits hrelated (clean_append.mp hclean).2

theorem forall₂_of_bind {units : List ScriptUnit} {references : References}
    {related : ScriptUnit × ClassDeclaration → BoundClass → Prop}
    (hrelated : ∀ unit index declaration,
      Clean (bindClass (scopeOf references
        ((declarations units).map fun declaration ↦ declaration.2.name) unit) index
          declaration).2 →
      ∃ current, (bindClass (scopeOf references
          ((declarations units).map fun declaration ↦ declaration.2.name) unit) index
            declaration).1 = some current ∧
        related (unit, declaration) current)
    {module : BoundModule} (h : bind units references = .ok module) :
    List.Forall₂ related (declarations units) module.classes := by
  rw [← map_numberedDeclarations units 0, List.forall₂_map_left_iff]
  exact forall₂_numbered_of_bind hrelated h

/-- The classes of a bound module are those of the scripts, each with a name of its own. -/
theorem binds_of_bind {units : List ScriptUnit} {references : References} {module : BoundModule}
    (h : bind units references = .ok module) :
    ((declarations units).map fun declaration ↦ declaration.2.name).Nodup ∧
      List.Forall₂ (fun declaration current ↦
          BindsClass (scopeOf references
            ((declarations units).map fun declaration ↦ declaration.2.name) declaration.1)
            declaration.2 current)
        (declarations units) module.classes := by
  obtain ⟨hclean, _⟩ := bind_eq_ok_iff.mp h
  have hdeclared := nodup_of_duplicateFindings (clean_append.mp hclean).1
  rw [map_fst_declaredClasses] at hdeclared
  exact ⟨hdeclared.1, forall₂_of_bind (fun _ _ _ ↦ binds_class) h⟩

end PageScript.Binding
