import PageScript.Proofs.Binding.Judgement
import PageScript.Proofs.Script.Grammar

/-!
# Binding without places

Where the parts of a script stand, which file it was read from and which lines it was generated from
decides nothing but the places in what binding gives. Forgetting places and then binding is the same
as binding and then forgetting places, statement by statement and so for whole scripts.
-/

namespace PageScript

open Script

/-! ## Forgetting places -/

/-- What remains of every place. -/
def Location.nowhere : Location := ⟨"", 1, 1⟩

/-- A script without path, positions and line map. -/
def Script.ScriptUnit.unplaced (unit : ScriptUnit) : ScriptUnit where
  path := ""
  items := unit.items.map Item.unplaced
  lineMap := .empty

def BoundStatement.unplaced (stmt : BoundStatement) : BoundStatement :=
  { stmt with location := .nowhere }

def BoundClass.unplaced (current : BoundClass) : BoundClass :=
  { current with body := current.body.map BoundStatement.unplaced }

namespace Binding

def Finding.unplaced (finding : Finding) : Finding := { finding with location := .nowhere }

def Local.unplaced (entry : Local) : Local := { entry with declaredAt := .nowhere }

def Scope.unplaced (scope : Scope) : Scope := { scope with unit := scope.unit.unplaced }

def Step.unplaced (step : Step) : Step where
  locals := step.locals.map Local.unplaced
  op := step.op
  findings := step.findings.map Finding.unplaced

theorem uses_unplaced (unit : ScriptUnit) :
    unit.unplaced.uses = unit.uses.map QualifiedName.unplaced := by
  rw [ScriptUnit.uses, ScriptUnit.uses, ScriptUnit.unplaced, List.filterMap_map,
    List.map_filterMap]
  apply List.filterMap_congr
  intro item _
  cases item <;> rfl

theorem classes_unplaced (unit : ScriptUnit) :
    unit.unplaced.classes = unit.classes.map ClassDeclaration.unplaced := by
  rw [ScriptUnit.classes, ScriptUnit.classes, ScriptUnit.unplaced, List.filterMap_map,
    List.map_filterMap]
  apply List.filterMap_congr
  intro item _
  cases item <;> rfl

/-- Whether a finding is an error does not depend on where it is. -/
theorem clean_map_unplaced {findings : List Finding} :
    Clean (findings.map Finding.unplaced) ↔ Clean findings := List.forall_mem_map

/-! ## Class bodies -/

/-- Slots are found by name. -/
theorem slotOf_unplaced (locals : List Local) (name : String) :
    slotOf (locals.map Local.unplaced) name = slotOf locals name := List.findIdx?_map

/-- Creating a component is judged by names and types only. -/
theorem bindCreate_unplaced (scope : Scope) (locals : List Local) (location : Location)
    (name : String) (type : QualifiedName) :
    bindCreate scope.unplaced (locals.map Local.unplaced) .nowhere name type.unplaced =
      (bindCreate scope locals location name type).unplaced := by
  have hresolve : resolve scope.unplaced.references scope.unplaced.used type.unplaced =
      resolve scope.references scope.used type := rfl
  have hplace : scope.unplaced.unit.locate type.unplaced.start = .nowhere := rfl
  unfold bindCreate
  rw [hresolve, slotOf_unplaced, hplace]
  cases hslot : slotOf locals name with
  | some slot =>
    cases resolve scope.references scope.used type with
    | ok found => simp [Step.unplaced, Finding.unplaced]
    | error problem => simp [Step.unplaced, Finding.unplaced]
  | none =>
    cases resolve scope.references scope.used type with
    | ok found => simp [Step.unplaced, Finding.unplaced, Local.unplaced]
    | error problem => simp [Step.unplaced, Finding.unplaced, Local.unplaced]

theorem assignProblems_unplaced (property : String) (target : Option Local) :
    assignProblems property (target.map Local.unplaced) = assignProblems property target := by
  cases target with
  | some entry => rfl
  | none => rfl

/-- A statement is bound to the same operation, with the same findings, wherever it stands. -/
theorem bindStatement_unplaced (scope : Scope) (locals : List Local) (stmt : Statement) :
    bindStatement scope.unplaced (locals.map Local.unplaced) stmt.unplaced =
      (bindStatement scope locals stmt).unplaced := by
  rcases stmt with ⟨kind, start⟩
  cases kind with
  | write text => rfl
  | create name type => exact bindCreate_unplaced scope locals _ name type
  | assign target property value =>
    simp only [bindStatement, Statement.unplaced, Statement.Kind.unplaced, slotOf_unplaced]
    cases slotOf locals target with
    | some slot =>
      simp only [List.getElem?_map, assignProblems_unplaced, Step.unplaced, List.map_map]
      rfl
    | none => rfl
  | render name =>
    simp only [bindStatement, Statement.unplaced, Statement.Kind.unplaced, slotOf_unplaced]
    cases slotOf locals name with
    | some slot => rfl
    | none => rfl
  | embed className =>
    simp only [bindStatement, Statement.unplaced, Statement.Kind.unplaced]
    by_cases hclass : scope.classes.contains className = true
    · have hsame : scope.unplaced.classes.contains className = true := hclass
      rw [if_pos hclass, if_pos hsame]
      rfl
    · have hsame : ¬scope.unplaced.classes.contains className = true := hclass
      rw [if_neg hclass, if_neg hsame]
      rfl

/-- The locals decide what the rest of a body is bound to, the places in them do not. -/
theorem bindBody_unplaced (scope : Scope) (locals : List Local) (body : List Statement) :
    bindBody scope.unplaced (locals.map Local.unplaced) (body.map Statement.unplaced) =
      ((bindBody scope locals body).1.map BoundStatement.unplaced,
        (bindBody scope locals body).2.1.map Local.unplaced,
        (bindBody scope locals body).2.2.map Finding.unplaced) := by
  induction body generalizing locals with
  | nil => rfl
  | cons stmt rest ih =>
    have hstep := bindStatement_unplaced scope locals stmt
    simp only [List.map_cons, bindBody, hstep, Step.unplaced, ih, List.map_append, List.map_map]
    rfl

theorem renderedNames_unplaced (body : List Statement) :
    renderedNames (body.map Statement.unplaced) = renderedNames body := by
  rw [renderedNames, renderedNames, List.filterMap_map]
  apply List.filterMap_congr
  intro stmt _
  rcases stmt with ⟨kind, start⟩
  cases kind <;> rfl

/-- Locals that are never rendered are reported by name, in the order of their declarations. -/
theorem renderFindings_unplaced (body : List Statement) (locals : List Local) :
    renderFindings (body.map Statement.unplaced) (locals.map Local.unplaced) =
      (renderFindings body locals).map Finding.unplaced := by
  simp only [renderFindings, renderedNames_unplaced, List.filter_map, List.map_map]
  rfl

/-! ## Classes and scripts -/

/-- A class and what is found in it do not depend on where it is written. -/
theorem bindClass_unplaced (scope : Scope) (unit : Nat) (declaration : ClassDeclaration) :
    bindClass scope.unplaced unit declaration.unplaced =
      ((bindClass scope unit declaration).1.map BoundClass.unplaced,
        (bindClass scope unit declaration).2.map Finding.unplaced) := by
  have hresolve : resolve scope.unplaced.references scope.unplaced.used declaration.unplaced.base =
      resolve scope.references scope.used declaration.base := rfl
  have hbody := bindBody_unplaced scope [] declaration.body
  rw [List.map_nil] at hbody
  simp only [bindClass, hresolve]
  rw [show declaration.unplaced.body = declaration.body.map Statement.unplaced from rfl, hbody]
  simp only [renderFindings_unplaced, ← List.map_append]
  cases resolve scope.references scope.used declaration.base with
  | ok base => simp [BoundClass.unplaced, ClassDeclaration.unplaced]
  | error problem => rfl

/-- Of two classes with one name the later is reported, by the order of the scripts and not by their
lines. -/
theorem duplicateFindings_unplaced (seen : List String) (declared : List (String × Location)) :
    duplicateFindings seen (declared.map fun entry ↦ (entry.1, .nowhere)) =
      (duplicateFindings seen declared).map Finding.unplaced := by
  induction declared generalizing seen with
  | nil => rfl
  | cons entry rest ih =>
    rcases entry with ⟨name, location⟩
    simp only [List.map_cons, duplicateFindings]
    split
    · rw [ih, List.map_cons]
      rfl
    · exact ih _

theorem declaredClasses_unplaced (units : List ScriptUnit) :
    declaredClasses (units.map ScriptUnit.unplaced) =
      (declaredClasses units).map fun entry ↦ (entry.1, .nowhere) := by
  simp only [declaredClasses, List.flatMap_map, List.map_flatMap, classes_unplaced, List.map_map]
  rfl

theorem useFindings_unplaced (references : References) (unit : ScriptUnit) :
    useFindings references unit.unplaced = (useFindings references unit).map Finding.unplaced := by
  simp only [useFindings, uses_unplaced, List.filter_map, List.map_map]
  rfl

theorem usedModules_unplaced (references : References) (uses : List QualifiedName) :
    usedModules references (uses.map QualifiedName.unplaced) = usedModules references uses :=
  List.foldl_map

theorem scopeOf_unplaced (references : References) (classes : List String) (unit : ScriptUnit) :
    scopeOf references classes unit.unplaced = (scopeOf references classes unit).unplaced := by
  rw [scopeOf, uses_unplaced, usedModules_unplaced]
  rfl

/-- A script and what is found in it do not depend on where its parts are written. -/
theorem bindUnit_unplaced (references : References) (classes : List String) (unit : ScriptUnit)
    (index : Nat) :
    bindUnit references classes unit.unplaced index =
      ((bindUnit references classes unit index).1.map BoundClass.unplaced,
        (bindUnit references classes unit index).2.map Finding.unplaced) := by
  have hclasses : unit.unplaced.classes.map
        (bindClass (scopeOf references classes unit.unplaced) index) =
      (unit.classes.map (bindClass (scopeOf references classes unit) index)).map fun result ↦
        (result.1.map BoundClass.unplaced, result.2.map Finding.unplaced) := by
    rw [classes_unplaced, scopeOf_unplaced, List.map_map, List.map_map]
    apply List.map_congr_left
    intro declaration _
    exact bindClass_unplaced _ index declaration
  rw [bindUnit_eq, bindUnit_eq, hclasses, useFindings_unplaced, List.filterMap_map,
    List.flatMap_map, List.map_filterMap, List.map_append, List.map_flatMap]
  rfl

/-- All that binding finds in scripts and makes of them is the same up to places. -/
theorem survey_unplaced (units : List ScriptUnit) (references : References) :
    survey (units.map ScriptUnit.unplaced) references =
      ((survey units references).1.map BoundClass.unplaced,
        (survey units references).2.map Finding.unplaced) := by
  have hnames : ((declaredClasses units).map fun entry ↦ (entry.1, Location.nowhere)).map Prod.fst =
      (declaredClasses units).map Prod.fst := by
    rw [List.map_map]
    rfl
  simp only [survey, declaredClasses_unplaced, duplicateFindings_unplaced, hnames,
    List.zipIdx_map, List.map_map, List.flatMap_map, List.map_flatMap, List.map_append,
    Function.comp_def, Prod.map, bindUnit_unplaced, id_eq]

/-- Scripts that differ in places only are both bound or both refused, to classes that differ in
places only. -/
theorem bind_of_unplaced_eq {units others : List ScriptUnit}
    (h : units.map ScriptUnit.unplaced = others.map ScriptUnit.unplaced) {references : References}
    {module : BoundModule} (hbind : bind units references = .ok module) :
    ∃ other, bind others references = .ok other ∧
      other.classes.map BoundClass.unplaced = module.classes.map BoundClass.unplaced := by
  obtain ⟨hclean, rfl⟩ := bind_eq_ok_iff.mp hbind
  have hsame := (survey_unplaced others references).symm.trans
    ((congrArg (survey · references) h.symm).trans (survey_unplaced units references))
  obtain ⟨hclasses, hfindings⟩ := Prod.mk.inj hsame
  have hothers : Clean (survey others references).2 := by
    rw [← clean_map_unplaced, hfindings, clean_map_unplaced]
    exact hclean
  exact ⟨_, bind_eq_ok_iff.mpr ⟨hothers, rfl⟩, hclasses⟩

end Binding

end PageScript
