import PageScript.Proofs.Binding.Shape

/-!
# Binding in any order

Neither the order of the modules that scripts may refer to nor the order of their `use` declarations
matters to binding, and no `use` counts twice. A rearranged script is bound to the same module, or
the same problems are found at the same places; only the words about an ambiguous name and the order
of the problems tell the difference.
-/

namespace PageScript

open Script

/-- What a diagnostic is about, in whatever words it says so. -/
def Diagnostic.mark (diagnostic : Diagnostic) : String × Option Location :=
  (diagnostic.id, diagnostic.location)

namespace Script.ScriptUnit

/-- A declaration says once more what another one has said, of a module that there is. -/
def Repeats (references : References) (earlier : List QualifiedName) (use : QualifiedName) : Prop :=
  (∃ other ∈ earlier, other.text = use.text) ∧ ∃ module ∈ references, module.name = use.text

/-- The other script has the same classes at the same places, and the same `use` declarations in
another order and in front of other classes, some of them repeated. -/
structure Rearranges (references : References) (unit other : ScriptUnit) : Prop where
  path : other.path = unit.path
  lineMap : other.lineMap = unit.lineMap
  classes : other.classes = unit.classes
  uses : ∃ repeated, other.uses.Perm (unit.uses ++ repeated) ∧
    ∀ use ∈ repeated, Repeats references unit.uses use

/-- The script with one more `use` declaration behind so many of its items. -/
def insertUse (unit : ScriptUnit) (place : Nat) (use : QualifiedName) : ScriptUnit :=
  { unit with items := unit.items.take place ++ .uses use :: unit.items.drop place }

end Script.ScriptUnit

namespace Binding

/-- Binding gives the same module twice, or it finds the same problems at the same places. -/
inductive SameVerdict :
    Except (List Diagnostic) BoundModule → Except (List Diagnostic) BoundModule → Prop
  | bound (module : BoundModule) : SameVerdict (.ok module) (.ok module)
  | refused {errors others : List Diagnostic}
      (h : (errors.map Diagnostic.mark).Perm (others.map Diagnostic.mark)) :
      SameVerdict (.error errors) (.error others)

/-! ## Findings -/

/-- The same warnings in the same order, and errors about the same things in any order. -/
structure Matching (findings others : List Finding) : Prop where
  errors : ((findings.filter Finding.isError).map (Diagnostic.mark ∘ Finding.diagnostic)).Perm
    ((others.filter Finding.isError).map (Diagnostic.mark ∘ Finding.diagnostic))
  warnings : (findings.filter fun finding ↦ !finding.isError) =
    others.filter fun finding ↦ !finding.isError

theorem Matching.refl (findings : List Finding) : Matching findings findings :=
  ⟨List.Perm.refl _, rfl⟩

/-- Findings match if they match part by part. -/
theorem Matching.append {findings others more rest : List Finding} (h : Matching findings others)
    (hmore : Matching more rest) : Matching (findings ++ more) (others ++ rest) where
  errors := by
    simp only [List.filter_append, List.map_append]
    exact h.errors.append hmore.errors
  warnings := by
    simp only [List.filter_append]
    exact congrArg₂ (· ++ ·) h.warnings hmore.warnings

/-- Errors may come in any order. -/
theorem matching_of_perm {findings others : List Finding} (h : findings.Perm others)
    (herrors : ∀ finding ∈ findings, finding.isError = true) : Matching findings others where
  errors := (h.filter _).map _
  warnings := by
    have hnone (list : List Finding) (hlist : ∀ finding ∈ list, finding.isError = true) :
        (list.filter fun finding ↦ !finding.isError) = [] := by
      apply List.filter_eq_nil_iff.mpr
      intro finding hfinding
      simp [hlist finding hfinding]
    rw [hnone findings herrors, hnone others]
    intro finding hfinding
    exact herrors finding (h.mem_iff.mpr hfinding)

/-- Two errors of one kind at one place match. -/
theorem matching_singleton {finding other : Finding} (hfinding : finding.isError = true)
    (hother : other.isError = true) (hid : finding.problem.id = other.problem.id)
    (hlocation : finding.location = other.location) : Matching [finding] [other] where
  errors := by
    have hmark : Diagnostic.mark finding.diagnostic = Diagnostic.mark other.diagnostic := by
      simp only [Diagnostic.mark, Finding.diagnostic, hid, hlocation]
    simp [hfinding, hother, hmark]
  warnings := by simp [hfinding, hother]

theorem matching_flatMap {α : Type} {findings others : α → List Finding} (items : List α)
    (h : ∀ item ∈ items, Matching (findings item) (others item)) :
    Matching (items.flatMap findings) (items.flatMap others) := by
  induction items with
  | nil => exact .refl []
  | cons item rest ih =>
    rw [List.flatMap_cons, List.flatMap_cons]
    apply (h item List.mem_cons_self).append
    apply ih
    intro other hother
    exact h other (List.mem_cons_of_mem _ hother)

/-- Findings that match have errors on both sides or on neither. -/
theorem Matching.clean_iff {findings others : List Finding} (h : Matching findings others) :
    Clean findings ↔ Clean others := by
  have hnil (list : List Finding) : Clean list ↔ (list.filter Finding.isError).length = 0 := by
    rw [List.length_eq_zero_iff, List.filter_eq_nil_iff]
    simp only [Clean, Bool.not_eq_true]
  have hlength := h.errors.length_eq
  rw [List.length_map, List.length_map] at hlength
  rw [hnil, hnil, hlength]

/-- Without errors, findings that match are equal, in order. -/
theorem Matching.eq_of_clean {findings others : List Finding} (h : Matching findings others)
    (hclean : Clean findings) : findings = others := by
  have hall (list : List Finding) (hlist : Clean list) :
      (list.filter fun finding ↦ !finding.isError) = list := by
    apply List.filter_eq_self.mpr
    intro finding hfinding
    rw [hlist finding hfinding]
    rfl
  calc
    findings = findings.filter fun finding ↦ !finding.isError := (hall _ hclean).symm
    _ = others.filter fun finding ↦ !finding.isError := h.warnings
    _ = others := hall _ (h.clean_iff.mp hclean)

/-! ## Names of types -/

/-- Two attempts to resolve a name come to the same type, or to problems of the same kind. -/
inductive SameType {α : Type} : Except Problem α → Except Problem α → Prop
  | found (type : α) : SameType (.ok type) (.ok type)
  | missing {problem other : Problem} (h : problem.id = other.id) :
      SameType (.error problem) (.error other)

theorem SameType.refl {α : Type} (result : Except Problem α) : SameType result result := by
  cases result with
  | ok type => exact .found type
  | error problem => exact .missing rfl

/-- With no two modules of one name, it does not matter in which order they are looked through. -/
theorem find_of_perm {references permuted : References}
    (hnames : (references.map ModuleSymbols.name).Nodup) (h : permuted.Perm references)
    (name : String) : permuted.find name = references.find name := by
  apply Option.ext
  intro module
  rw [References.find, References.find, find?_eq_some_iff_of_nodup hnames,
    find?_eq_some_iff_of_nodup ((h.map ModuleSymbols.name).nodup_iff.mpr hnames), h.mem_iff]

/-- A repeated declaration names a module that is there. -/
theorem find_of_repeats {references : References} {earlier : List QualifiedName}
    {use : QualifiedName} (h : ScriptUnit.Repeats references earlier use) :
    ∃ module, references.find use.text = some module := by
  obtain ⟨module, hmodule, hname⟩ := h.2
  apply Option.isSome_iff_exists.mp
  rw [References.find, List.find?_isSome]
  exact ⟨module, hmodule, decide_eq_true hname⟩

section

variable {references permuted : References}

/-- The order of the declarations decides nothing but the order of the used modules. -/
theorem usedModules_perm (hfind : ∀ name, permuted.find name = references.find name)
    {uses others repeated : List QualifiedName} (hperm : others.Perm (uses ++ repeated))
    (hrepeated : ∀ use ∈ repeated, ScriptUnit.Repeats references uses use) :
    (usedModules permuted others).Perm (usedModules references uses) := by
  apply (List.perm_ext_iff_of_nodup (nodup_usedModules _ _) (nodup_usedModules _ _)).mpr
  intro module
  simp only [mem_usedModules, hfind, hperm.mem_iff, List.mem_append]
  constructor
  · intro h
    obtain ⟨use, huse | huse, hmodule⟩ := h
    · exact ⟨use, huse, hmodule⟩
    · obtain ⟨other, hother, htext⟩ := (hrepeated use huse).1
      exact ⟨other, hother, htext ▸ hmodule⟩
  · intro h
    obtain ⟨use, huse, hmodule⟩ := h
    exact ⟨use, .inl huse, hmodule⟩

/-- The order of the modules is the order of the candidates, and nothing else. -/
theorem candidates_perm {used others : List ModuleSymbols} (h : others.Perm used) (name : String) :
    (candidates others name).Perm (candidates used name) := h.filterMap _

/-- Whether one, none or several of the used modules have a type does not depend on their order. -/
theorem resolve_perm (hfind : ∀ name, permuted.find name = references.find name)
    {used others : List ModuleSymbols} (hused : others.Perm used) (name : QualifiedName) :
    SameType (resolve references used name) (resolve permuted others name) := by
  unfold resolve
  cases hqualifier : name.qualifier? with
  | some qualifier =>
    simp only [hfind]
    exact SameType.refl _
  | none =>
    have hperm := candidates_perm hused name.name
    rw [candidates, candidates] at hperm
    simp only
    generalize (used.filterMap fun module ↦ (module.types.get? name.name).map fun symbol ↦
      (module.name, symbol)) = first at hperm ⊢
    generalize (others.filterMap fun module ↦ (module.types.get? name.name).map fun symbol ↦
      (module.name, symbol)) = second at hperm ⊢
    cases first with
    | nil =>
      rw [hperm.eq_nil]
      exact .missing rfl
    | cons one rest =>
      cases rest with
      | nil =>
        rw [hperm.eq_singleton]
        exact .found _
      | cons two rest =>
        have hlength := hperm.length_eq
        rcases second with _ | ⟨three, _ | ⟨four, more⟩⟩
        · contradiction
        · simp at hlength
        · exact .missing rfl

end

/-! ## Statements -/

/-- Two classes may refer to the same things, and their statements stand at the same places. -/
structure Scope.Alike (scope other : Scope) : Prop where
  types : ∀ name, SameType (resolve scope.references scope.used name)
    (resolve other.references other.used name)
  classes : other.classes = scope.classes
  places : ∀ position, other.unit.locate position = scope.unit.locate position

/-- Two steps do the same and have found the same. -/
structure Step.Alike (step other : Step) : Prop where
  locals : other.locals = step.locals
  op : other.op = step.op
  findings : Matching step.findings other.findings

theorem Step.Alike.refl (step : Step) : step.Alike step := ⟨rfl, rfl, .refl _⟩

section

variable {scope other : Scope}

/-- An ambiguous name is reported in both orders, with the candidates in another order at most. -/
theorem alike_bindCreate (h : scope.Alike other) (locals : List Local) (location : Location)
    (name : String) (type : QualifiedName) :
    (bindCreate scope locals location name type).Alike
      (bindCreate other locals location name type) := by
  have htype := h.types type
  unfold bindCreate
  rw [h.places]
  generalize hfirst : resolve scope.references scope.used type = first at htype ⊢
  generalize hsecond : resolve other.references other.used type = second at htype ⊢
  cases htype with
  | found type => exact .refl _
  | @missing problem problem' hid =>
    have hmissing : Matching [⟨problem, scope.unit.locate type.start⟩]
        [⟨problem', scope.unit.locate type.start⟩] :=
      matching_singleton (isError_of_resolve hfirst) (isError_of_resolve hsecond) hid rfl
    simp only [Except.toOption, Option.map_none]
    split
    · exact ⟨rfl, rfl, hmissing.append (.refl _)⟩
    · exact ⟨rfl, rfl, hmissing⟩

/-- Statements only ask for types, and types do not depend on the order of declarations. -/
theorem alike_bindStatement (h : scope.Alike other) (locals : List Local) (stmt : Statement) :
    (bindStatement scope locals stmt).Alike (bindStatement other locals stmt) := by
  unfold bindStatement
  rw [h.places, h.classes]
  cases stmt.kind with
  | create name type => exact alike_bindCreate h locals _ name type
  | _ => exact .refl _

/-- The statements of a body are bound one after the other, each over the same locals. -/
theorem matching_bindBody (h : scope.Alike other) (locals : List Local) (body : List Statement) :
    (bindBody other locals body).1 = (bindBody scope locals body).1 ∧
      (bindBody other locals body).2.1 = (bindBody scope locals body).2.1 ∧
      Matching (bindBody scope locals body).2.2 (bindBody other locals body).2.2 := by
  induction body generalizing locals with
  | nil => exact ⟨rfl, rfl, .refl []⟩
  | cons stmt rest ih =>
    have hstep := alike_bindStatement h locals stmt
    obtain ⟨hbound, hfinal, hfindings⟩ := ih (bindStatement scope locals stmt).locals
    simp only [bindBody, hstep.locals, hstep.op, h.places, hbound, hfinal]
    exact ⟨trivial, trivial, hstep.findings.append hfindings⟩

/-! ## Classes -/

/-- A class is bound alike, and what is found in it matches. -/
theorem matching_bindClass (h : scope.Alike other) (unit : Nat) (declaration : ClassDeclaration) :
    (bindClass other unit declaration).1 = (bindClass scope unit declaration).1 ∧
      Matching (bindClass scope unit declaration).2 (bindClass other unit declaration).2 := by
  obtain ⟨hbound, hfinal, hfindings⟩ := matching_bindBody h [] declaration.body
  have hbase := h.types declaration.base
  have hall := hfindings.append
    (.refl (renderFindings declaration.body (bindBody scope [] declaration.body).2.1))
  simp only [bindClass, hbound, hfinal, h.places]
  generalize hfirst : resolve scope.references scope.used declaration.base = first at hbase ⊢
  generalize hsecond : resolve other.references other.used declaration.base = second at hbase ⊢
  cases hbase with
  | found type => exact ⟨rfl, hall⟩
  | missing hid =>
    have hmissing := matching_singleton (isError_of_resolve hfirst) (isError_of_resolve hsecond) hid
      (rfl : scope.unit.locate declaration.base.start = _)
    exact ⟨rfl, hmissing.append hall⟩

end

/-! ## Scripts -/

section

variable {references permuted : References} {unit other : ScriptUnit}

/-- Lines of both scripts stand for the same lines of markup. -/
theorem locate_of_rearranges (h : unit.Rearranges references other) (position : Position) :
    other.locate position = unit.locate position := by
  rw [ScriptUnit.locate, ScriptUnit.locate, h.path, h.lineMap]

/-- The declarations of modules that there are not are reported in the order they stand in. -/
theorem matching_useFindings (hfind : ∀ name, permuted.find name = references.find name)
    (h : unit.Rearranges references other) :
    Matching (useFindings references unit) (useFindings permuted other) := by
  obtain ⟨repeated, hperm, hrepeated⟩ := h.uses
  have hnone : (repeated.filter fun use ↦ (references.find use.text).isNone) = [] := by
    apply List.filter_eq_nil_iff.mpr
    intro use huse
    obtain ⟨module, hmodule⟩ := find_of_repeats (hrepeated use huse)
    simp [hmodule]
  apply matching_of_perm
  · simp only [useFindings, hfind, locate_of_rearranges h]
    apply List.Perm.symm
    apply List.Perm.map
    have hfilter := hperm.filter fun use ↦ (references.find use.text).isNone
    rwa [List.filter_append, hnone, List.append_nil] at hfilter
  · exact isError_of_mem_useFindings

theorem alike_scopeOf (hfind : ∀ name, permuted.find name = references.find name)
    (h : unit.Rearranges references other) (classes : List String) :
    (scopeOf references classes unit).Alike (scopeOf permuted classes other) where
  types name := by
    obtain ⟨repeated, hperm, hrepeated⟩ := h.uses
    exact resolve_perm hfind (usedModules_perm hfind hperm hrepeated) name
  classes := rfl
  places := locate_of_rearranges h

theorem matching_bindUnit (hfind : ∀ name, permuted.find name = references.find name)
    (h : unit.Rearranges references other) (classes : List String) (index : Nat) :
    (bindUnit permuted classes other index).1 = (bindUnit references classes unit index).1 ∧
      Matching (bindUnit references classes unit index).2
        (bindUnit permuted classes other index).2 := by
  have hclass := matching_bindClass (alike_scopeOf hfind h classes) index
  rw [bindUnit_eq, bindUnit_eq, h.classes]
  simp only [List.filterMap_map, List.flatMap_map]
  constructor
  · apply List.filterMap_congr
    intro declaration _
    exact (hclass declaration).1
  · apply (matching_useFindings hfind h).append
    apply matching_flatMap
    intro declaration _
    exact (hclass declaration).2

end

section

variable {references permuted : References} {units others : List ScriptUnit}

theorem declaredClasses_rearranged
    (h : List.Forall₂ (ScriptUnit.Rearranges references) units others) :
    declaredClasses others = declaredClasses units := by
  induction h with
  | nil => rfl
  | cons first _ ih =>
    simp only [declaredClasses, List.flatMap_cons] at ih ⊢
    simp only [ih, first.classes, locate_of_rearranges first]

/-- Scripts that are rearranged one by one are bound alike. -/
theorem matching_bindUnits (hfind : ∀ name, permuted.find name = references.find name)
    (h : List.Forall₂ (ScriptUnit.Rearranges references) units others) (classes : List String)
    (start : Nat) :
    ((others.zipIdx start).map fun (unit, index) ↦
        bindUnit permuted classes unit index).flatMap Prod.fst =
      ((units.zipIdx start).map fun (unit, index) ↦
        bindUnit references classes unit index).flatMap Prod.fst ∧
    Matching (((units.zipIdx start).map fun (unit, index) ↦
        bindUnit references classes unit index).flatMap Prod.snd)
      (((others.zipIdx start).map fun (unit, index) ↦
        bindUnit permuted classes unit index).flatMap Prod.snd) := by
  induction h generalizing start with
  | nil =>
    simp only [List.zipIdx_nil, List.map_nil, List.flatMap_nil]
    exact ⟨trivial, .refl []⟩
  | cons first _ ih =>
    obtain ⟨hclasses, hfindings⟩ := matching_bindUnit hfind first classes start
    obtain ⟨hrest, hmore⟩ := ih (start + 1)
    exact ⟨congrArg₂ (· ++ ·) hclasses hrest, hfindings.append hmore⟩

/-- Rearranging scripts and references does not change what is bound and found, but for its order.
-/
theorem matching_survey (hfind : ∀ name, permuted.find name = references.find name)
    (h : List.Forall₂ (ScriptUnit.Rearranges references) units others) :
    (survey others permuted).1 = (survey units references).1 ∧
      Matching (survey units references).2 (survey others permuted).2 := by
  obtain ⟨hclasses, hfindings⟩ :=
    matching_bindUnits hfind h ((declaredClasses units).map Prod.fst) 0
  simp only [survey, declaredClasses_rearranged h]
  exact ⟨hclasses, (Matching.refl _).append hfindings⟩

end

/-! ## Repeated declarations -/

section

variable {references : References}

/-- A module that is used already is not used again. -/
theorem addUsed_of_mem {modules : List ModuleSymbols} {module : ModuleSymbols}
    (hmem : module ∈ modules) {use : QualifiedName}
    (hfind : references.find use.text = some module) :
    addUsed references modules use = modules := by
  have hany : modules.any (·.name = module.name) = true :=
    List.any_eq_true.mpr ⟨module, hmem, decide_eq_true rfl⟩
  simp only [addUsed, hfind, hany, if_true]

/-- A repeated declaration uses no more modules. -/
theorem usedModules_repeated {front : List QualifiedName} {use : QualifiedName}
    (h : ScriptUnit.Repeats references front use) (back : List QualifiedName) :
    usedModules references (front ++ use :: back) = usedModules references (front ++ back) := by
  obtain ⟨module, hmodule⟩ := find_of_repeats h
  obtain ⟨other, hother, htext⟩ := h.1
  have hmem : module ∈ front.foldl (addUsed references) [] :=
    mem_usedModules.mpr ⟨other, hother, htext ▸ hmodule⟩
  rw [usedModules_eq, usedModules_eq, List.foldl_append, List.foldl_append, List.foldl_cons,
    addUsed_of_mem hmem hmodule]

/-- Of its script, a body only needs to know where its statements stand. -/
theorem bindBody_withItems (scope : Scope) (items : List Item) (locals : List Local)
    (body : List Statement) :
    bindBody { scope with unit := { scope.unit with items } } locals body =
      bindBody scope locals body := by
  induction body generalizing locals with
  | nil => rfl
  | cons stmt rest ih =>
    have hstep : bindStatement { scope with unit := { scope.unit with items } } locals stmt =
        bindStatement scope locals stmt := rfl
    simp only [bindBody, hstep, ih]
    rfl

theorem bindClass_withItems (scope : Scope) (items : List Item) (unit : Nat)
    (declaration : ClassDeclaration) :
    bindClass { scope with unit := { scope.unit with items } } unit declaration =
      bindClass scope unit declaration := by
  simp only [bindClass, bindBody_withItems]
  rfl

theorem uses_insertUse (unit : ScriptUnit) (place : Nat) (use : QualifiedName) :
    (unit.insertUse place use).uses = (unit.items.take place).filterMap Item.uses? ++
      use :: (unit.items.drop place).filterMap Item.uses? := by
  rw [ScriptUnit.uses, ScriptUnit.insertUse, List.filterMap_append,
    List.filterMap_cons_some (rfl : Item.uses? (.uses use) = some use)]

theorem classes_insertUse (unit : ScriptUnit) (place : Nat) (use : QualifiedName) :
    (unit.insertUse place use).classes = unit.classes := by
  rw [ScriptUnit.classes, ScriptUnit.insertUse, List.filterMap_append,
    List.filterMap_cons_none (rfl : Item.class? (.uses use) = none), ← List.filterMap_append,
    List.take_append_drop, ScriptUnit.classes]

/-- A declaration that repeats an earlier one is of no consequence. -/
theorem bindUnit_insertUse {unit : ScriptUnit} {place : Nat} {use : QualifiedName}
    (h : ScriptUnit.Repeats references ((unit.items.take place).filterMap Item.uses?) use)
    (classes : List String) (index : Nat) :
    bindUnit references classes (unit.insertUse place use) index =
      bindUnit references classes unit index := by
  have huses : unit.uses = (unit.items.take place).filterMap Item.uses? ++
      (unit.items.drop place).filterMap Item.uses? := by
    rw [← List.filterMap_append, List.take_append_drop, ScriptUnit.uses]
  obtain ⟨module, hmodule⟩ := find_of_repeats h
  have hfindings : useFindings references (unit.insertUse place use) =
      useFindings references unit := by
    rw [useFindings, useFindings, uses_insertUse, huses, List.filter_append, List.filter_append,
      List.filter_cons_of_neg (by simp [hmodule])]
    rfl
  have hused : usedModules references (unit.insertUse place use).uses =
      usedModules references unit.uses := by
    rw [uses_insertUse, huses, usedModules_repeated h]
  have hclass : bindClass (scopeOf references classes (unit.insertUse place use)) index =
      bindClass (scopeOf references classes unit) index := by
    funext declaration
    rw [scopeOf, hused]
    exact bindClass_withItems (scopeOf references classes unit) _ index declaration
  rw [bindUnit_eq, bindUnit_eq, hclass, hfindings, classes_insertUse]

/-- A repeated declaration changes nothing for the scripts before and behind. -/
theorem survey_insertUse {unit : ScriptUnit} {place : Nat} {use : QualifiedName}
    (h : ScriptUnit.Repeats references ((unit.items.take place).filterMap Item.uses?) use)
    (before after : List ScriptUnit) :
    survey (before ++ unit.insertUse place use :: after) references =
      survey (before ++ unit :: after) references := by
  have hdeclared : declaredClasses (before ++ unit.insertUse place use :: after) =
      declaredClasses (before ++ unit :: after) := by
    simp only [declaredClasses, List.flatMap_append, List.flatMap_cons, classes_insertUse]
    rfl
  simp only [survey, hdeclared, List.zipIdx_append, List.zipIdx_cons, List.map_append,
    List.map_cons, bindUnit_insertUse h]

end

/-! ## Verdicts -/

theorem bind_eq_error {units : List ScriptUnit} {references : References}
    (h : ¬Clean (survey units references).2) :
    bind units references =
      .error (((survey units references).2.filter Finding.isError).map Finding.diagnostic) := by
  have hfound : ¬((survey units references).2.filter Finding.isError).isEmpty = true := by
    rw [List.isEmpty_iff, List.filter_eq_nil_iff]
    simp only [Bool.not_eq_true]
    exact h
  unfold bind
  simp only
  rw [if_neg hfound]

/-- Findings that match lead to the same verdict. -/
theorem sameVerdict_of_matching {units others : List ScriptUnit} {references permuted : References}
    (hclasses : (survey others permuted).1 = (survey units references).1)
    (hfindings : Matching (survey units references).2 (survey others permuted).2) :
    SameVerdict (bind units references) (bind others permuted) := by
  by_cases hclean : Clean (survey units references).2
  · have hother := bind_eq_ok_iff.mpr ⟨hfindings.clean_iff.mp hclean, rfl⟩
    rw [hclasses, ← hfindings.eq_of_clean hclean] at hother
    rw [hother, bind_eq_ok_iff.mpr ⟨hclean, rfl⟩]
    exact .bound _
  · rw [bind_eq_error hclean, bind_eq_error (mt hfindings.clean_iff.mpr hclean)]
    apply SameVerdict.refused
    rw [List.map_map, List.map_map]
    exact hfindings.errors

/-- The order of modules and of `use` declarations decides neither whether scripts can be bound, nor
to what, nor what is wrong with them. A declaration that repeats an earlier one changes nothing. -/
theorem bind_rearranged {references permuted : References}
    (hnames : (references.map ModuleSymbols.name).Nodup) (hperm : permuted.Perm references) :
    (∀ units others, List.Forall₂ (ScriptUnit.Rearranges references) units others →
      SameVerdict (bind units references) (bind others permuted)) ∧
    ∀ (before : List ScriptUnit) (unit : ScriptUnit) (after : List ScriptUnit) (place : Nat)
      (use : QualifiedName),
      ScriptUnit.Repeats references ((unit.items.take place).filterMap Item.uses?) use →
      bind (before ++ unit.insertUse place use :: after) references =
        bind (before ++ unit :: after) references := by
  constructor
  · intro units others hunits
    obtain ⟨hclasses, hfindings⟩ := matching_survey (find_of_perm hnames hperm) hunits
    exact sameVerdict_of_matching hclasses hfindings
  · intro before unit after place use hrepeats
    unfold bind
    rw [survey_insertUse hrepeats]

/-- A shop whose box may be of one of two types if the script uses both modules that have one. -/
def shopClass : Item := .declares {
  name := "Shop"
  base := ⟨"Page", [], ⟨9, 14⟩⟩
  start := ⟨9, 1⟩
  body := [⟨.create "box" ⟨"Box", [], ⟨10, 17⟩⟩, ⟨10, 3⟩⟩] }

def shopUnit (more : List QualifiedName) : ScriptUnit where
  path := "shop.kps"
  lineMap := {}
  items := .uses ⟨"ui", [], ⟨1, 5⟩⟩ :: .uses ⟨"forms", [], ⟨2, 5⟩⟩ :: more.map .uses ++ [shopClass]

/-- The script from back to front, with one module used twice. -/
def turnedShopUnit (more : List QualifiedName) : ScriptUnit where
  path := "shop.kps"
  lineMap := {}
  items := .uses ⟨"ui", [], ⟨8, 5⟩⟩ :: shopClass :: (more.map .uses).reverse ++
    [.uses ⟨"forms", [], ⟨2, 5⟩⟩, .uses ⟨"ui", [], ⟨1, 5⟩⟩]

def shopReferences : References := [
  .ofTypes "ui" [("Page", { isComponent := false })],
  .ofTypes "forms" [("Box", { isComponent := true })],
  .ofTypes "extra" [("Box", { isComponent := true })]]

/-- A second module with a box and one that is missing. -/
def ambiguousUses : List QualifiedName := [⟨"extra", [], ⟨3, 5⟩⟩, ⟨"gone", [], ⟨4, 5⟩⟩]

theorem rearranges_shopUnit {more : List QualifiedName} (h : more ∈ [[], ambiguousUses]) :
    (shopUnit more).Rearranges shopReferences (turnedShopUnit more) where
  path := rfl
  lineMap := rfl
  classes := by
    revert more
    decide
  uses := by
    refine ⟨[⟨"ui", [], ⟨8, 5⟩⟩], ?_, ?_⟩
    · revert more
      decide
    · intro use huse
      rw [List.mem_singleton.mp huse]
      exact ⟨⟨⟨"ui", [], ⟨1, 5⟩⟩, List.mem_cons_self, rfl⟩, _, List.mem_cons_self, rfl⟩

theorem bind_rearranged_shop :
    (bind [shopUnit []] shopReferences).toOption.isSome = true ∧
    SameVerdict (bind [shopUnit []] shopReferences)
      (bind [turnedShopUnit []] shopReferences.reverse) ∧
    SameVerdict (bind [shopUnit ambiguousUses] shopReferences)
      (bind [turnedShopUnit ambiguousUses] shopReferences.reverse) ∧
    bind [(shopUnit ambiguousUses).insertUse 3 ⟨"ui", [], ⟨8, 5⟩⟩] shopReferences =
      bind [shopUnit ambiguousUses] shopReferences := by
  have hnames : (shopReferences.map ModuleSymbols.name).Nodup := by decide
  obtain ⟨hsame, hrepeat⟩ := bind_rearranged hnames (List.reverse_perm shopReferences)
  exact ⟨by decide +kernel, hsame _ _ (.cons (rearranges_shopUnit (by simp)) .nil),
    hsame _ _ (.cons (rearranges_shopUnit (by simp)) .nil),
    hrepeat [] (shopUnit ambiguousUses) [] 3 _ ⟨by decide, by decide⟩⟩

end Binding

end PageScript
