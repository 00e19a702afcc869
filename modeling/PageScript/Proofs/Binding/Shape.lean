import PageScript.Proofs.Binding.WellFormed

/-!
# The shape of a bound module

A bound module has the classes of its scripts, in order, and each class has a statement for every
one of its script. The locals of a class are numbered in order of declaration, and a statement that
is about a local has the number of the declaration before it. There is a warning for every local
that is never rendered, and no other one.
-/

namespace PageScript

open Script

namespace Script

/-! ## Bound classes and their scripts -/

/-- The local that the statements `before` declare under a name has the number `slot`. -/
def Numbers (before : List Statement.Kind) (name : String) (slot : Nat) : Prop :=
  ∃ type, (lets before)[slot]? = some (name, type)

/-- Behind the statements `before` of a class, a statement becomes an operation of its own kind with
its own texts and names. A new local gets the next number. -/
inductive Mirrors (references : References) (unit : ScriptUnit) (before : List Statement.Kind) :
    Statement.Kind → BoundStatement.Op → Prop
  | write (text : String) : Mirrors references unit before (.write text) (.write text)
  | create {type : QualifiedName} {found : TypeName} {symbol : TypeSymbol} (name : String)
      (htype : Denotes references unit type found symbol) :
      Mirrors references unit before (.create name type) (.create found (lets before).length)
  | assign {target : String} {slot : Nat} (property value : String)
      (hslot : Numbers before target slot) :
      Mirrors references unit before (.assign target property value) (.assign slot property value)
  | render {name : String} {slot : Nat} (hslot : Numbers before name slot) :
      Mirrors references unit before (.render name) (.render slot)
  | embed (className : String) :
      Mirrors references unit before (.embed className) (.embed className)

/-- A bound class has the statements of its declaration, each at the place that the line map of the
script gives it, and a slot for each local. -/
structure MirrorsClass (references : References) (unit : ScriptUnit) (index : Nat)
    (declaration : ClassDeclaration) (current : BoundClass) : Prop where
  name : current.name = declaration.name
  number : current.unit = index
  base : ∃ symbol, Denotes references unit declaration.base current.base symbol
  length_body : current.body.length = declaration.body.length
  body : ∀ (place : Nat) (stmt : Statement), declaration.body[place]? = some stmt →
    ∃ bound, current.body[place]? = some bound ∧ bound.location = unit.locate stmt.start ∧
      Mirrors references unit (declaration.kinds.take place) stmt.kind bound.op
  locals : ((lets declaration.kinds).map Prod.fst).Nodup
  slotCount : current.slotCount = (lets declaration.kinds).length

/-! ## Warnings -/

/-- The local that a statement declares, with the place of its declaration. -/
def Statement.local? (unit : ScriptUnit) (stmt : Statement) : Option (String × Location) :=
  match stmt.kind with
  | .create name _ => some (name, unit.locate stmt.start)
  | _ => none

def neverRendered (name : String) (location : Location) : Diagnostic :=
  (Diagnostic.warning "KP0168" s!"The variable '{name}' is declared but never rendered").locatedAt
    location

/-- A warning for every local of a class that no statement renders, in order of declaration. -/
def ClassDeclaration.warnings (unit : ScriptUnit) (declaration : ClassDeclaration) :
    List Diagnostic :=
  ((declaration.body.filterMap (Statement.local? unit)).filter fun entry ↦
    Statement.Kind.render entry.1 ∉ declaration.kinds).map fun entry ↦
      neverRendered entry.1 entry.2

end Script

namespace Binding

variable {references : References} {unit : ScriptUnit} {classes : List String}
  {before : List Statement.Kind} {locals : List Local}

/-! ## Bodies -/

/-- The number that binding finds for a name is that of its declaration. -/
theorem Tracks.numbers (h : Tracks references unit before locals) {name : String} {slot : Nat}
    (hslot : slotOf locals name = some slot) : Numbers before name slot := by
  obtain ⟨hlt, hname, _⟩ := List.findIdx?_eq_some_iff_getElem.mp hslot
  have hdeclared : slot < (lets before).length := h.locals.length_eq ▸ hlt
  have hsame : (lets before)[slot].1 = name :=
    (h.locals.get hdeclared hlt).1.symm.trans (of_decide_eq_true hname)
  exact ⟨(lets before)[slot].2, by rw [List.getElem?_eq_getElem hdeclared, ← hsame]⟩

/-- A statement that is bound is mirrored, with slots counted by the `let`s before it. -/
theorem Tracks.mirrors (h : Tracks references unit before locals) {kind : Statement.Kind}
    {op : BoundStatement.Op} {next : List Local}
    (hbinds : Binds (scopeOf references classes unit) locals kind op next) :
    Mirrors references unit before kind op := by
  cases hbinds with
  | write text => exact .write text
  | create name location hresolve hcomponent hfresh =>
    rw [← h.locals.length_eq]
    exact .create name (resolve_eq_ok_iff.mp hresolve)
  | assign property value hslot => exact .assign property value (h.numbers hslot)
  | render hslot => exact .render (h.numbers hslot)
  | embed hclass => exact .embed _

/-- A bound body has one statement for each statement of the script. -/
theorem BindsBody.length_eq {scope : Scope} {body : List Statement} {bound : List BoundStatement}
    {final : List Local} (h : BindsBody scope locals body bound final) :
    bound.length = body.length := by
  induction h with
  | nil => rfl
  | cons _ _ ih => rw [List.length_cons, List.length_cons, ih]

/-- Behind a body, the locals are those of the statements before it and its own. -/
theorem BindsBody.tracks {body : List Statement} {bound : List BoundStatement} {final : List Local}
    (h : BindsBody (scopeOf references classes unit) locals body bound final)
    (htracks : Tracks references unit before locals) :
    Tracks references unit (before ++ body.map Statement.kind) final := by
  induction h generalizing before with
  | nil => rwa [List.map_nil, List.append_nil]
  | cons first _ ih =>
    rw [List.map_cons, List.append_cons]
    exact ih (htracks.step first)

/-- Each statement of a bound body stands for the one at its place, at the location that the line
map gives. -/
theorem BindsBody.mirrors {body : List Statement} {bound : List BoundStatement}
    {final : List Local} (h : BindsBody (scopeOf references classes unit) locals body bound final)
    (htracks : Tracks references unit before locals) {place : Nat} {stmt : Statement}
    (hstmt : body[place]? = some stmt) :
    ∃ current, bound[place]? = some current ∧ current.location = unit.locate stmt.start ∧
      Mirrors references unit (before ++ (body.map Statement.kind).take place) stmt.kind
        current.op := by
  induction h generalizing before place with
  | nil => simp at hstmt
  | @cons locals next final first rest op bound hbinds _ ih =>
    cases place with
    | zero =>
      rw [List.getElem?_cons_zero, Option.some.injEq] at hstmt
      subst hstmt
      rw [List.take_zero, List.append_nil]
      exact ⟨_, rfl, rfl, htracks.mirrors hbinds⟩
    | succ place =>
      rw [List.getElem?_cons_succ] at hstmt
      obtain ⟨current, hcurrent, hlocation, hmirrors⟩ := ih (htracks.step hbinds) hstmt
      rw [List.append_assoc] at hmirrors
      exact ⟨current, hcurrent, hlocation, hmirrors⟩

/-- A class without errors is bound, and mirrored by what it is bound to. -/
theorem mirrorsClass_of_bindClass {index : Nat} {declaration : ClassDeclaration}
    (h : Clean (bindClass (scopeOf references classes unit) index declaration).2) :
    ∃ current, (bindClass (scopeOf references classes unit) index declaration).1 = some current ∧
      MirrorsClass references unit index declaration current := by
  unfold bindClass at h ⊢
  cases hbase : resolve (scopeOf references classes unit).references
      (scopeOf references classes unit).used declaration.base with
  | error problem =>
    simp only [hbase] at h
    exact absurd h (not_clean_of_mem List.mem_cons_self (isError_of_resolve hbase))
  | ok base =>
    simp only [hbase] at h
    have hbody := binds_body (clean_append.mp h).1
    have htracks : Tracks references unit declaration.kinds _ := hbody.tracks tracks_nil
    refine ⟨_, rfl, rfl, rfl, ⟨base.2, resolve_eq_ok_iff.mp hbase⟩, hbody.length_eq, ?_,
      htracks.distinct, htracks.locals.length_eq.symm⟩
    exact fun place stmt hstmt ↦ hbody.mirrors tracks_nil hstmt

/-! ## Findings -/

/-- Where nothing but errors can be found, nothing is found if no error is. -/
theorem eq_nil_of_clean {findings : List Finding} (herrors : ∀ finding ∈ findings, finding.isError)
    (h : Clean findings) : findings = [] := by
  rw [List.eq_nil_iff_forall_not_mem]
  intro finding hmem
  exact not_clean_of_mem hmem (herrors finding hmem) h

theorem isError_of_mem_componentProblems {found : TypeName × TypeSymbol} {location : Location} :
    ∀ finding ∈ (componentProblems found).map (⟨·, location⟩), Finding.isError finding := by
  rcases found with ⟨type, symbol⟩
  simp only [componentProblems]
  split
  · simp
  · exact List.forall_mem_singleton.mpr rfl

theorem isError_of_mem_assignProblems {property : String} {target : Option Local}
    {location : Location} :
    ∀ finding ∈ (assignProblems property target).map (⟨·, location⟩), Finding.isError finding := by
  unfold assignProblems
  split
  · split
    · simp
    · exact List.forall_mem_singleton.mpr rfl
  · simp

theorem isError_of_mem_bindCreate {scope : Scope} {location : Location} {name : String}
    {type : QualifiedName} :
    ∀ finding ∈ (bindCreate scope locals location name type).findings, finding.isError := by
  have hduplicate {findings : List Finding} (h : ∀ finding ∈ findings, finding.isError) :
      ∀ finding ∈ findings ++ [⟨.duplicateLocal name, location⟩], Finding.isError finding :=
    List.forall_mem_append.mpr ⟨h, List.forall_mem_singleton.mpr rfl⟩
  unfold bindCreate
  cases hresolve : resolve scope.references scope.used type with
  | ok found =>
    dsimp only
    split
    · exact hduplicate isError_of_mem_componentProblems
    · exact isError_of_mem_componentProblems
  | error problem =>
    have hproblem : ∀ finding ∈ [⟨problem, scope.unit.locate type.start⟩],
        Finding.isError finding := List.forall_mem_singleton.mpr (isError_of_resolve hresolve)
    dsimp only
    split
    · exact hduplicate hproblem
    · exact hproblem

/-- Nothing but errors is found at a statement. -/
theorem isError_of_mem_bindStatement {scope : Scope} {stmt : Statement} :
    ∀ finding ∈ (bindStatement scope locals stmt).findings, finding.isError := by
  rcases stmt with ⟨kind, start⟩
  cases kind with
  | write text => simp [bindStatement]
  | create name type => exact isError_of_mem_bindCreate
  | assign target property value =>
    simp only [bindStatement]
    split
    · exact isError_of_mem_assignProblems
    · exact List.forall_mem_singleton.mpr rfl
  | render name =>
    simp only [bindStatement]
    split
    · simp
    · exact List.forall_mem_singleton.mpr rfl
  | embed className =>
    simp only [bindStatement]
    split
    · simp
    · exact List.forall_mem_singleton.mpr rfl

/-- Warnings do not come from the statements of a body. -/
theorem isError_of_mem_bindBody {scope : Scope} (body : List Statement) :
    ∀ finding ∈ (bindBody scope locals body).2.2, finding.isError := by
  induction body generalizing locals with
  | nil => simp [bindBody]
  | cons stmt rest ih =>
    exact List.forall_mem_append.mpr ⟨isError_of_mem_bindStatement, ih⟩

theorem isError_of_mem_duplicateFindings {seen : List String}
    {declared : List (String × Location)} :
    ∀ finding ∈ duplicateFindings seen declared, finding.isError := by
  fun_induction duplicateFindings seen declared with
  | case1 => simp
  | case2 seen name location rest hseen ih => exact List.forall_mem_cons.mpr ⟨rfl, ih⟩
  | case3 seen name location rest hseen ih => exact ih

theorem isError_of_mem_useFindings :
    ∀ finding ∈ useFindings references unit, finding.isError := by
  intro finding hfinding
  obtain ⟨use, _, rfl⟩ := List.mem_map.mp hfinding
  rfl

/-! ## Warnings -/

/-- Name and place of a local. -/
def Local.declared (entry : Local) : String × Location := (entry.name, entry.declaredAt)

/-- A `let` declares one more local, and other statements declare none. -/
theorem declared_bindStatement {scope : Scope} {stmt : Statement}
    (h : Clean (bindStatement scope locals stmt).findings) :
    (bindStatement scope locals stmt).locals.map Local.declared =
      locals.map Local.declared ++ (stmt.local? scope.unit).toList := by
  rcases stmt with ⟨kind, start⟩
  cases kind with
  | create name type =>
    simp only [bindStatement, bindCreate, Statement.local?] at h ⊢
    split
    · rename_i hslot
      rw [if_pos hslot] at h
      exact absurd (clean_append.mp h).2 (not_clean_singleton rfl)
    · simp [Local.declared]
  | write text => simp [bindStatement, Statement.local?]
  | assign target property value =>
    simp only [bindStatement, Statement.local?]
    split <;> simp
  | render name =>
    simp only [bindStatement, Statement.local?]
    split <;> simp
  | embed className =>
    simp only [bindStatement, Statement.local?]
    split <;> simp

/-- The locals of a body are its `let`s, in order. -/
theorem declared_bindBody {scope : Scope} {body : List Statement}
    (h : Clean (bindBody scope locals body).2.2) :
    (bindBody scope locals body).2.1.map Local.declared =
      locals.map Local.declared ++ body.filterMap (Statement.local? scope.unit) := by
  induction body generalizing locals with
  | nil => rw [List.filterMap_nil, List.append_nil, bindBody]
  | cons stmt rest ih =>
    obtain ⟨hfirst, hrest⟩ := clean_append.mp h
    have hcons : (stmt :: rest).filterMap (Statement.local? scope.unit) =
        (stmt.local? scope.unit).toList ++ rest.filterMap (Statement.local? scope.unit) := by
      rw [List.filterMap_cons]
      cases stmt.local? scope.unit <;> rfl
    rw [hcons, ← List.append_assoc, ← declared_bindStatement hfirst]
    exact ih hrest

theorem mem_renderedNames {body : List Statement} {name : String} :
    name ∈ renderedNames body ↔ .render name ∈ body.map Statement.kind := by
  simp only [renderedNames, List.mem_filterMap, List.mem_map]
  refine exists_congr fun stmt ↦ and_congr_right fun _ ↦ ?_
  cases hkind : stmt.kind with
  | render other => simp
  | _ => simp

/-- The locals that are reported are those that no `render` names. -/
theorem diagnostic_renderFindings {declaration : ClassDeclaration}
    (hlocals : locals.map Local.declared = declaration.body.filterMap (Statement.local? unit)) :
    (renderFindings declaration.body locals).map Finding.diagnostic =
      declaration.warnings unit := by
  have hrendered : ∀ entry : Local, (!(renderedNames declaration.body).contains entry.name) =
      decide (Statement.Kind.render entry.declared.1 ∉ declaration.kinds) := by
    intro entry
    rw [Bool.eq_iff_iff, Bool.not_eq_true', ← Bool.not_eq_true, List.contains_iff_mem,
      mem_renderedNames, decide_eq_true_iff]
    rfl
  simp only [renderFindings, ClassDeclaration.warnings, ← hlocals, List.filter_map, List.map_map,
    hrendered]
  rfl

/-- Binding a class without errors finds its locals that are never rendered, and nothing else. -/
theorem diagnostic_bindClass {index : Nat} {declaration : ClassDeclaration}
    (h : Clean (bindClass (scopeOf references classes unit) index declaration).2) :
    (bindClass (scopeOf references classes unit) index declaration).2.map Finding.diagnostic =
      declaration.warnings unit := by
  unfold bindClass at h ⊢
  cases hbase : resolve (scopeOf references classes unit).references
      (scopeOf references classes unit).used declaration.base with
  | error problem =>
    simp only [hbase] at h
    exact absurd h (not_clean_of_mem List.mem_cons_self (isError_of_resolve hbase))
  | ok base =>
    simp only [hbase] at h ⊢
    have hbody := (clean_append.mp h).1
    rw [eq_nil_of_clean (isError_of_mem_bindBody declaration.body) hbody, List.nil_append]
    exact diagnostic_renderFindings (declared_bindBody hbody)

theorem diagnostic_bindUnit {index : Nat}
    (h : Clean (bindUnit references classes unit index).2) :
    (bindUnit references classes unit index).2.map Finding.diagnostic =
      unit.classes.flatMap (ClassDeclaration.warnings unit) := by
  obtain ⟨huses, hclasses⟩ := clean_append.mp h
  have hdeclarations := clean_flatMap.mp hclasses
  rw [List.forall_mem_map] at hdeclarations
  change (useFindings references unit ++ _).map Finding.diagnostic = _
  rw [eq_nil_of_clean isError_of_mem_useFindings huses, List.nil_append, List.map_flatMap,
    List.flatMap_map]
  exact List.flatMap_congr fun declaration hmem ↦ diagnostic_bindClass (hdeclarations _ hmem)

/-- The warnings of a module are those of its classes, in the order of the scripts. -/
theorem warnings_of_bind {units : List ScriptUnit} {module : BoundModule}
    (h : bind units references = .ok module) :
    module.warnings = (declarations units).flatMap fun (unit, declaration) ↦
      declaration.warnings unit := by
  obtain ⟨hclean, rfl⟩ := bind_eq_ok_iff.mp h
  obtain ⟨hduplicates, hunits⟩ := clean_append.mp hclean
  have hunits := clean_flatMap.mp hunits
  rw [List.forall_mem_map] at hunits
  change (duplicateFindings [] _ ++ _).map Finding.diagnostic = _
  rw [eq_nil_of_clean isError_of_mem_duplicateFindings hduplicates, List.nil_append,
    List.map_flatMap, List.flatMap_map, declarations, List.flatMap_assoc]
  conv_rhs => rw [← List.zipIdx_map_fst 0 units, List.flatMap_map]
  refine List.flatMap_congr fun entry hmem ↦ ?_
  rw [List.flatMap_map]
  exact diagnostic_bindUnit (hunits entry hmem)

/-! ## Modules -/

/-- A bound module has the classes of the scripts in order, with the statements, locals and places
that the scripts give them, and warns of exactly the locals that are never rendered. -/
theorem bind_mirrors {units : List ScriptUnit} {module : BoundModule}
    (h : bind units references = .ok module) :
    List.Forall₂ (fun declaration current ↦
        MirrorsClass references declaration.1 declaration.2.1 declaration.2.2 current)
      (numberedDeclarations units 0) module.classes ∧
    module.warnings = (declarations units).flatMap fun (unit, declaration) ↦
      declaration.warnings unit :=
  ⟨forall₂_numbered_of_bind (fun _ _ _ ↦ mirrorsClass_of_bindClass) h, warnings_of_bind h⟩

/-- A class with two locals, the second of which is never rendered. From its fourth line on the
script was generated from a page. -/
def draftUnit : ScriptUnit where
  path := "draft.kps"
  lineMap := .remap .empty 3 "draft.html" 20
  items := [
    .declares {
      name := "Draft"
      base := ⟨"web", ["ui", "Page"], ⟨1, 15⟩⟩
      start := ⟨1, 1⟩
      body := [
        ⟨.create "box" ⟨"web", ["forms", "Box"], ⟨2, 17⟩⟩, ⟨2, 3⟩⟩,
        ⟨.create "spare" ⟨"web", ["forms", "Box"], ⟨5, 19⟩⟩, ⟨5, 3⟩⟩,
        ⟨.assign "box" "Title" "Name", ⟨6, 3⟩⟩,
        ⟨.render "box", ⟨7, 3⟩⟩,
        ⟨.embed "Foot", ⟨8, 3⟩⟩] }]

def draftModule : BoundModule where
  classes := [
    { name := "Draft", base := ⟨"web.ui", "Page"⟩, slotCount := 2, unit := 0
      body := [⟨.create ⟨"web.forms", "Box"⟩ 0, ⟨"draft.kps", 2, 3⟩⟩,
        ⟨.create ⟨"web.forms", "Box"⟩ 1, ⟨"draft.html", 21, 3⟩⟩,
        ⟨.assign 0 "Title" "Name", ⟨"draft.html", 22, 3⟩⟩, ⟨.render 0, ⟨"draft.html", 23, 3⟩⟩,
        ⟨.embed "Foot", ⟨"draft.html", 24, 3⟩⟩] },
    { name := "Foot", base := ⟨"web.ui", "Page"⟩, slotCount := 0, unit := 1, body := [] }]
  warnings := [neverRendered "spare" ⟨"draft.html", 21, 3⟩]

theorem bind_mirrors_draft :
    bind [draftUnit, footUnit] formReferences = .ok draftModule ∧
      List.Forall₂ (fun declaration current ↦
          MirrorsClass formReferences declaration.1 declaration.2.1 declaration.2.2 current)
        (numberedDeclarations [draftUnit, footUnit] 0) draftModule.classes ∧
      [neverRendered "spare" ⟨"draft.html", 21, 3⟩] =
        (declarations [draftUnit, footUnit]).flatMap fun (unit, declaration) ↦
          declaration.warnings unit := by
  have hbind : bind [draftUnit, footUnit] formReferences = .ok draftModule := by
    decide +kernel
  exact ⟨hbind, bind_mirrors hbind⟩

end Binding

end PageScript
