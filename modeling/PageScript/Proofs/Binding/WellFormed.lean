import Mathlib.Data.List.Induction
import PageScript.Proofs.Binding.Judgement
import PageScript.Proofs.Binding.Rules
import PageScript.Proofs.Table

/-!
# Well-formed scripts

Binding gives a module for exactly the scripts that keep the rules. It looks at every statement,
also behind one that is wrong; as long as none was, its locals are those that the statements so far
declare, with the types that their names stand for.
-/

namespace PageScript.Binding

open Script

/-! ## Class bodies -/

/-- What a statement must keep behind the statements `before`. -/
def Sound (references : References) (unit : ScriptUnit) (classes : List String)
    (before : List Statement.Kind) : Statement.Kind → Prop
  | .write _ => True
  | .create name type =>
    (∃ found symbol, Denotes references unit type found symbol ∧ symbol.isComponent = true) ∧
      name ∉ (lets before).map Prod.fst
  | .assign target property _ =>
    ∃ type found symbol, (target, type) ∈ lets before ∧ Denotes references unit type found symbol ∧
      property ∈ symbol.assignable.names
  | .render name => ∃ type, (name, type) ∈ lets before
  | .embed className => className ∈ classes

/-- The locals of binding are those that the statements before declare, with their types. -/
structure Tracks (references : References) (unit : ScriptUnit) (before : List Statement.Kind)
    (locals : List Local) : Prop where
  distinct : ((lets before).map Prod.fst).Nodup
  locals : List.Forall₂ (fun declared entry ↦ entry.name = declared.1 ∧
    ∃ found symbol, entry.type = some (found, symbol) ∧
      Denotes references unit declared.2 found symbol) (lets before) locals

variable {references : References} {unit : ScriptUnit} {classes : List String}
  {before : List Statement.Kind} {locals : List Local}

theorem Tracks.map_name (h : Tracks references unit before locals) :
    locals.map Local.name = (lets before).map Prod.fst := by
  have hnames : List.Forall₂ Eq (locals.map Local.name) ((lets before).map Prod.fst) := by
    rw [List.forall₂_map_left_iff, List.forall₂_map_right_iff]
    exact h.locals.flip.imp fun _ _ hentry ↦ hentry.1
  rwa [List.forall₂_eq_eq_eq] at hnames

/-- A name has no slot exactly if no local has it. -/
theorem slotOf_eq_none_iff {name : String} :
    slotOf locals name = none ↔ name ∉ locals.map Local.name := by
  simp [slotOf, List.findIdx?_eq_none_iff, List.mem_map]

/-- A name has a slot exactly if it is declared before. -/
theorem Tracks.slotOf_eq_none_iff (h : Tracks references unit before locals) {name : String} :
    slotOf locals name = none ↔ name ∉ (lets before).map Prod.fst := by
  rw [Binding.slotOf_eq_none_iff, h.map_name]

/-- The slot of a name holds the type of its declaration. -/
theorem Tracks.type_of_slotOf (h : Tracks references unit before locals) {name : String}
    {slot : Nat} (hslot : slotOf locals name = some slot) :
    ∃ type found symbol, (name, type) ∈ lets before ∧ Denotes references unit type found symbol ∧
      locals[slot]?.bind Local.type = some (found, symbol) := by
  obtain ⟨hlt, hname, _⟩ := List.findIdx?_eq_some_iff_getElem.mp hslot
  have hdeclared : slot < (lets before).length := h.locals.length_eq ▸ hlt
  obtain ⟨hentry, found, symbol, htype, hdenotes⟩ := h.locals.get hdeclared hlt
  have hsame : (lets before)[slot].1 = name := hentry.symm.trans (of_decide_eq_true hname)
  refine ⟨(lets before)[slot].2, found, symbol, ?_, hdenotes, ?_⟩
  · rw [← hsame]
    exact List.getElem_mem hdeclared
  · rw [List.getElem?_eq_getElem hlt, Option.bind_some]
    exact htype

theorem clean_nil : Clean [] := by simp [Clean]

theorem not_clean_singleton {finding : Finding} (h : finding.isError = true) : ¬Clean [finding] :=
  not_clean_of_mem (List.mem_singleton_self _) h

theorem Tracks.sound_create (h : Tracks references unit before locals) {name : String}
    {type : QualifiedName} {op : BoundStatement.Op} {next : List Local}
    (hbinds : Binds (scopeOf references classes unit) locals (.create name type) op next) :
    Sound references unit classes before (.create name type) := by
  cases hbinds with
  | create _ _ hresolve hcomponent hfresh =>
    exact ⟨⟨_, _, resolve_eq_ok_iff.mp hresolve, hcomponent⟩, h.slotOf_eq_none_iff.mp hfresh⟩

/-- A `let` has no errors exactly if its name is new and its type can be created. -/
theorem clean_bindCreate_iff (h : Tracks references unit before locals) (location : Location)
    (name : String) (type : QualifiedName) :
    Clean (bindCreate (scopeOf references classes unit) locals location name type).findings ↔
      Sound references unit classes before (.create name type) := by
  constructor
  · intro hclean
    obtain ⟨op, _, hbinds⟩ := binds_create hclean
    exact h.sound_create hbinds
  · rintro ⟨⟨found, symbol, hdenotes, hcomponent⟩, hfresh⟩
    have hresolve := resolve_eq_ok_iff.mpr hdenotes
    have hslot := h.slotOf_eq_none_iff.mpr hfresh
    simp only [bindCreate, scopeOf, hresolve, hslot, componentProblems, hcomponent,
      Option.isSome_none, Bool.false_eq_true, if_false, if_true, List.map_nil]
    exact clean_nil

/-- A property can be set exactly if the type says that it may. -/
theorem clean_assignProblems_iff {type : TypeName} {symbol : TypeSymbol} {property : String}
    {target : Option Local} (h : target.bind Local.type = some (type, symbol))
    (location : Location) :
    Clean ((assignProblems property target).map (⟨·, location⟩)) ↔
      property ∈ symbol.assignable.names := by
  rw [← Table.contains_iff_mem_names]
  simp only [assignProblems, h]
  split
  · rename_i hcontains
    exact iff_of_true clean_nil hcontains
  · rename_i hcontains
    exact iff_of_false (not_clean_singleton rfl) hcontains

/-- A statement is found right exactly if it keeps the rules. -/
theorem clean_bindStatement_iff (h : Tracks references unit before locals) (stmt : Statement) :
    Clean (bindStatement (scopeOf references classes unit) locals stmt).findings ↔
      Sound references unit classes before stmt.kind := by
  rcases stmt with ⟨kind, start⟩
  cases kind with
  | write text => exact iff_of_true clean_nil trivial
  | create name type => exact clean_bindCreate_iff h _ name type
  | assign target property value =>
    simp only [bindStatement, Sound]
    cases hslot : slotOf locals target with
    | none =>
      refine iff_of_false (not_clean_singleton rfl) ?_
      rintro ⟨type, _, _, hmem, _⟩
      exact h.slotOf_eq_none_iff.mp hslot (List.mem_map_of_mem hmem)
    | some slot =>
      obtain ⟨type, found, symbol, hmem, hdenotes, htype⟩ := h.type_of_slotOf hslot
      rw [clean_assignProblems_iff htype]
      refine ⟨fun hproperty ↦ ⟨type, found, symbol, hmem, hdenotes, hproperty⟩, ?_⟩
      rintro ⟨other, found', symbol', hother, hdenotes', hproperty⟩
      have hsame := List.inj_on_of_nodup_map h.distinct hother hmem rfl
      cases hsame
      cases denotes_unique hdenotes hdenotes'
      exact hproperty
  | render name =>
    simp only [bindStatement, Sound]
    cases hslot : slotOf locals name with
    | none =>
      refine iff_of_false (not_clean_singleton rfl) ?_
      rintro ⟨type, hmem⟩
      exact h.slotOf_eq_none_iff.mp hslot (List.mem_map_of_mem hmem)
    | some slot =>
      obtain ⟨type, _, _, hmem, _⟩ := h.type_of_slotOf hslot
      exact iff_of_true clean_nil ⟨type, hmem⟩
  | embed className =>
    simp only [bindStatement, Sound]
    by_cases hclass : (scopeOf references classes unit).classes.contains className
    · rw [if_pos hclass]
      exact iff_of_true clean_nil (List.contains_iff_mem.mp hclass)
    · rw [if_neg hclass]
      exact iff_of_false (not_clean_singleton rfl) (mt List.contains_iff_mem.mpr hclass)

theorem Tracks.of_lets_eq (h : Tracks references unit before locals)
    {kinds : List Statement.Kind} (hlets : lets kinds = lets before) :
    Tracks references unit kinds locals := ⟨hlets ▸ h.distinct, hlets ▸ h.locals⟩

/-- Behind a statement that is bound, the locals are tracked together with its own. -/
theorem Tracks.step (h : Tracks references unit before locals) {kind : Statement.Kind}
    {op : BoundStatement.Op} {next : List Local}
    (hbinds : Binds (scopeOf references classes unit) locals kind op next) :
    Tracks references unit (before ++ [kind]) next := by
  cases hbinds with
  | @create type found symbol name location hresolve hcomponent hfresh =>
    have hnew := h.slotOf_eq_none_iff.mp hfresh
    have hsplit : lets (before ++ [.create name type]) = lets before ++ [(name, type)] :=
      List.filterMap_append
    constructor
    · rw [hsplit, List.map_append]
      refine List.nodup_append.mpr ⟨h.distinct, List.nodup_singleton _, ?_⟩
      rintro other hother _ hlast rfl
      rw [List.mem_singleton.mp hlast] at hother
      exact hnew hother
    · rw [hsplit]
      exact List.rel_append h.locals
        (.cons ⟨rfl, found, symbol, rfl, resolve_eq_ok_iff.mp hresolve⟩ .nil)
  | write text => exact h.of_lets_eq (by simp [lets])
  | assign property value hslot => exact h.of_lets_eq (by simp [lets])
  | render hslot => exact h.of_lets_eq (by simp [lets])
  | embed hclass => exact h.of_lets_eq (by simp [lets])

/-- A property of every place in a list holds at its first place and at those behind. -/
theorem forall_place_cons {α : Type} {first : α} {rest : List α} {holds : List α → α → Prop} :
    (∀ front item after, first :: rest = front ++ item :: after → holds front item) ↔
      holds [] first ∧
        ∀ front item after, rest = front ++ item :: after → holds (first :: front) item := by
  constructor
  · intro h
    refine ⟨h [] first rest rfl, fun front item after hrest ↦ ?_⟩
    exact h (first :: front) item after (by rw [hrest, List.cons_append])
  · rintro ⟨hfirst, hrest⟩ front item after hsplit
    cases front with
    | nil =>
      obtain ⟨rfl, _⟩ := List.cons.inj hsplit
      exact hfirst
    | cons other front =>
      obtain ⟨rfl, hbehind⟩ := List.cons.inj hsplit
      exact hrest front item after hbehind

/-- A body is found right exactly if each statement keeps the rules behind those before it. -/
theorem clean_bindBody_iff (h : Tracks references unit before locals) (body : List Statement) :
    Clean (bindBody (scopeOf references classes unit) locals body).2.2 ↔
      ∀ front kind after, body.map Statement.kind = front ++ kind :: after →
        Sound references unit classes (before ++ front) kind := by
  induction body generalizing before locals with
  | nil => exact iff_of_true clean_nil fun front kind after hsplit ↦ by simp at hsplit
  | cons stmt rest ih =>
    rw [List.map_cons, forall_place_cons, List.append_nil, ← clean_bindStatement_iff h stmt]
    refine clean_append.trans (and_congr_right fun hstmt ↦ ?_)
    obtain ⟨op, _, hbinds⟩ := binds_statement hstmt
    refine (ih (h.step hbinds)).trans ?_
    simp only [List.append_assoc, List.singleton_append]

theorem tracks_nil : Tracks references unit [] [] := ⟨List.nodup_nil, .nil⟩

/-! ## Classes -/

/-- The locals of a class are distinct exactly if each name is new where it is declared. -/
theorem nodup_lets_iff {kinds : List Statement.Kind} :
    ((lets kinds).map Prod.fst).Nodup ↔
      ∀ before name type after, kinds = before ++ .create name type :: after →
        name ∉ (lets before).map Prod.fst := by
  constructor
  · rintro h before name type after rfl hmem
    have hsplit : lets (before ++ .create name type :: after) =
        lets before ++ (name, type) :: lets after := List.filterMap_append
    rw [hsplit, List.map_append] at h
    exact (List.nodup_append.mp h).2.2 name hmem name List.mem_cons_self rfl
  · intro h
    induction kinds using List.reverseRecOn with
    | nil => exact List.nodup_nil
    | append_singleton before kind ih =>
      have hbefore := ih fun front name type after hsplit ↦
        h front name type (after ++ [kind]) (by rw [hsplit]; simp)
      cases kind with
      | create name type =>
        have hsplit : lets (before ++ [.create name type]) = lets before ++ [(name, type)] :=
          List.filterMap_append
        rw [hsplit, List.map_append]
        refine List.nodup_append.mpr ⟨hbefore, List.nodup_singleton _, ?_⟩
        rintro other hother _ hlast rfl
        rw [List.mem_singleton.mp hlast] at hother
        exact h before name type [] rfl hother
      | _ => simpa [lets] using hbefore

/-- A local that is never rendered is no error. -/
theorem clean_renderFindings (body : List Statement) (locals : List Local) :
    Clean (renderFindings body locals) := by
  intro finding hfinding
  obtain ⟨entry, _, rfl⟩ := List.mem_map.mp hfinding
  rfl

/-- The rules for a class are those for its base and for each of its statements. -/
theorem wellFormedClass_iff {declaration : ClassDeclaration} :
    WellFormedClass references classes unit declaration ↔
      (∃ type symbol, Denotes references unit declaration.base type symbol) ∧
        ∀ before kind after, declaration.kinds = before ++ kind :: after →
          Sound references unit classes before kind := by
  constructor
  · intro h
    refine ⟨h.base, fun before kind after hsplit ↦ ?_⟩
    have hmem : kind ∈ declaration.kinds := by
      rw [hsplit]
      exact List.mem_append_right _ List.mem_cons_self
    cases kind with
    | write text => trivial
    | create name type =>
      exact ⟨h.types name type hmem, nodup_lets_iff.mp h.locals before name type after hsplit⟩
    | assign target property value => exact h.assigns before target property value after hsplit
    | render name => exact h.renders before name after hsplit
    | embed className => exact h.embeds className hmem
  · rintro ⟨hbase, hsound⟩
    have hlocals := nodup_lets_iff.mpr fun before name type after hsplit ↦
      (hsound before _ after hsplit).2
    refine ⟨hbase, fun name type hmem ↦ ?_, hlocals, fun before _ _ _ after ↦
      hsound before _ after, fun before _ after ↦ hsound before _ after, fun name hmem ↦ ?_⟩
    · obtain ⟨before, after, hsplit⟩ := List.append_of_mem hmem
      exact (hsound before _ after hsplit).1
    · obtain ⟨before, after, hsplit⟩ := List.append_of_mem hmem
      exact hsound before _ after hsplit

/-- A class has no errors exactly if it is well-formed. -/
theorem clean_bindClass_iff {index : Nat} {declaration : ClassDeclaration} :
    Clean (bindClass (scopeOf references classes unit) index declaration).2 ↔
      WellFormedClass references classes unit declaration := by
  have hbody : Clean (bindBody (scopeOf references classes unit) [] declaration.body).2.2 ↔ _ :=
    clean_bindBody_iff tracks_nil declaration.body
  simp only [List.nil_append] at hbody
  rw [wellFormedClass_iff, ← resolve_isOk_iff, ClassDeclaration.kinds, ← hbody]
  unfold bindClass
  cases hbase : resolve (scopeOf references classes unit).references
      (scopeOf references classes unit).used declaration.base with
  | ok base =>
    have hrender := clean_renderFindings declaration.body
      (bindBody (scopeOf references classes unit) [] declaration.body).2.1
    simp only
    rw [clean_append, and_iff_left hrender]
    exact (and_iff_right ⟨base, hbase⟩).symm
  | error problem =>
    refine iff_of_false (not_clean_of_mem List.mem_cons_self (isError_of_resolve hbase)) ?_
    rintro ⟨⟨found, hfound⟩, _⟩
    cases hbase.symm.trans hfound

theorem Binds.typedAs {kind : Statement.Kind} {op : BoundStatement.Op} {next : List Local}
    (h : Binds (scopeOf references classes unit) locals kind op next) :
    TypedAs references unit kind op := by
  cases h with
  | write text => exact .write text
  | create name location hresolve hcomponent hfresh =>
    exact .create name _ (resolve_eq_ok_iff.mp hresolve)
  | assign property value hslot => exact .assign _ property value _
  | render hslot => exact .render _ _
  | embed hclass => exact .embed _

theorem BindsBody.typedAs {body : List Statement} {bound : List BoundStatement}
    {final : List Local} (h : BindsBody (scopeOf references classes unit) locals body bound final) :
    List.Forall₂ (fun stmt bound ↦ TypedAs references unit stmt.kind bound.op) body bound := by
  induction h with
  | nil => exact .nil
  | cons first _ ih => exact .cons first.typedAs ih

theorem typedClass_of_bindClass {index : Nat} {declaration : ClassDeclaration}
    (h : Clean (bindClass (scopeOf references classes unit) index declaration).2) :
    ∃ current, (bindClass (scopeOf references classes unit) index declaration).1 = some current ∧
      TypedClass references unit declaration current := by
  unfold bindClass at h ⊢
  cases hbase : resolve (scopeOf references classes unit).references
      (scopeOf references classes unit).used declaration.base with
  | error problem =>
    simp only [hbase] at h
    exact absurd h (not_clean_of_mem List.mem_cons_self (isError_of_resolve hbase))
  | ok base =>
    simp only [hbase] at h
    have hbody := binds_body (clean_append.mp h).1
    exact ⟨_, rfl, rfl, ⟨base.2, resolve_eq_ok_iff.mp hbase⟩, hbody.typedAs⟩

/-! ## Scripts -/

theorem clean_flatMap {α : Type} {items : List α} {findings : α → List Finding} :
    Clean (items.flatMap findings) ↔ ∀ item ∈ items, Clean (findings item) := by
  simp only [Clean, List.mem_flatMap]
  constructor
  · intro h item hitem finding hfinding
    exact h finding ⟨item, hitem, hfinding⟩
  · rintro h finding ⟨item, hitem, hfinding⟩
    exact h item hitem finding hfinding

theorem clean_useFindings_iff :
    Clean (useFindings references unit) ↔
      ∀ use ∈ unit.uses, ∃ module ∈ references, module.name = use.text := by
  simp only [useFindings, Clean, List.mem_map, List.mem_filter, Option.isNone_iff_eq_none]
  constructor
  · intro h use huse
    cases hfind : references.find use.text with
    | some module =>
      exact ⟨module, List.mem_of_find?_eq_some hfind, References.name_of_find hfind⟩
    | none =>
      exact absurd (h _ ⟨use, ⟨huse, hfind⟩, rfl⟩) (by simp [Finding.isError, Problem.severity])
  · rintro h finding ⟨use, ⟨huse, hnone⟩, rfl⟩
    obtain ⟨module, hmodule, hname⟩ := h use huse
    have hother := List.find?_eq_none.mp hnone module hmodule
    exact absurd (decide_eq_true hname) hother

theorem clean_bindUnit_iff {index : Nat} :
    Clean (bindUnit references classes unit index).2 ↔
      (∀ use ∈ unit.uses, ∃ module ∈ references, module.name = use.text) ∧
        ∀ declaration ∈ unit.classes, WellFormedClass references classes unit declaration := by
  rw [← clean_useFindings_iff]
  refine clean_append.trans (and_congr_right fun _ ↦ ?_)
  rw [clean_flatMap, List.forall_mem_map]
  exact forall₂_congr fun declaration _ ↦ clean_bindClass_iff

/-- Classes are reported as duplicates exactly if a name has been declared before. -/
theorem clean_duplicateFindings_iff {seen : List String} {declared : List (String × Location)} :
    Clean (duplicateFindings seen declared) ↔
      (declared.map Prod.fst).Nodup ∧ ∀ name ∈ declared.map Prod.fst, name ∉ seen := by
  refine ⟨nodup_of_duplicateFindings, ?_⟩
  rintro ⟨hnodup, hfresh⟩
  induction declared generalizing seen with
  | nil => exact clean_nil
  | cons first rest ih =>
    rcases first with ⟨name, location⟩
    rw [List.map_cons] at hnodup hfresh
    obtain ⟨hname, hrest⟩ := List.nodup_cons.mp hnodup
    obtain ⟨hfirst, hothers⟩ := List.forall_mem_cons.mp hfresh
    rw [duplicateFindings, if_neg (mt List.contains_iff_mem.mp hfirst)]
    refine ih hrest fun other hother hmem ↦ ?_
    rcases List.mem_cons.mp hmem with rfl | hmem
    · exact hname hother
    · exact hothers other hother hmem

theorem clean_survey_iff {units : List ScriptUnit} :
    Clean (survey units references).2 ↔ WellFormed units references := by
  have hunits : ∀ classes : List String,
      Clean ((units.zipIdx.map fun entry ↦
        bindUnit references classes entry.1 entry.2).flatMap Prod.snd) ↔
      ∀ unit ∈ units, (∀ use ∈ unit.uses, ∃ module ∈ references, module.name = use.text) ∧
        ∀ declaration ∈ unit.classes, WellFormedClass references classes unit declaration := by
    intro classes
    rw [clean_flatMap, List.forall_mem_map]
    conv_rhs => rw [← List.zipIdx_map_fst 0 units, List.forall_mem_map]
    exact forall₂_congr fun entry _ ↦ clean_bindUnit_iff
  refine clean_append.trans ((and_congr clean_duplicateFindings_iff (hunits _)).trans ?_)
  rw [map_fst_declaredClasses]
  constructor
  · rintro ⟨⟨hnames, _⟩, hunits⟩
    exact ⟨hnames, fun unit hunit ↦ (hunits unit hunit).1, fun unit hunit ↦ (hunits unit hunit).2⟩
  · intro h
    refine ⟨⟨h.names, fun _ _ ↦ List.not_mem_nil⟩, fun unit hunit ↦ ?_⟩
    exact ⟨h.uses unit hunit, h.classes unit hunit⟩

/-- What binding reports instead of a module are errors, and there is at least one. -/
theorem isError_of_bind {units : List ScriptUnit} {diagnostics : List Diagnostic}
    (h : bind units references = .error diagnostics) :
    diagnostics ≠ [] ∧ ∀ diagnostic ∈ diagnostics, diagnostic.isError = true := by
  unfold bind at h
  simp only at h
  split at h
  · contradiction
  · rename_i hfound
    cases h
    constructor
    · rw [ne_eq, List.map_eq_nil_iff, ← List.isEmpty_iff]
      exact hfound
    · intro diagnostic hdiagnostic
      obtain ⟨finding, hfinding, rfl⟩ := List.mem_map.mp hdiagnostic
      exact (List.mem_filter.mp hfinding).2

/-- Binding gives a module for exactly the well-formed scripts, with the types that their names
stand for; for any other it reports errors only. -/
theorem bind_accepts_exactly_wellFormed (units : List ScriptUnit) (references : References) :
    ((∃ module, bind units references = .ok module) ↔ WellFormed units references) ∧
      (∀ module, bind units references = .ok module →
        List.Forall₂ (fun declaration current ↦
            TypedClass references declaration.1 declaration.2 current)
          (declarations units) module.classes) ∧
      ∀ diagnostics, bind units references = .error diagnostics →
        diagnostics ≠ [] ∧ ∀ diagnostic ∈ diagnostics, diagnostic.isError = true := by
  refine ⟨?_, fun module hmodule ↦ ?_, fun diagnostics ↦ isError_of_bind⟩
  · simp only [bind_eq_ok_iff, exists_and_left, exists_eq, and_true]
    exact clean_survey_iff
  · exact forall₂_of_bind (fun _ _ _ ↦ typedClass_of_bindClass) hmodule

/-- A script with a form, to which a given property of the form's box is set. -/
def formUnit (property : String) : ScriptUnit where
  path := "form.kps"
  lineMap := {}
  items := [
    .uses ⟨"web", ["ui"], ⟨1, 5⟩⟩,
    .uses ⟨"web", ["forms"], ⟨2, 5⟩⟩,
    .uses ⟨"web", ["ui"], ⟨3, 5⟩⟩,
    .declares {
      name := "Form"
      base := ⟨"Page", [], ⟨4, 14⟩⟩
      start := ⟨4, 1⟩
      body := [
        ⟨.create "box" ⟨"web", ["forms", "Box"], ⟨5, 15⟩⟩, ⟨5, 3⟩⟩,
        ⟨.assign "box" property "Name", ⟨6, 3⟩⟩,
        ⟨.render "box", ⟨7, 3⟩⟩,
        ⟨.embed "Foot", ⟨8, 3⟩⟩] }]

def footUnit : ScriptUnit where
  path := "foot.kps"
  lineMap := {}
  items := [
    .uses ⟨"web", ["ui"], ⟨1, 5⟩⟩,
    .declares { name := "Foot", base := ⟨"Page", [], ⟨2, 14⟩⟩, start := ⟨2, 1⟩, body := [] }]

/-- The second module of the name `web.ui` is never looked at. -/
def formReferences : References := [
  .ofTypes "web.ui" [("Page", { isComponent := false })],
  .ofTypes "web.forms" [("Box", { isComponent := true, assignable := .ofNames ["Title"] })],
  .ofTypes "web.ui" [("Box", { isComponent := false })]]

theorem bind_formUnit :
    WellFormed [formUnit "Title", footUnit] formReferences ∧
      ¬WellFormed [formUnit "Size", footUnit] formReferences := by
  have hright : ((bind [formUnit "Title", footUnit] formReferences).toOption.isSome) = true := by
    decide +kernel
  have hwrong : ((bind [formUnit "Size", footUnit] formReferences).toOption.isSome) = false := by
    decide +kernel
  constructor
  · rw [← (bind_accepts_exactly_wellFormed _ _).1]
    cases hbind : bind [formUnit "Title", footUnit] formReferences with
    | ok module => exact ⟨module, rfl⟩
    | error diagnostics => simp [hbind, Except.toOption] at hright
  · rw [← (bind_accepts_exactly_wellFormed _ _).1]
    rintro ⟨module, hbind⟩
    simp [hbind, Except.toOption] at hwrong

end PageScript.Binding
