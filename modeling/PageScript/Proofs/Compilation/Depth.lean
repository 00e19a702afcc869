import Mathlib.Logic.Relation
import PageScript.Proofs.Compilation.Availability
import PageScript.Proofs.Rendering.Limits

/-!
# The limit is exact

Classes and the classes they embed form a graph, which may well have cycles. A rendering follows
every walk of this graph that starts at its class. On a host that has all the components and lets
their properties be set, nothing else can end it early: it comes to its limit exactly if some walk
is longer than the limit.
-/

namespace PageScript

namespace Script

/-! ## The graph of classes -/

/-- The class that a statement embeds. -/
def Statement.Kind.embedded? : Statement.Kind → Option String
  | .embed className => some className
  | _ => none

/-- The classes that a body embeds. -/
def embeddedBy (body : List Statement) : List String :=
  body.filterMap fun stmt ↦ stmt.kind.embedded?

section

variable {units : List ScriptUnit} {outer : String} {length : Nat}

/-- A class embeds another. -/
def Embeds (units : List ScriptUnit) (outer inner : String) : Prop :=
  ∃ declaration ∈ declarations units,
    declaration.2.name = outer ∧ inner ∈ embeddedBy declaration.2.body

/-- There is a walk of at least `length` edges from a class. -/
def Walks (units : List ScriptUnit) (length : Nat) (className : String) : Prop :=
  ∃ path, List.IsChain (Embeds units) (className :: path) ∧ length ≤ path.length

theorem walks_zero (className : String) : Walks units 0 className :=
  ⟨[], .singleton className, Nat.zero_le _⟩

theorem walks_succ :
    Walks units (length + 1) outer ↔ ∃ declaration ∈ declarations units,
      declaration.2.name = outer ∧
        ∃ inner ∈ embeddedBy declaration.2.body, Walks units length inner := by
  constructor
  · intro ⟨path, hchain, hlength⟩
    obtain ⟨inner, rest, rfl⟩ := List.exists_cons_of_length_pos (Nat.zero_lt_of_lt hlength)
    obtain ⟨⟨declaration, hmem, hname, hinner⟩, hrest⟩ := List.isChain_cons_cons.mp hchain
    exact ⟨declaration, hmem, hname, inner, hinner, rest, hrest, Nat.le_of_succ_le_succ hlength⟩
  · intro ⟨declaration, hmem, hname, inner, hinner, path, hchain, hlength⟩
    have hembeds : Embeds units outer inner := ⟨declaration, hmem, hname, hinner⟩
    exact ⟨inner :: path, List.isChain_cons_cons.mpr ⟨hembeds, hchain⟩, Nat.succ_le_succ hlength⟩

instance Walks.decidable : ∀ length className, Decidable (Walks units length className)
  | 0, className => isTrue (walks_zero className)
  | length + 1, _ =>
    have (inner : String) := Walks.decidable length inner
    decidable_of_iff _ walks_succ.symm

/-- If no two classes have the same name, walks go on as the body of a class says. -/
theorem walks_succ_of_mem (hnodup : (declaredNames units).Nodup)
    {declaration : ScriptUnit × ClassDeclaration} (hmem : declaration ∈ declarations units) :
    Walks units (length + 1) declaration.2.name ↔
      ∃ inner ∈ embeddedBy declaration.2.body, Walks units length inner := by
  rw [walks_succ]
  constructor
  · intro ⟨found, hfound, hname, hwalks⟩
    obtain rfl := List.inj_on_of_nodup_map hnodup hfound hmem hname
    exact hwalks
  · intro hwalks
    exact ⟨declaration, hmem, rfl, hwalks⟩

/-- From a class one comes to a class that embeds itself, maybe by way of others. -/
def ReachesCycle (units : List ScriptUnit) (className : String) : Prop :=
  ∃ found, Relation.ReflTransGen (Embeds units) className found ∧
    Relation.TransGen (Embeds units) found found

theorem ReachesCycle.exists_embeds (h : ReachesCycle units outer) :
    ∃ inner, Embeds units outer inner ∧ ReachesCycle units inner := by
  obtain ⟨found, hreaches, hcycle⟩ := h
  rcases Relation.ReflTransGen.cases_head hreaches with rfl | ⟨inner, hembeds, hrest⟩
  · obtain ⟨inner, hembeds, hback⟩ := Relation.TransGen.head'_iff.mp hcycle
    exact ⟨inner, hembeds, outer, hback, hcycle⟩
  · exact ⟨inner, hembeds, found, hrest, hcycle⟩

/-- In a cycle, and on the way to it, there are walks of any length. -/
theorem ReachesCycle.walks (h : ReachesCycle units outer) (length : Nat) :
    Walks units length outer := by
  induction length generalizing outer with
  | zero => exact walks_zero outer
  | succ length ih =>
    obtain ⟨inner, ⟨declaration, hmem, hname, hembedded⟩, hinner⟩ := h.exists_embeds
    exact walks_succ.mpr ⟨declaration, hmem, hname, inner, hembedded, ih hinner⟩

end

/-! ## Hosts -/

variable {κ : Type} [Component κ]

/-- The properties that statements set on a local. -/
def assigned (name : String) : List Statement → List (String × String)
  | [] => []
  | stmt :: rest =>
    match stmt.kind with
    | .assign target property value =>
      if target = name then (property, value) :: assigned name rest else assigned name rest
    | _ => assigned name rest

/-- Whether a component lets properties be set one after the other. -/
def takes (component : κ) : List (String × String) → Bool
  | [] => true
  | (property, value) :: rest =>
    match Component.setProperty component property value with
    | .ok changed => takes changed rest
    | .error _ => false

/-- Whether a host has the type of a component that a statement creates, and the component takes all
that the rest of the body sets on it. -/
def servesStatement (references : References) (unit : ScriptUnit) (host : Host κ)
    (rest : List Statement) : Statement.Kind → Bool
  | .create name type =>
    (typeOf references unit type).all fun found ↦
      (host.instantiate found.module found.name).any fun component ↦
        takes component (assigned name rest)
  | _ => true

def servesBody (references : References) (unit : ScriptUnit) (host : Host κ) :
    List Statement → Bool
  | [] => true
  | stmt :: rest =>
    servesStatement references unit host rest stmt.kind && servesBody references unit host rest

/-- Whether all components that some scripts create can be instantiated on a host, and setting their
properties never fails. -/
def serves (references : References) (units : List ScriptUnit) (host : Host κ) : Bool :=
  (declarations units).all fun declaration ↦
    servesBody references declaration.1 host declaration.2.body

/-- Every local takes what is still to be set on it. -/
def Ready (locals : List (String × κ)) (body : List Statement) : Prop :=
  ∀ name component, locals.lookup name = some component → takes component (assigned name body)

theorem ready_nil (body : List Statement) : Ready ([] : List (String × κ)) body := by
  intro name component h
  cases h

/-- Binding a local to a component that is ready. -/
theorem Ready.cons {locals : List (String × κ)} {stmt : Statement} {rest : List Statement}
    (h : Ready locals (stmt :: rest)) {target : String} {component : κ}
    (hcomponent : takes component (assigned target rest))
    (hother : ∀ name ≠ target, assigned name (stmt :: rest) = assigned name rest) :
    Ready ((target, component) :: locals) rest := by
  intro name held hheld
  by_cases hname : name = target
  · subst hname
    rw [List.lookup_cons_self, Option.some.injEq] at hheld
    rwa [← hheld]
  · rw [List.lookup_cons, beq_false_of_ne hname] at hheld
    rw [← hother name hname]
    exact h name held hheld

/-! ## Runs -/

/-- Failures that do not happen in scripts that compile. -/
def Failure.isUnbound : Failure → Bool
  | .unknownType _ => true
  | .unboundLocal _ => true
  | .unknownClass _ => true
  | _ => false

/-- A run that can only fail at the limit does so exactly if it goes beyond it. -/
inductive Verdict {α : Type} (limit : Nat) (beyond : Prop) (holds : α → Prop) :
    Except Failure α → Prop
  | ok {value : α} (hvalue : holds value) (h : ¬beyond) : Verdict limit beyond holds (.ok value)
  | includeDepth (className : String) (h : beyond) :
      Verdict limit beyond holds (.error (.includeDepth className limit))
  | unbound {failure : Failure} (h : failure.isUnbound) :
      Verdict limit beyond holds (.error failure)

theorem Verdict.congr {α : Type} {limit : Nat} {beyond other : Prop} {holds : α → Prop}
    {outcome : Except Failure α} (h : Verdict limit beyond holds outcome)
    (hiff : beyond ↔ other) : Verdict limit other holds outcome := by
  rwa [← propext hiff]

theorem Verdict.bind {α β : Type} {limit : Nat} {beyond further : Prop} {holds : α → Prop}
    {target : β → Prop} {first : Except Failure α} {next : α → Except Failure β}
    (h : Verdict limit beyond holds first)
    (hnext : ∀ value, holds value → Verdict limit further target (next value)) :
    Verdict limit (beyond ∨ further) target (first >>= next) := by
  cases h with
  | ok hvalue hbeyond => exact (hnext _ hvalue).congr (or_iff_right hbeyond).symm
  | includeDepth className hbeyond => exact .includeDepth className (.inl hbeyond)
  | unbound hfailure => exact .unbound hfailure

variable {references : References} {unit : ScriptUnit} {host : Host κ}
  {embed : String → Except Failure String} {limit : Nat} {far : String → Prop}

/-- A statement that embeds nothing does not come to the limit. -/
theorem verdict_of_embedded?_eq_none {α : Type} {holds : α → Prop} {outcome : Except Failure α}
    {kind : Statement.Kind} (hkind : kind.embedded? = none)
    (h : Verdict limit False holds outcome) :
    Verdict limit (∃ inner ∈ kind.embedded?, far inner) holds outcome :=
  h.congr (by simp [hkind])

/-- One statement on a host that serves it. -/
theorem verdict_statement
    (hembed : ∀ inner, Verdict limit (far inner) (fun _ ↦ True) (embed inner))
    {locals : List (String × κ)} {stmt : Statement} {rest : List Statement}
    (hready : Ready locals (stmt :: rest))
    (hserves : servesStatement references unit host rest stmt.kind) :
    Verdict limit (∃ inner ∈ stmt.kind.embedded?, far inner) (fun next ↦ Ready next.2 rest)
      (interpretStatement references unit host embed locals stmt.kind) := by
  rcases stmt with ⟨kind, start⟩
  cases kind with
  | write text => exact verdict_of_embedded?_eq_none rfl (.ok hready id)
  | create name type =>
    apply verdict_of_embedded?_eq_none rfl
    simp only [interpretStatement]
    cases htype : typeOf references unit type with
    | none => exact .unbound rfl
    | some found =>
      simp only [servesStatement, htype, Option.all_some, Option.any_eq_true] at hserves
      obtain ⟨component, hinstantiate, htakes⟩ := hserves
      simp only [hinstantiate]
      exact .ok (hready.cons htakes fun _ _ ↦ rfl) id
  | assign target property value =>
    apply verdict_of_embedded?_eq_none rfl
    simp only [interpretStatement]
    cases hlookup : locals.lookup target with
    | none => exact .unbound rfl
    | some component =>
      have htakes := hready target component hlookup
      simp only [assigned, if_pos, takes] at htakes
      cases hset : Component.setProperty component property value with
      | error reason => simp [hset] at htakes
      | ok changed =>
        simp only [hset] at htakes ⊢
        exact .ok (hready.cons htakes fun name hname ↦ if_neg (Ne.symm hname)) id
  | render name =>
    apply verdict_of_embedded?_eq_none rfl
    simp only [interpretStatement]
    cases hlookup : locals.lookup name with
    | none => exact .unbound rfl
    | some component => exact .ok hready id
  | embed inner =>
    have hbind : Verdict limit (far inner ∨ False) (fun next ↦ Ready next.2 rest)
        (interpretStatement references unit host embed locals (.embed inner)) :=
      (hembed inner).bind fun text _ ↦ .ok hready id
    exact hbind.congr (by simp [Statement.Kind.embedded?])

theorem exists_embeddedBy_cons {stmt : Statement} {rest : List Statement} :
    (∃ inner ∈ embeddedBy (stmt :: rest), far inner) ↔
      (∃ inner ∈ stmt.kind.embedded?, far inner) ∨ ∃ inner ∈ embeddedBy rest, far inner := by
  simp only [embeddedBy, List.mem_filterMap, List.mem_cons, Option.mem_def]
  grind

theorem verdict_body
    (hembed : ∀ inner, Verdict limit (far inner) (fun _ ↦ True) (embed inner))
    {locals : List (String × κ)} {body : List Statement} (hready : Ready locals body)
    (hserves : servesBody references unit host body) :
    Verdict limit (∃ inner ∈ embeddedBy body, far inner) (fun _ ↦ True)
      (interpretBody references unit host embed locals body) := by
  induction body generalizing locals with
  | nil => exact .ok trivial (by simp [embeddedBy])
  | cons stmt rest ih =>
    rw [servesBody, Bool.and_eq_true] at hserves
    have hfirst := verdict_statement hembed hready hserves.1
    have hrest (next : String × List (String × κ)) (hnext : Ready next.2 rest) :
        Verdict limit ((∃ inner ∈ embeddedBy rest, far inner) ∨ False) (fun _ ↦ True)
          (interpretBody references unit host embed next.2 rest >>= fun more ↦
            .ok (next.1 ++ more)) :=
      (ih hnext hserves.2).bind fun _ _ ↦ .ok trivial id
    refine (hfirst.bind hrest).congr ?_
    rw [or_false, exists_embeddedBy_cons]

/-- A class of some scripts, if each class it embeds comes to the limit exactly if there is a walk
of `budget` edges from it. -/
theorem verdict_of_mem {units : List ScriptUnit} (hnodup : (declaredNames units).Nodup)
    (hserves : serves references units host) {declaration : ScriptUnit × ClassDeclaration}
    (hmem : declaration ∈ declarations units) {budget : Nat}
    (hembed : ∀ inner, Verdict limit (Walks units budget inner) (fun _ ↦ True) (embed inner)) :
    Verdict limit (Walks units (budget + 1) declaration.2.name) (fun _ ↦ True)
      (interpretBody references declaration.1 host embed [] declaration.2.body) := by
  have hbody : servesBody references declaration.1 host declaration.2.body :=
    List.all_eq_true.mp hserves declaration hmem
  refine (verdict_body hembed (ready_nil _) hbody).congr ?_
  exact (walks_succ_of_mem hnodup hmem).symm

/-- A class comes to the limit exactly if some walk has more edges than there are levels left. -/
theorem verdict_class {units : List ScriptUnit} (hnodup : (declaredNames units).Nodup)
    (hserves : serves references units host) (limit budget : Nat)
    {declaration : ScriptUnit × ClassDeclaration} (hmem : declaration ∈ declarations units) :
    Verdict limit (Walks units (budget + 1) declaration.2.name) (fun _ ↦ True)
      (interpretClass units references host limit budget declaration) := by
  induction budget generalizing declaration with
  | zero =>
    -- Every embedding comes to the limit here, and a walk of one edge is all it takes.
    apply verdict_of_mem hnodup hserves hmem
    intro inner
    exact .includeDepth inner (walks_zero inner)
  | succ budget ih =>
    apply verdict_of_mem hnodup hserves hmem
    intro inner
    split
    · rename_i found hfound
      have hname : found.2.name = inner := by simpa using List.find?_some hfound
      rw [← hname]
      exact ih (List.mem_of_find?_eq_some hfound)
    · exact .unbound rfl

end Script

open Script Binding

/-! ## Compiled modules -/

variable {κ : Type} [Component κ]

/-- Rendering a class ends, and it comes to the limit exactly if `beyond` holds; otherwise it gives
a text. Counting the levels that are entered determines what it gives. -/
structure LimitIsExact (module : LoadedModule) (host : Host κ) (limits : LimitSettings)
    (index : Nat) (beyond : Prop) : Prop where
  ends : ∃! enter, Rendering.CountsLevels module host limits.maxIncludeDepth enter
  counted : ∀ enter, Rendering.CountsLevels module host limits.maxIncludeDepth enter →
    render module host limits index = enter 0 index
  includeDepth : (∃ className location, render module host limits index =
    .error (.includeDepth className limits.maxIncludeDepth location)) ↔ beyond
  text : ¬beyond → ∃ text, render module host limits index = .ok text

/-- What is said of a run holds of a rendering that agrees with it. -/
theorem Agrees.beyond_or_text {limit : Nat} {beyond : Prop} {first : Except RenderError String}
    {outcome : Except Failure String} (hagrees : Agrees Eq first outcome)
    (hverdict : Verdict limit beyond (fun _ ↦ True) outcome) :
    (beyond ∧ ∃ className location, first = .error (.includeDepth className limit location)) ∨
      ¬beyond ∧ ∃ text, first = .ok text := by
  cases hverdict with
  | ok _ hbeyond =>
    cases hagrees
    exact .inr ⟨hbeyond, _, rfl⟩
  | includeDepth className hbeyond =>
    cases hagrees
    exact .inl ⟨hbeyond, _, _, rfl⟩
  | unbound hfailure => cases hagrees <;> cases hfailure

theorem limitIsExact_of_agrees {module : LoadedModule} {host : Host κ} {limits : LimitSettings}
    {index : Nat} {beyond : Prop} {outcome : Except Failure String}
    (hagrees : Agrees Eq (render module host limits index) outcome)
    (hverdict : Verdict limits.maxIncludeDepth beyond (fun _ ↦ True) outcome) :
    LimitIsExact module host limits index beyond := by
  have hends := Rendering.existsUnique_countsLevels module host limits.maxIncludeDepth
  have hcounted (enter : Nat → Nat → Except RenderError String)
      (henter : Rendering.CountsLevels module host limits.maxIncludeDepth enter) :
      render module host limits index = enter 0 index := (henter.eq_runAt 0 index).symm
  obtain ⟨hbeyond, hdepth⟩ | ⟨hbeyond, text, htext⟩ := hagrees.beyond_or_text hverdict
  · exact ⟨hends, hcounted, iff_of_true hdepth hbeyond, fun h ↦ absurd hbeyond h⟩
  · refine ⟨hends, hcounted, iff_of_false ?_ hbeyond, fun _ ↦ ⟨text, htext⟩⟩
    rw [htext]
    simp

/-- What is loaded from a compiled module keeps to its limit exactly: a class goes beyond it if some
walk from the class has more edges than the limit. That is so for any limit where the class comes
to a cycle. -/
theorem limitIsExact_of_compile {ω : Type} {check : CancelCheck ω} {input : CompileInput}
    {world world' : ω} {compiled : CompiledModule}
    (hcompile : (compile check input).run.run world = (.ok compiled, world'))
    (himage : compiled.image.length < UInt32.size)
    (hsymbols : ∀ bytes ∈ compiled.symbols, bytes.length < UInt32.size) :
    ∃ units loaded, input.parse = .ok units ∧
      LoadedModule.ofBytes compiled.image compiled.symbols = .ok loaded ∧
      loaded.classCount = (declarations units).length ∧
      ∀ unit ∈ units, ∀ declaration ∈ unit.classes, ∃ index,
        loaded.findClass declaration.name = some index ∧
        ∀ {κ : Type} [Component κ] (host : Host κ), serves input.references units host →
          ∀ limits : LimitSettings,
            LimitIsExact loaded host limits index
              (Walks units (limits.maxIncludeDepth + 1) declaration.name) ∧
            (ReachesCycle units declaration.name → ∃ className location,
              render loaded host limits index =
                .error (.includeDepth className limits.maxIncludeDepth location)) := by
  obtain ⟨units, module, hparse, hbind, rfl⟩ := compile_cases hcompile
  have hfit := fit_of_emit himage hsymbols
  have hnodup := (binds_of_bind hbind).1
  obtain ⟨hfrom, hnames⟩ := boundFrom_streams hbind hfit
  obtain ⟨loaded, hload, hcount, _⟩ := Emission.render_streams hfit hnames hfrom.check_eq
  obtain ⟨same, hsame, hfind, hagrees⟩ := agrees_streams hbind hfit
  obtain rfl : same = loaded := Except.ok.inj (hsame.symm.trans hload)
  refine ⟨units, same, hparse, hload, hcount.trans hfrom.classes.length_eq.symm, ?_⟩
  intro unit hunit declaration hdeclaration
  have hmem : (unit, declaration) ∈ declarations units :=
    List.mem_flatMap.mpr ⟨unit, hunit, List.mem_map_of_mem hdeclaration⟩
  obtain ⟨index, hindex⟩ := List.mem_iff_getElem?.mp hmem
  refine ⟨index, ?_, ?_⟩
  · rw [hfind]
    refine idxOf?_of_nodup hnodup ?_
    rw [List.getElem?_map, hindex, Option.map_some]
  · intro κ _ host hserves limits
    have hverdict := verdict_class hnodup hserves limits.maxIncludeDepth limits.maxIncludeDepth hmem
    have hexact := limitIsExact_of_agrees (hagrees host limits index _ hindex) hverdict
    exact ⟨hexact, fun hcycle ↦ hexact.includeDepth.mpr (hcycle.walks _)⟩

theorem limitIsExact_greeting :
    ∃ loaded index, LoadedModule.ofBytes (greetingInput.emit Emission.greeting).image
        (greetingInput.emit Emission.greeting).symbols = .ok loaded ∧
      loaded.findClass "Main" = some index ∧
      (∃ className location, render loaded greetingHost ⟨0⟩ index =
        .error (.includeDepth className 0 location)) ∧
      ∃ text, render loaded greetingHost ⟨1⟩ index = .ok text := by
  obtain ⟨units, loaded, hparse, hload, _, hexact⟩ := limitIsExact_of_compile
    (compile_of_bound greetingInput_bound ()) greetingInput_fit.image greetingInput_fit.symbols
  have hunits : units = greetingInput.parse.toOption.getD [] := by
    rw [hparse]
    rfl
  obtain ⟨hserves, ⟨hbeyond, hwithin⟩, unit, hunit, declaration, hdeclaration, hname⟩ :
      serves greetingInput.references units greetingHost ∧
        (Walks units 1 "Main" ∧ ¬Walks units 2 "Main") ∧
        ∃ unit ∈ units, ∃ declaration ∈ unit.classes, declaration.name = "Main" := by
    rw [hunits]
    decide +kernel
  obtain ⟨index, hfind, hlimits⟩ := hexact unit hunit declaration hdeclaration
  rw [hname] at hfind hlimits
  refine ⟨loaded, index, hload, hfind, ?_, ?_⟩
  · exact (hlimits greetingHost hserves ⟨0⟩).1.includeDepth.mpr hbeyond
  · exact (hlimits greetingHost hserves ⟨1⟩).1.text hwithin

end PageScript
