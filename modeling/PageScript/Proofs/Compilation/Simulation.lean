import PageScript.Proofs.Binding.Judgement
import PageScript.Proofs.Binding.Resolution
import PageScript.Proofs.Rendering.Bound

/-!
# Bound modules and scripts

A bound module runs as the scripts it was bound from: the slot of a local holds the component that
was last bound to its name. Since a local is declared before it is used, no slot is ever found
empty.
-/

namespace PageScript

open Script Binding

/-! ## Outcomes -/

/-- A rendering and a run of scripts end alike: in related values, or in the same failure, of which
the rendering may know the place. -/
inductive Agrees {α β : Type} (related : α → β → Prop) :
    Except RenderError α → Except Failure β → Prop
  | ok {first : α} {second : β} (h : related first second) : Agrees related (.ok first) (.ok second)
  | typeUnavailable (type : String) (location : Option Location) :
      Agrees related (.error (.typeUnavailable type location)) (.error (.typeUnavailable type))
  | property (name reason : String) (location : Option Location) :
      Agrees related (.error (.property name reason location)) (.error (.property name reason))
  | includeDepth (className : String) (limit : Nat) (location : Option Location) :
      Agrees related (.error (.includeDepth className limit location))
        (.error (.includeDepth className limit))

theorem Agrees.bind {α β γ δ : Type} {related : α → β → Prop} {target : γ → δ → Prop}
    {first : Except RenderError α} {second : Except Failure β}
    {next : α → Except RenderError γ} {other : β → Except Failure δ}
    (h : Agrees related first second)
    (hnext : ∀ value partner, related value partner → Agrees target (next value) (other partner)) :
    Agrees target (first >>= next) (second >>= other) := by
  cases h with
  | ok h => exact hnext _ _ h
  | typeUnavailable type location => exact .typeUnavailable type location
  | property name reason location => exact .property name reason location
  | includeDepth className limit location => exact .includeDepth className limit location

/-! ## Slots and locals -/

namespace Binding

theorem slotOf_lt {locals : List Local} {name : String} {slot : Nat}
    (h : slotOf locals name = some slot) : slot < locals.length :=
  (List.findIdx?_eq_some_iff_getElem.mp h).1

/-- The local in the slot of a name has this name. -/
theorem name_of_slotOf {locals : List Local} {name : String} {slot : Nat}
    (h : slotOf locals name = some slot) : (locals[slot]?).map Local.name = some name := by
  obtain ⟨hlt, hname, _⟩ := List.findIdx?_eq_some_iff_getElem.mp h
  rw [List.getElem?_eq_getElem hlt, Option.map_some, of_decide_eq_true hname]

theorem eq_of_slotOf {locals : List Local} {name other : String} {slot : Nat}
    (hname : slotOf locals name = some slot) (hother : slotOf locals other = some slot) :
    name = other :=
  Option.some.inj ((name_of_slotOf hname).symm.trans (name_of_slotOf hother))

/-- A new local takes the next slot and leaves the others theirs. -/
theorem slotOf_append {locals : List Local} {fresh : Local} {name : String} {slot : Nat}
    (h : slotOf (locals ++ [fresh]) name = some slot) :
    slotOf locals name = some slot ∨ name = fresh.name ∧ slot = locals.length := by
  rw [slotOf, List.findIdx?_append, Option.or_eq_some_iff] at h
  rcases h with h | ⟨_, h⟩
  · exact .inl h
  · by_cases hname : fresh.name = name
    · rw [List.findIdx?_singleton, if_pos (decide_eq_true hname), Option.map_some, Nat.zero_add,
        Option.some.injEq] at h
      exact .inr ⟨hname.symm, h.symm⟩
    · simp [List.findIdx?_singleton, hname] at h

end Binding

variable {κ : Type}

/-- Slots hold what the locals of a running class are bound to. -/
def Matches (locals : List Local) (slots : Slots κ) (environment : List (String × κ)) : Prop :=
  ∀ name slot, slotOf locals name = some slot → ∃ component,
    slots.filled.lookup (UInt32.ofNat slot) = some component ∧
      environment.lookup name = some component

theorem matches_nil (slots : Slots κ) : Matches [] slots [] := by
  intro name slot hslot
  simp [slotOf] at hslot

/-- Filling the slot of a name binds the name, if no other name has the slot. -/
theorem Matches.cons {locals next : List Local} {slots : Slots κ}
    {environment : List (String × κ)} (h : Matches locals slots environment) {name : String}
    {slot : Nat} (hsize : next.length < UInt32.size) (hslot : slot < next.length) (component : κ)
    (hnext : ∀ other number, slotOf next other = some number →
      other = name ∧ number = slot ∨
        other ≠ name ∧ number ≠ slot ∧ slotOf locals other = some number) :
    Matches next { slots with filled := (UInt32.ofNat slot, component) :: slots.filled }
      ((name, component) :: environment) := by
  intro other number hnumber
  have hlt := slotOf_lt hnumber
  obtain ⟨rfl, rfl⟩ | ⟨hname, hne, hold⟩ := hnext other number hnumber
  · exact ⟨component, List.lookup_cons_self, List.lookup_cons_self⟩
  · have hword : UInt32.ofNat number ≠ UInt32.ofNat slot := by
      intro heq
      have hnat := congrArg UInt32.toNat heq
      rw [Wire.toNat_ofNat_of_lt (by omega), Wire.toNat_ofNat_of_lt (by omega)] at hnat
      exact hne hnat
    obtain ⟨held, hheld, hbound⟩ := h other number hold
    refine ⟨held, ?_, ?_⟩
    · rw [List.lookup_cons, beq_false_of_ne hword]
      exact hheld
    · rw [List.lookup_cons, beq_false_of_ne hname]
      exact hbound

theorem Matches.assign {locals : List Local} {slots : Slots κ} {environment : List (String × κ)}
    (h : Matches locals slots environment) {name : String} {slot : Nat}
    (hsize : locals.length < UInt32.size) (hslot : slotOf locals name = some slot) (component : κ) :
    Matches locals { slots with filled := (UInt32.ofNat slot, component) :: slots.filled }
      ((name, component) :: environment) := by
  apply h.cons hsize (slotOf_lt hslot) component
  intro other number hnumber
  by_cases hname : other = name
  · subst hname
    exact .inl ⟨rfl, Option.some.inj (hnumber.symm.trans hslot)⟩
  · exact .inr ⟨hname, fun heq ↦ hname (eq_of_slotOf (heq ▸ hnumber) hslot), hnumber⟩

/-- A component that was created is found by its name from then on. -/
theorem Matches.create {locals : List Local} {slots : Slots κ} {environment : List (String × κ)}
    (h : Matches locals slots environment) {fresh : Local}
    (hsize : (locals ++ [fresh]).length < UInt32.size) (hfresh : slotOf locals fresh.name = none)
    (component : κ) :
    Matches (locals ++ [fresh])
      { slots with filled := (UInt32.ofNat locals.length, component) :: slots.filled }
      ((fresh.name, component) :: environment) := by
  apply h.cons hsize (by simp) component
  intro other number hnumber
  obtain hold | ⟨hname, hlast⟩ := slotOf_append hnumber
  · refine .inr ⟨fun heq ↦ ?_, Nat.ne_of_lt (slotOf_lt hold), hold⟩
    rw [heq, hfresh] at hold
    contradiction
  · exact .inl ⟨hname, hlast⟩

/-- A slot within bounds can always be filled. -/
theorem put_ofNat {slots : Slots κ} {slot : Nat} (hslot : slot < slots.count)
    (hcount : slots.count < UInt32.size) (component : κ) :
    slots.put (UInt32.ofNat slot) component =
      .ok { slots with filled := (UInt32.ofNat slot, component) :: slots.filled } := by
  rw [Slots.put, Wire.toNat_ofNat_of_lt (by omega), if_pos hslot]

/-- A local that is declared has a component. -/
theorem Matches.held_eq {locals : List Local} {slots : Slots κ} {environment : List (String × κ)}
    (h : Matches locals slots environment) (hlocals : locals.length ≤ slots.count)
    (hcount : slots.count < UInt32.size) {name : String} {slot : Nat}
    (hslot : slotOf locals name = some slot) (location : Option Location) :
    ∃ component, Bound.held slots slot location = .ok component ∧
      environment.lookup name = some component := by
  obtain ⟨component, hheld, hbound⟩ := h name slot hslot
  have hlt := slotOf_lt hslot
  refine ⟨component, ?_, hbound⟩
  simp only [Bound.held, Slots.get, Wire.toNat_ofNat_of_lt (show slot < UInt32.size by omega),
    if_pos (show slot < slots.count by omega), hheld, Outcome.ok_bind, Outcome.pure_eq]

/-! ## Statements -/

/-- What a bound statement and a statement of a script leave behind. -/
structure InStep (locals : List Local) (count : Nat) (first : String × Slots κ)
    (second : String × List (String × κ)) : Prop where
  text : first.1 = second.1
  count : first.2.count = count
  slots : Matches locals first.2 second.2

variable [Component κ] {references : References} {classes : List String} {unit : ScriptUnit}

/-- A bound statement does what its statement does, if the two embed alike. -/
theorem Binding.Binds.agrees {locals next : List Local} {kind : Statement.Kind}
    {op : BoundStatement.Op} (h : Binds (scopeOf references classes unit) locals kind op next)
    (host : Host κ) (place : Location → Option Location) (location : Location)
    {embedName : String → Option Location → Except RenderError String}
    {embed : String → Except Failure String}
    (hembed : ∀ name ∈ classes, ∀ location, Agrees Eq (embedName name location) (embed name))
    {slots : Slots κ} {environment : List (String × κ)}
    (hmatches : Matches locals slots environment)
    (hnext : next.length ≤ slots.count) (hcount : slots.count < UInt32.size) :
    Agrees (InStep next slots.count) (Bound.step host place embedName slots ⟨op, location⟩)
      (interpretStatement references unit host embed environment kind) := by
  cases h with
  | write text => exact .ok ⟨rfl, rfl, hmatches⟩
  | create name declaredAt hresolve hcomponent hfresh =>
    rename_i type found symbol
    have htype : typeOf references unit type = some found := typeOf_of_resolve hresolve
    simp only [Bound.step, interpretStatement, htype]
    cases host.instantiate found.module found.name with
    | none => exact .typeUnavailable _ _
    | some component =>
      rw [List.length_append, List.length_singleton] at hnext
      simp only [put_ofNat hnext hcount, Outcome.ok_bind, Outcome.pure_eq]
      exact .ok ⟨rfl, rfl, hmatches.create (by simp; omega) hfresh component⟩
  | assign property value hslot =>
    obtain ⟨component, hheld, hbound⟩ := hmatches.held_eq hnext hcount hslot (place location)
    have hlt := slotOf_lt hslot
    simp only [Bound.step, interpretStatement, hheld, hbound, Outcome.ok_bind]
    cases Component.setProperty component property value with
    | error reason => exact .property _ _ _
    | ok changed =>
      simp only [put_ofNat (Nat.lt_of_lt_of_le hlt hnext) hcount, Outcome.ok_bind, Outcome.pure_eq]
      exact .ok ⟨rfl, rfl, hmatches.assign (by omega) hslot changed⟩
  | render hslot =>
    obtain ⟨component, hheld, hbound⟩ := hmatches.held_eq hnext hcount hslot (place location)
    simp only [Bound.step, interpretStatement, hheld, hbound, Outcome.ok_bind]
    exact .ok ⟨rfl, rfl, hmatches⟩
  | embed hclass =>
    rename_i className
    exact (hembed className hclass (place location)).bind fun _ _ htext ↦ .ok ⟨htext, rfl, hmatches⟩

/-- A bound body does what its statements do, one after the other. -/
theorem Binding.BindsBody.agrees {locals final : List Local} {body : List Statement}
    {bound : List BoundStatement}
    (h : BindsBody (scopeOf references classes unit) locals body bound final) (host : Host κ)
    (place : Location → Option Location)
    {embedName : String → Option Location → Except RenderError String}
    {embed : String → Except Failure String}
    (hembed : ∀ name ∈ classes, ∀ location, Agrees Eq (embedName name location) (embed name))
    {slots : Slots κ} {environment : List (String × κ)}
    (hmatches : Matches locals slots environment)
    (hfinal : final.length ≤ slots.count) (hcount : slots.count < UInt32.size) :
    Agrees Eq (Bound.execute host place embedName slots bound)
      (interpretBody references unit host embed environment body) := by
  induction h generalizing slots environment with
  | nil locals => exact .ok rfl
  | @cons locals next final stmt rest op bound first others ih =>
    have hnext := Nat.le_trans others.length_le hfinal
    have hfirst := first.agrees host place (unit.locate stmt.start) hembed hmatches hnext hcount
    apply hfirst.bind
    intro written partner hstep
    have hrest := ih hstep.slots (by rw [hstep.count]; exact hfinal)
      (by rw [hstep.count]; exact hcount)
    refine hrest.bind fun more others hmore ↦ .ok ?_
    rw [hstep.text, hmore]

/-! ## Classes -/

theorem Binding.BindsClass.agrees {declaration : ClassDeclaration} {current : BoundClass}
    (h : BindsClass (scopeOf references classes unit) declaration current)
    (hcount : current.slotCount < UInt32.size) (host : Host κ) (place : Location → Option Location)
    {embedName : String → Option Location → Except RenderError String}
    {embed : String → Except Failure String}
    (hembed : ∀ name ∈ classes, ∀ location, Agrees Eq (embedName name location) (embed name)) :
    Agrees Eq (Bound.execute host place embedName (Bound.emptySlots current) current.body)
      (interpretBody references unit host embed [] declaration.body) := by
  obtain ⟨locals, hbody, hslotCount⟩ := h.body
  have hempty : (Bound.emptySlots current : Slots κ).count = current.slotCount :=
    Wire.toNat_ofNat_of_lt hcount
  exact hbody.agrees host place hembed (matches_nil _) (by omega) (by omega)

/-- Declarations and the classes they are bound to are found together. -/
theorem exists_find? {related : ScriptUnit × ClassDeclaration → BoundClass → Prop}
    {declared : List (ScriptUnit × ClassDeclaration)} {bound : List BoundClass}
    (h : List.Forall₂ related declared bound)
    (hname : ∀ declaration current, related declaration current →
      current.name = declaration.2.name) {name : String}
    (hmem : name ∈ declared.map fun declaration ↦ declaration.2.name) :
    ∃ declaration current, (declared.find? fun declaration ↦ declaration.2.name = name) =
        some declaration ∧
      bound.find? (·.name = name) = some current ∧ related declaration current := by
  induction h with
  | nil => simp at hmem
  | @cons declaration current declared bound hfirst _ ih =>
    rw [List.find?_cons, List.find?_cons, hname _ _ hfirst]
    by_cases hhere : declaration.2.name = name
    · exact ⟨declaration, current, by simp [hhere], by simp [hhere], hfirst⟩
    · simp only [hhere, decide_false]
      rw [List.map_cons, List.mem_cons] at hmem
      exact ih (hmem.resolve_left fun heq ↦ hhere heq.symm)

/-- A module was bound from scripts: each of its classes is bound to a declaration, with a number
of slots that a word can tell. -/
structure BoundFrom (units : List ScriptUnit) (references : References) (module : BoundModule) :
    Prop where
  classes : List.Forall₂ (fun declaration current ↦
      BindsClass (scopeOf references
        ((declarations units).map fun declaration ↦ declaration.2.name) declaration.1)
        declaration.2 current)
    (declarations units) module.classes
  slotCount_lt : ∀ current ∈ module.classes, current.slotCount < UInt32.size

/-- A bound class runs as its declaration does. -/
theorem BoundFrom.agrees {units : List ScriptUnit} {module : BoundModule}
    (h : BoundFrom units references module) (host : Host κ) (place : Location → Option Location)
    (limit budget : Nat) {declaration : ScriptUnit × ClassDeclaration} {current : BoundClass}
    (hbinds : BindsClass (scopeOf references
      ((declarations units).map fun declaration ↦ declaration.2.name) declaration.1)
      declaration.2 current) (hcurrent : current ∈ module.classes) :
    Agrees Eq (Bound.run module host place limit budget current)
      (interpretClass units references host limit budget declaration) := by
  induction budget generalizing declaration current with
  | zero =>
    apply hbinds.agrees (h.slotCount_lt current hcurrent) host place
    intro name _ location
    exact .includeDepth name limit location
  | succ budget ih =>
    apply hbinds.agrees (h.slotCount_lt current hcurrent) host place
    intro name hname location
    obtain ⟨inner, bound, hinner, hbound, hbinds⟩ :=
      exists_find? h.classes (fun _ _ hbinds ↦ hbinds.name) hname
    rw [hinner, hbound]
    exact ih hbinds (List.mem_of_find?_eq_some hbound)

end PageScript
