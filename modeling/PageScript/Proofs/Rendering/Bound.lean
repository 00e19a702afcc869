import Mathlib.Data.List.Nodup
import PageScript.Proofs.Emission.Places
import PageScript.Proofs.Rendering.Step

/-!
# Rendering bound modules

A bound module can be run as it stands, without an image: its statements name texts, types and
classes instead of pointing to them. Where a module was emitted and loaded, running its code gives
what running the bound module gives. Merged writes write the same text, so the build mode does not
matter.
-/

namespace PageScript

namespace Bound

variable {κ : Type} [Component κ]

/-- The component in a slot. -/
def held (slots : Slots κ) (slot : Nat) (location : Option Location) : Except RenderError κ := do
  match ← slots.get (UInt32.ofNat slot) with
  | some component => return component
  | none => throw (.uninitializedSlot (UInt32.ofNat slot) location)

/-- One statement: what it writes, and the slots behind it. `place` tells which place is reported
for a statement. -/
def step (host : Host κ) (place : Location → Option Location)
    (embed : String → Option Location → Except RenderError String) (slots : Slots κ)
    (stmt : BoundStatement) : Except RenderError (String × Slots κ) :=
  match stmt.op with
  | .write text => .ok (text, slots)
  | .create type slot =>
    match host.instantiate type.module type.name with
    | some component => do
      let slots ← slots.put (UInt32.ofNat slot) component
      return ("", slots)
    | none => .error (.typeUnavailable type.display (place stmt.location))
  | .assign slot property value => do
    match Component.setProperty (← held slots slot (place stmt.location)) property value with
    | .ok component =>
      let slots ← slots.put (UInt32.ofNat slot) component
      return ("", slots)
    | .error reason => throw (.property property reason (place stmt.location))
  | .render slot => do
    let component ← held slots slot (place stmt.location)
    return (Component.render component, slots)
  | .embed className => do
    let text ← embed className (place stmt.location)
    return (text, slots)

def execute (host : Host κ) (place : Location → Option Location)
    (embed : String → Option Location → Except RenderError String) :
    Slots κ → List BoundStatement → Except RenderError String
  | _, [] => .ok ""
  | slots, stmt :: rest => do
    let next ← step host place embed slots stmt
    let more ← execute host place embed next.2 rest
    return next.1 ++ more

/-- Slots for a class; their number is kept as a word. -/
def emptySlots (current : BoundClass) : Slots κ := ⟨(UInt32.ofNat current.slotCount).toNat, []⟩

/-- Runs a class in which embedding may go `budget` levels deeper. -/
def run (module : BoundModule) (host : Host κ) (place : Location → Option Location) (limit : Nat) :
    Nat → BoundClass → Except RenderError String
  | 0, current =>
    execute host place (fun name location ↦ .error (.includeDepth name limit location))
      (emptySlots current) current.body
  | budget + 1, current =>
    execute host place (fun name _ ↦
        match module.classes.find? (·.name = name) with
        | some inner => run module host place limit budget inner
        | none => .ok "")
      (emptySlots current) current.body

/-! ## Merged writes -/

variable (host : Host κ) (place : Location → Option Location)
  (embed : String → Option Location → Except RenderError String)

theorem execute_write (slots : Slots κ) (text : String) (location : Location)
    (rest : List BoundStatement) :
    execute host place embed slots (⟨.write text, location⟩ :: rest) =
      execute host place embed slots rest >>= fun more ↦ .ok (text ++ more) := rfl

theorem execute_mergeWrites (slots : Slots κ) (body : List BoundStatement) :
    execute host place embed slots (Emission.mergeWrites body) =
      execute host place embed slots body := by
  induction body generalizing slots with
  | nil => rfl
  | cons stmt rest ih =>
    obtain ⟨text, more, location, merged, hop, hrest, hmerged⟩ | hmerged :=
      Emission.mergeWrites_cons stmt rest
    · obtain ⟨op, first⟩ := stmt
      obtain rfl : op = .write text := hop
      rw [hmerged, execute_write, execute_write, ← ih, hrest, execute_write]
      cases execute host place embed slots merged with
      | error error => rfl
      | ok behind => simp only [Outcome.ok_bind, String.append_assoc]
    · rw [hmerged, execute, execute]
      simp only [ih]

theorem execute_emittedBody (buildMode : BuildMode) (slots : Slots κ)
    (body : List BoundStatement) :
    execute host place embed slots (Emission.emittedBody buildMode body) =
      execute host place embed slots body := by
  cases buildMode with
  | debug => rfl
  | release => exact execute_mergeWrites host place embed slots body

end Bound

/-! ## Code and statements -/

namespace Emission

variable {κ : Type} {loaded : LoadedModule} {classes : List String}

theorem Stands.ne_stop {image : ModuleImage} {instruction : Instruction} {op : BoundStatement.Op}
    (h : Stands image classes instruction op) : instruction ≠ .stop := by
  cases h <;> simp

theorem component_eq_held (slots : Slots κ) (address : Rendering.Address) (slot : Nat) :
    Rendering.component loaded slots address (UInt32.ofNat slot) =
      Bound.held slots slot (address.location loaded) := rfl

variable [Component κ]

/-- An instruction does what the statement does that it stands for, if the two embed alike. -/
theorem Stands.step_eq {instruction : Instruction} {stmt : BoundStatement}
    (h : Stands loaded.image classes instruction stmt.op) (host : Host κ)
    {place : Location → Option Location} {address : Rendering.Address}
    (hplace : address.location loaded = place stmt.location)
    {embed : Nat → Rendering.Address → Except RenderError String}
    {embedName : String → Option Location → Except RenderError String}
    (hembed : ∀ name, stmt.op = .embed name →
      embed (classNumber classes name).toNat address = embedName name (place stmt.location))
    (slots : Slots κ) :
    Rendering.step loaded host embed address slots instruction =
      Bound.step host place embedName slots stmt := by
  obtain ⟨op, location⟩ := stmt
  cases h with
  | write htext => simp only [Rendering.step, Bound.step, htext, Rendering.table_ok,
      Outcome.ok_bind, Outcome.pure_eq]
  | create slot htype =>
    simp only [Rendering.step, Bound.step, Rendering.create, htype, Rendering.table_ok,
      Outcome.ok_bind, hplace]
    cases host.instantiate _ _ <;> rfl
  | assign slot hname hvalue =>
    simp only [Rendering.step, Bound.step, Rendering.assign, hname, hvalue, Rendering.table_ok,
      Outcome.ok_bind, hplace, component_eq_held]
    cases Bound.held slots slot (place location) with
    | error error => rfl
    | ok component =>
      simp only [Outcome.ok_bind]
      cases Component.setProperty component _ _ <;> rfl
  | render slot => simp only [Rendering.step, Bound.step, component_eq_held, hplace]
  | embed className => simp only [Rendering.step, Bound.step, hembed className rfl]

/-- Code does what the body does that it implements. -/
theorem Implements.execute_eq {code : List Instruction} {body : List BoundStatement}
    (h : Implements loaded.image classes code body) (host : Host κ)
    {place : Location → Option Location} {classIndex : Nat}
    {embed : Nat → Rendering.Address → Except RenderError String}
    {embedName : String → Option Location → Except RenderError String} {ip : Nat}
    (hplace : ∀ number stmt, body[number]? = some stmt →
      loaded.locate classIndex (ip + number) = place stmt.location)
    (hembed : ∀ number stmt name, body[number]? = some stmt → stmt.op = .embed name →
      embed (classNumber classes name).toNat ⟨classIndex, ip + number⟩ =
        embedName name (place stmt.location))
    (slots : Slots κ) :
    Rendering.execute loaded host embed classIndex ip slots code =
      Bound.execute host place embedName slots body := by
  induction h generalizing ip slots with
  | nil => rfl
  | @cons instruction stmt code body first _ ih =>
    have hnext (number : Nat) : ip + (number + 1) = ip + 1 + number := by omega
    have hlocation : (⟨classIndex, ip⟩ : Rendering.Address).location loaded = place stmt.location :=
      hplace 0 stmt rfl
    have hstep := first.step_eq host hlocation (hembed 0 stmt · rfl) slots
    have hplaces : ∀ number other, body[number]? = some other →
        loaded.locate classIndex (ip + 1 + number) = place other.location :=
      fun number other hother ↦ hnext number ▸ hplace (number + 1) other hother
    have hembeds : ∀ number other name, body[number]? = some other → other.op = .embed name →
        embed (classNumber classes name).toNat ⟨classIndex, ip + 1 + number⟩ =
          embedName name (place other.location) :=
      fun number other name hother ↦ hnext number ▸ hembed (number + 1) other name hother
    have hrest := ih hplaces hembeds
    rw [Rendering.execute_cons _ _ _ _ _ _ first.ne_stop, hstep, Bound.execute]
    simp only [hrest, Outcome.pure_eq]

/-! ## Modules -/

/-- A class of a loaded module is a class of a bound module, emitted in some build mode. -/
structure Realizes (loaded : LoadedModule) (classes : List String)
    (place : Location → Option Location) (index : Nat) (current : BoundClass) : Prop where
  className : loaded.className index = .ok current.name
  slotCount : loaded.slotCount index = (UInt32.ofNat current.slotCount).toNat
  code : ∃ buildMode, Implements loaded.image classes (loaded.instructions index)
      (emittedBody buildMode current.body) ∧
    ∀ ip stmt, (emittedBody buildMode current.body)[ip]? = some stmt →
      loaded.locate index ip = place stmt.location

/-- In a body that passes its check, only classes that exist are embedded. -/
theorem mem_of_check {current : BoundClass} (hcheck : current.check classes = .ok ())
    {buildMode : BuildMode} {stmt : BoundStatement}
    (hstmt : stmt ∈ emittedBody buildMode current.body) {name : String}
    (hop : stmt.op = .embed name) : name ∈ classes := by
  rw [BoundClass.check, Outcome.mapError_eq_ok, ← forM_check_emittedBody buildMode] at hcheck
  have hname := Outcome.forM_eq_ok.mp hcheck stmt hstmt
  rw [hop, BoundStatement.Op.check] at hname
  by_contra hmem
  rw [if_neg hmem] at hname
  contradiction

theorem Realizes.execute_eq {place : Location → Option Location} {index : Nat}
    {current : BoundClass} (h : Realizes loaded classes place index current)
    (hcheck : current.check classes = .ok ()) (host : Host κ)
    {embed : Nat → Rendering.Address → Except RenderError String}
    {embedName : String → Option Location → Except RenderError String}
    (hembed : ∀ ip name, name ∈ classes →
      embed (classNumber classes name).toNat ⟨index, ip⟩ =
        embedName name (loaded.locate index ip)) :
    Rendering.execute loaded host embed index 0 ⟨loaded.slotCount index, []⟩
        (loaded.instructions index) =
      Bound.execute host place embedName (Bound.emptySlots current) current.body := by
  obtain ⟨buildMode, himplements, hplace⟩ := h.code
  rw [← Bound.execute_emittedBody host place embedName buildMode, h.slotCount]
  apply himplements.execute_eq host
  · intro ip stmt hstmt
    rw [Nat.zero_add, hplace ip stmt hstmt]
  · intro ip stmt name hstmt hop
    have hmem := mem_of_check hcheck (List.mem_of_getElem? hstmt) hop
    rw [hembed _ name hmem, Nat.zero_add, hplace ip stmt hstmt]

/-- The number of a class leads to the class of that name. -/
theorem exists_class_of_mem {module : BoundModule} (hnodup : module.classNames.Nodup)
    (hsize : module.classNames.length < UInt32.size) {name : String}
    (hname : name ∈ module.classNames) :
    ∃ inner, module.classes[(classNumber module.classNames name).toNat]? = some inner ∧
      inner.name = name ∧ module.classes.find? (·.name = name) = some inner := by
  obtain ⟨index, hnumber, hindex⟩ := classNumber_of_mem hname
  have hlt := (List.getElem?_eq_some_iff.mp hindex).1
  rw [hnumber, Wire.toNat_ofNat_of_lt (by omega)]
  rw [BoundModule.classNames, List.getElem?_map, Option.map_eq_some_iff] at hindex
  obtain ⟨inner, hinner, rfl⟩ := hindex
  refine ⟨inner, hinner, rfl, ?_⟩
  obtain ⟨other, hother⟩ : ∃ other, module.classes.find? (·.name = inner.name) = some other := by
    rw [← Option.isSome_iff_exists, List.find?_isSome]
    exact ⟨inner, List.mem_of_getElem? hinner, by simp⟩
  have hsame : other.name = inner.name := by simpa using List.find?_some hother
  rw [hother, List.inj_on_of_nodup_map hnodup (List.mem_of_find?_eq_some hother)
    (List.mem_of_getElem? hinner) hsame]

/-- A loaded module runs as the bound module does whose classes it realizes. -/
theorem run_eq_run {module : BoundModule} {place : Location → Option Location}
    (hnodup : module.classNames.Nodup) (hsize : module.classNames.length < UInt32.size)
    (hcheck : module.check = .ok ())
    (hrealizes : ∀ index current, module.classes[index]? = some current →
      Realizes loaded module.classNames place index current)
    (host : Host κ) (limit budget : Nat) {index : Nat} {current : BoundClass}
    (hcurrent : module.classes[index]? = some current) :
    Rendering.run loaded host limit budget index =
      Bound.run module host place limit budget current := by
  have hclass := Outcome.forM_eq_ok.mp hcheck
  induction budget generalizing index current with
  | zero =>
    rw [Rendering.run, Bound.run]
    apply (hrealizes index current hcurrent).execute_eq
      (hclass current (List.mem_of_getElem? hcurrent)) host
    intro ip name hname
    obtain ⟨inner, hinner, rfl, _⟩ := exists_class_of_mem hnodup hsize hname
    rw [Rendering.tooDeep, (hrealizes _ inner hinner).className]
    rfl
  | succ budget ih =>
    rw [Rendering.run, Bound.run]
    apply (hrealizes index current hcurrent).execute_eq
      (hclass current (List.mem_of_getElem? hcurrent)) host
    intro ip name hname
    obtain ⟨inner, hinner, _, hfind⟩ := exists_class_of_mem hnodup hsize hname
    rw [hfind]
    exact ih hinner

/-- What is reported as the place of a statement: with symbols, the place as they keep it. -/
def reported (attach : Bool) (location : Location) : Option Location :=
  if attach then some location.stored else none

/-- What is loaded from emitted streams realizes the bound module. -/
theorem realizes_streams {module : BoundModule} {generated markup : List SourceText}
    {options : Options} {attach : Bool}
    (hfit : Fit (streams module generated markup options attach))
    (hnodup : module.classNames.Nodup) (hcheck : module.check = .ok ()) :
    ∃ loaded, LoadedModule.ofBytes (streams module generated markup options attach).1
        (streams module generated markup options attach).2 = .ok loaded ∧
      loaded.classCount = module.classes.length ∧
      (∀ name, loaded.findClass name = module.classes.findIdx? (·.name = name)) ∧
      ∀ index current, module.classes[index]? = some current →
        Realizes loaded module.classNames (reported attach) index current := by
  obtain ⟨codes, hcodes, hload⟩ := ofBytes_streams module generated markup options attach hfit
  rw [hcheck, Outcome.ok_bind] at hload
  have hemitted := emitted_image module options hfit.image
  refine ⟨_, hload, hcodes.length_eq, hemitted.findClass_eq, ?_⟩
  intro index current hcurrent
  obtain ⟨entry, hentry, hdescribes⟩ := exists_of_getElem?_right hemitted.classes hcurrent
  obtain ⟨code, hcode, himplements⟩ := exists_of_getElem?_right hcodes hcurrent
  have hname := hdescribes.className_eq hentry
  refine ⟨hname, ?_, options.buildMode, ?_, ?_⟩
  · simp only [LoadedModule.slotCount, hentry, Option.map_some, Option.getD_some,
      hdescribes.slotCount]
  · simp only [LoadedModule.instructions, List.getD_eq_getElem?_getD, hcode, Option.getD_some]
    exact himplements
  · intro ip stmt hstmt
    simp only [LoadedModule.locate, LoadedModule.className, hname]
    cases attach with
    | false => rfl
    | true =>
      have hlt := (List.getElem?_eq_some_iff.mp hstmt).1
      have hlocate := locate_stampedSymbols hnodup (hfit.symbols _ rfl)
        (List.mem_of_getElem? hcurrent) ip
      rw [Nat.min_eq_left (by omega), hstmt] at hlocate
      exact hlocate

/-- What is loaded from emitted streams renders as the bound module runs. -/
theorem render_streams {module : BoundModule} {generated markup : List SourceText}
    {options : Options} {attach : Bool}
    (hfit : Fit (streams module generated markup options attach))
    (hnodup : module.classNames.Nodup) (hcheck : module.check = .ok ()) :
    ∃ loaded, LoadedModule.ofBytes (streams module generated markup options attach).1
        (streams module generated markup options attach).2 = .ok loaded ∧
      loaded.classCount = module.classes.length ∧
      (∀ name, loaded.findClass name = module.classes.findIdx? (·.name = name)) ∧
      ∀ {κ : Type} [Component κ] (host : Host κ) (limits : LimitSettings) (index : Nat)
        (current : BoundClass), module.classes[index]? = some current →
        render loaded host limits index =
          Bound.run module host (reported attach) limits.maxIncludeDepth limits.maxIncludeDepth
            current := by
  obtain ⟨loaded, hload, hcount, hfind, hrealizes⟩ := realizes_streams hfit hnodup hcheck
  have hsize := (emitted_image module options hfit.image).length_lt
  refine ⟨loaded, hload, hcount, hfind, ?_⟩
  intro κ _ host limits index current hcurrent
  exact run_eq_run hnodup hsize hcheck hrealizes host _ _ hcurrent

end Emission

end PageScript
