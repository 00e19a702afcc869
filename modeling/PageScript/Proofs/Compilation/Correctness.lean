import Mathlib.Logic.Function.Iterate
import PageScript.Compilation
import PageScript.Proofs.Compilation.Simulation

/-!
# Compilation keeps the meaning of scripts

Scripts that compile give an image that can be loaded, in which every class of the scripts is found
and renders what running the scripts themselves gives. The only assumption is that the encodings are
shorter than 2^32 bytes, since their places are told by words.
-/

namespace PageScript

open Script Binding

/-! ## What binding makes sure of -/

theorem checkSlot_ofNat {slot count : Nat} (hslot : slot < count) (hcount : count < UInt32.size) :
    LoadedModule.checkSlot (UInt32.ofNat count) (UInt32.ofNat slot) = .ok () := by
  have hlt : UInt32.ofNat slot < UInt32.ofNat count := by
    rw [UInt32.lt_iff_toNat_lt, Wire.toNat_ofNat_of_lt hcount, Wire.toNat_ofNat_of_lt (by omega)]
    exact hslot
  rw [LoadedModule.checkSlot, if_pos hlt]

namespace Binding

variable {scope : Scope} {locals next final : List Local}

/-- A bound statement asks for nothing that does not exist. -/
theorem Binds.check_eq {kind : Statement.Kind} {op : BoundStatement.Op}
    (h : Binds scope locals kind op next) {count : Nat} (hnext : next.length ≤ count)
    (hcount : count < UInt32.size) : op.check scope.classes (UInt32.ofNat count) = .ok () := by
  cases h with
  | write text => rfl
  | create name location hresolve hcomponent hfresh =>
    rw [List.length_append, List.length_singleton] at hnext
    exact checkSlot_ofNat hnext hcount
  | assign property value hslot =>
    exact checkSlot_ofNat (Nat.lt_of_lt_of_le (slotOf_lt hslot) hnext) hcount
  | render hslot => exact checkSlot_ofNat (Nat.lt_of_lt_of_le (slotOf_lt hslot) hnext) hcount
  | embed hclass => exact if_pos hclass

theorem BindsBody.check_eq {body : List Statement} {bound : List BoundStatement}
    (h : BindsBody scope locals body bound final) (hfinal : final.length < UInt32.size) :
    (bound.forM fun stmt ↦ stmt.op.check scope.classes (UInt32.ofNat final.length)) = .ok () := by
  induction h with
  | nil locals => rfl
  | cons first others ih =>
    rw [Outcome.forM_cons, first.check_eq others.length_le hfinal, Outcome.ok_bind, ih hfinal]

/-- Every local is declared by a statement of its own. -/
theorem Binds.length_next_le {kind : Statement.Kind} {op : BoundStatement.Op}
    (h : Binds scope locals kind op next) (location : Location) :
    next.length ≤ locals.length +
      ([(⟨op, location⟩ : BoundStatement)].filter fun stmt ↦ !stmt.isWrite).length := by
  cases h with
  | create name declaredAt hresolve hcomponent hfresh =>
    rw [List.length_append]
    exact Nat.le_refl _
  | _ => exact Nat.le_add_right _ _

theorem BindsBody.length_final_le {body : List Statement} {bound : List BoundStatement}
    (h : BindsBody scope locals body bound final) :
    final.length ≤ locals.length + (bound.filter fun stmt ↦ !stmt.isWrite).length := by
  induction h with
  | nil locals => exact Nat.le_add_right _ _
  | @cons locals next final stmt rest op bound first others ih =>
    have hfirst := first.length_next_le (scope.unit.locate stmt.start)
    rw [← List.singleton_append, List.filter_append, List.length_append]
    omega

end Binding

/-! ## Compiled modules -/

/-- The names of all classes of some scripts. -/
abbrev declaredNames (units : List ScriptUnit) : List String :=
  (declarations units).map fun declaration ↦ declaration.2.name

section

variable {units : List ScriptUnit} {references : References} {module : BoundModule}

theorem BoundFrom.classNames_eq (h : BoundFrom units references module) :
    module.classNames = declaredNames units := by
  have hnames : List.Forall₂ Eq module.classNames (declaredNames units) := by
    rw [BoundModule.classNames, List.forall₂_map_left_iff, List.forall₂_map_right_iff]
    exact h.classes.flip.imp fun _ _ hbinds ↦ hbinds.name
  rwa [List.forall₂_eq_eq_eq] at hnames

theorem BoundFrom.check_eq (h : BoundFrom units references module) : module.check = .ok () := by
  apply Outcome.forM_eq_ok.mpr
  intro current hcurrent
  obtain ⟨index, hindex⟩ := List.mem_iff_getElem?.mp hcurrent
  obtain ⟨declaration, _, hbinds⟩ := Emission.exists_of_getElem?_right h.classes hindex
  obtain ⟨locals, hbody, hslotCount⟩ := hbinds.body
  have hlt := h.slotCount_lt current hcurrent
  rw [hslotCount] at hlt
  rw [BoundClass.check, Outcome.mapError_eq_ok, hslotCount, h.classNames_eq]
  exact hbody.check_eq hlt

/-- The code of a module that was emitted has room for all its locals. -/
theorem boundFrom_of_bind (hbind : bind units references = .ok module) {buildMode : BuildMode}
    {image : ModuleImage} (hemitted : Emission.Emitted image buildMode module)
    (hsize : image.code.length < UInt32.size) : BoundFrom units references module := by
  have hclasses := (binds_of_bind hbind).2
  refine ⟨hclasses, fun current hcurrent ↦ ?_⟩
  obtain ⟨index, hindex⟩ := List.mem_iff_getElem?.mp hcurrent
  obtain ⟨declaration, _, hbinds⟩ := Emission.exists_of_getElem?_right hclasses hindex
  obtain ⟨locals, hbody, hslotCount⟩ := hbinds.body
  have hlength := hbody.length_final_le
  have hlt := hemitted.length_filter_lt hsize hcurrent
  rw [List.length_nil] at hlength
  omega

end

/-- Steps that may be cancelled give a value exactly if the first gives one and the rest does. -/
theorem run_bind_eq_ok {ω ε α β : Type} {first : ExceptT ε (StateM ω) α}
    {next : α → ExceptT ε (StateM ω) β} {world world' : ω} {result : β} :
    (first >>= next).run.run world = (.ok result, world') ↔
      ∃ value between, first.run.run world = (.ok value, between) ∧
        (next value).run.run between = (.ok result, world') := by
  rw [ExceptT.run_bind, StateT.run_bind]
  rcases hfirst : first.run.run world with ⟨outcome, between⟩
  constructor
  · intro h
    cases outcome with
    | ok value => exact ⟨value, between, rfl, h⟩
    | error error => cases h
  · rintro ⟨value, _, hvalue, h⟩
    cases hvalue
    exact h

/-- A compilation that ends in a module has gone through all its steps. -/
theorem compile_cases {ω : Type} {check : CancelCheck ω} {input : CompileInput} {world world' : ω}
    {compiled : CompiledModule}
    (h : (compile check input).run.run world = (.ok compiled, world')) :
    ∃ units module, input.parse = .ok units ∧ bind units input.references = .ok module ∧
      compiled = input.emit module := by
  obtain ⟨_, _, _, h⟩ := run_bind_eq_ok.mp h
  obtain ⟨units, _, hparse, h⟩ := run_bind_eq_ok.mp h
  obtain ⟨_, _, _, h⟩ := run_bind_eq_ok.mp h
  obtain ⟨module, _, hbind, h⟩ := run_bind_eq_ok.mp h
  obtain ⟨_, _, _, h⟩ := run_bind_eq_ok.mp h
  have hparse := Outcome.mapError_eq_ok.mp (congrArg Prod.fst hparse)
  have hbind := Outcome.mapError_eq_ok.mp (congrArg Prod.fst hbind)
  have hemit : Except.ok (input.emit module) = Except.ok compiled := congrArg Prod.fst h
  exact ⟨units, module, hparse, hbind, (Except.ok.inj hemit).symm⟩

/-- However often it is asked from now on, the answer is that the work goes on. -/
def NeverCancels {ω : Type} (check : CancelCheck ω) (world : ω) : Prop :=
  ∀ times, (check.run ((fun world ↦ (check.run world).2)^[times] world)).1 = false

theorem run_stopIfCancelled {ω ε : Type} {check : CancelCheck ω} {world : ω}
    (h : (check.run world).1 = false) (error : ε) :
    (stopIfCancelled check error).run.run world = (.ok (), (check.run world).2) := by
  refine run_bind_eq_ok.mpr ⟨(check.run world).1, (check.run world).2, rfl, ?_⟩
  rw [h]
  rfl

/-- If nobody cancels it, a compilation gives what binding gives. -/
theorem compile_of_neverCancels {ω : Type} {check : CancelCheck ω} {world : ω}
    (hnever : NeverCancels check world) {input : CompileInput} {units : List ScriptUnit}
    {module : BoundModule} (hparse : input.parse = .ok units)
    (hbind : bind units input.references = .ok module) :
    (compile check input).run.run world =
      (.ok (input.emit module), (fun world ↦ (check.run world).2)^[3] world) := by
  refine run_bind_eq_ok.mpr ⟨(), _, run_stopIfCancelled (hnever 0) _, ?_⟩
  refine run_bind_eq_ok.mpr ⟨units, _, by rw [hparse]; rfl, ?_⟩
  refine run_bind_eq_ok.mpr ⟨(), _, run_stopIfCancelled (hnever 1) _, ?_⟩
  refine run_bind_eq_ok.mpr ⟨module, _, by rw [hbind]; rfl, ?_⟩
  exact run_bind_eq_ok.mpr ⟨(), _, run_stopIfCancelled (hnever 2) _, rfl⟩

theorem compile_of_bound {ω : Type} {input : CompileInput} {module : BoundModule}
    (h : (input.parse.toOption.bind fun units ↦ (bind units input.references).toOption) =
      some module) (world : ω) :
    (compile (pure false : StateM ω Bool) input).run.run world =
      (.ok (input.emit module), world) := by
  cases hparse : input.parse with
  | error diagnostics => simp [hparse, Except.toOption] at h
  | ok units =>
    cases hbind : bind units input.references with
    | error diagnostics => simp [hparse, hbind, Except.toOption] at h
    | ok found =>
      simp only [hparse, hbind, Except.toOption, Option.bind_some, Option.some.injEq] at h
      subst h
      exact compile_of_neverCancels (fun _ ↦ rfl) hparse hbind

/-- Image and symbols of a compiled module are the streams of the bound module. -/
theorem fit_of_emit {input : CompileInput} {module : BoundModule}
    (himage : (input.emit module).image.length < UInt32.size)
    (hsymbols : ∀ bytes ∈ (input.emit module).symbols, bytes.length < UInt32.size) :
    Emission.Fit (Emission.streams module input.generated input.markup input.options
      input.settings.emitSymbols) := ⟨himage, hsymbols⟩

theorem idxOf?_of_nodup {names : List String} (hnodup : names.Nodup) {index : Nat} {name : String}
    (hname : names[index]? = some name) : names.idxOf? name = some index := by
  obtain ⟨hlt, rfl⟩ := List.getElem?_eq_some_iff.mp hname
  refine List.idxOf?_eq_some_iff.mpr ⟨hlt, rfl, fun earlier hearlier heq ↦ ?_⟩
  have hsame := (hnodup.getElem_inj_iff).mp heq
  omega

theorem boundFrom_streams {units : List ScriptUnit} {references : References}
    {module : BoundModule} (hbind : bind units references = .ok module)
    {generated markup : List SourceText} {options : Emission.Options} {attach : Bool}
    (hfit : Emission.Fit (Emission.streams module generated markup options attach)) :
    BoundFrom units references module ∧ module.classNames.Nodup := by
  have hemitted := Emission.emitted_image module options hfit.image
  have hfrom := boundFrom_of_bind hbind hemitted
    (ModuleImage.fits_of_length_encode hfit.image).code
  refine ⟨hfrom, ?_⟩
  rw [hfrom.classNames_eq]
  exact (binds_of_bind hbind).1

/-- What is loaded from the streams of a bound module renders as the scripts run. -/
theorem agrees_streams {units : List ScriptUnit} {references : References} {module : BoundModule}
    (hbind : bind units references = .ok module) {generated markup : List SourceText}
    {options : Emission.Options} {attach : Bool}
    (hfit : Emission.Fit (Emission.streams module generated markup options attach)) :
    ∃ loaded, LoadedModule.ofBytes (Emission.streams module generated markup options attach).1
        (Emission.streams module generated markup options attach).2 = .ok loaded ∧
      (∀ name, loaded.findClass name = (declaredNames units).idxOf? name) ∧
      ∀ {κ : Type} [Component κ] (host : Host κ) (limits : LimitSettings) (index : Nat)
        (declaration : ScriptUnit × ClassDeclaration),
        (declarations units)[index]? = some declaration →
        Agrees Eq (render loaded host limits index)
          (interpret units references host limits declaration.1 declaration.2) := by
  obtain ⟨hfrom, hnodup⟩ := boundFrom_streams hbind hfit
  obtain ⟨loaded, hload, _, hfind, hrender⟩ :=
    Emission.render_streams hfit hnodup hfrom.check_eq
  refine ⟨loaded, hload, ?_, ?_⟩
  · intro name
    rw [hfind, ← hfrom.classNames_eq, BoundModule.classNames, List.idxOf?, List.findIdx?_map]
    rfl
  · intro κ _ host limits index declaration hdeclaration
    obtain ⟨current, hcurrent, hbinds⟩ :=
      Emission.exists_of_getElem?_left hfrom.classes hdeclaration
    rw [hrender host limits index current hcurrent]
    exact hfrom.agrees host _ _ _ hbinds (List.mem_of_getElem? hcurrent)

/-- A compiled module can be loaded, every class of the scripts is found in it, and it renders,
against any host and within any limit, what running the scripts gives. -/
def Faithful (input : CompileInput) (compiled : CompiledModule) : Prop :=
  ∃ units loaded, input.parse = .ok units ∧
    LoadedModule.ofBytes compiled.image compiled.symbols = .ok loaded ∧
    ∀ unit ∈ units, ∀ declaration ∈ unit.classes,
      ∃ index, loaded.findClass declaration.name = some index ∧
        ∀ {κ : Type} [Component κ] (host : Host κ) (limits : LimitSettings),
          Agrees Eq (render loaded host limits index)
            (interpret units input.references host limits unit declaration)

theorem faithful_of_compile {ω : Type} {check : CancelCheck ω} {input : CompileInput}
    {world world' : ω} {compiled : CompiledModule}
    (hcompile : (compile check input).run.run world = (.ok compiled, world'))
    (himage : compiled.image.length < UInt32.size)
    (hsymbols : ∀ bytes ∈ compiled.symbols, bytes.length < UInt32.size) :
    Faithful input compiled := by
  obtain ⟨units, module, hparse, hbind, rfl⟩ := compile_cases hcompile
  obtain ⟨loaded, hload, hfind, hagrees⟩ := agrees_streams hbind (fit_of_emit himage hsymbols)
  refine ⟨units, loaded, hparse, hload, ?_⟩
  intro unit hunit declaration hdeclaration
  have hmem : (unit, declaration) ∈ declarations units :=
    List.mem_flatMap.mpr ⟨unit, hunit, List.mem_map_of_mem hdeclaration⟩
  obtain ⟨index, hindex⟩ := List.mem_iff_getElem?.mp hmem
  refine ⟨index, ?_, fun host limits ↦ hagrees host limits index _ hindex⟩
  rw [hfind]
  refine idxOf?_of_nodup (binds_of_bind hbind).1 ?_
  rw [List.getElem?_map, hindex, Option.map_some]

/-- Scripts that are bound to the module `Emission.greeting`. -/
def greetingInput : CompileInput where
  moduleName := "site"
  generated := [⟨"main.kps",
    "use Lib;\nclass Main : Page \x7b\n  write \"Hello \";\n  write \"you\";\n" ++
    "  let box = new Box;\n  set box.title = \"T\";\n  render box;\n  include Foot;\n\x7d\n" ++
    "class Foot : Page \x7b write \"Bye\"; \x7d\n"⟩]
  markup := []
  references := [.ofTypes "Lib" [("Page", { isComponent := false }),
    ("Box", { isComponent := true, assignable := .ofNames ["title"] })]]

theorem greetingInput_bound :
    (greetingInput.parse.toOption.bind fun units ↦
      (bind units greetingInput.references).toOption) = some Emission.greeting := by
  decide +kernel

theorem greetingInput_fit : Emission.Fit (Emission.streams Emission.greeting
    greetingInput.generated greetingInput.markup greetingInput.options
    greetingInput.settings.emitSymbols) :=
  Emission.fit_of_lengths (by decide +kernel) (by decide +kernel)

theorem faithful_greeting : Faithful greetingInput (greetingInput.emit Emission.greeting) :=
  faithful_of_compile (compile_of_bound greetingInput_bound ()) greetingInput_fit.image
    greetingInput_fit.symbols

end PageScript
