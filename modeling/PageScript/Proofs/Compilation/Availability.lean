import PageScript.Proofs.Compilation.Correctness
import PageScript.Proofs.Page.Cache

/-!
# Compiled pages find what they name

Scripts that were compiled against the static modules of a host only create components that these
modules have. So they can be rendered wherever the modules are still registered: no type is missing,
and since locals are declared before they are used, no slot is empty. A catalog that also serves
other hosts may give references that are not those of the host, and then a type may be missing.
-/

namespace PageScript

open Script Binding

variable {κ : Type}

/-! ## Hosts -/

/-- A host still has the static modules of another, and no other modules under their names. -/
structure Host.Keeps (later host : Host κ) : Prop where
  kept : ∀ module ∈ Catalog.staticModules host,
    ∃ other ∈ later.modules, other.toModuleSpec = module.toModuleSpec
  others : ∀ other ∈ later.modules,
    (∃ module ∈ Catalog.staticModules host, other.toModuleSpec = module.toModuleSpec) ∨
      ∀ module ∈ Catalog.staticModules host, module.name ≠ other.name

/-- A module of a host is static, or it has a name that no static module has. -/
theorem Host.Sound.static_or_apart {host : Host κ} (h : host.Sound) {other : HostModule κ}
    (hother : other ∈ host.modules) :
    (∃ module ∈ Catalog.staticModules host, other.toModuleSpec = module.toModuleSpec) ∨
      ∀ module ∈ Catalog.staticModules host, module.name ≠ other.name := by
  cases hdynamic : other.isDynamic with
  | false => exact .inl ⟨other, List.mem_filter.mpr ⟨hother, by simp [hdynamic]⟩, rfl⟩
  | true =>
    refine .inr fun module hmodule hsame ↦ ?_
    obtain ⟨hmem, hstatic⟩ := List.mem_filter.mp hmodule
    rw [h.eq_of_name hmem hother hsame, hdynamic] at hstatic
    contradiction

/-- A host keeps its own static modules. -/
theorem Host.Sound.keeps_self {host : Host κ} (h : host.Sound) : host.Keeps host where
  kept := fun module hmodule ↦ ⟨module, List.mem_of_mem_filter hmodule, rfl⟩
  others := fun _ hother ↦ h.static_or_apart hother

/-- Registering a module, such as a page that was loaded, under a name of its own keeps the static
modules. -/
theorem Host.Sound.keeps_register {host : Host κ} (h : host.Sound) {spec : ModuleSpec κ}
    (hname : ∀ module ∈ Catalog.staticModules host, module.name ≠ spec.name) :
    (host.register spec).2.Keeps host := by
  refine ⟨fun module hmodule ↦ ⟨module, ?_, rfl⟩, fun other hother ↦ ?_⟩
  · exact Host.mem_register.mpr (.inl ⟨List.mem_of_mem_filter hmodule, hname module hmodule⟩)
  · rcases Host.mem_register.mp hother with ⟨hold, _⟩ | rfl
    · exact h.static_or_apart hold
    · exact .inr hname

/-- The module that is found under the name of a static module is that module. -/
theorem Host.Keeps.find_eq {later host : Host κ} (h : later.Keeps host) (hsound : host.Sound)
    {module : HostModule κ} (hmodule : module ∈ Catalog.staticModules host) :
    ∃ found, later.find module.name = some found ∧ found.toModuleSpec = module.toModuleSpec := by
  obtain ⟨other, hother, hspec⟩ := h.kept module hmodule
  obtain ⟨found, hfound⟩ : ∃ found, later.find module.name = some found := by
    rw [← Option.isSome_iff_exists, Host.find, List.find?_isSome]
    exact ⟨other, hother, by simp [hspec]⟩
  refine ⟨found, hfound, ?_⟩
  have hname : found.name = module.name := by simpa using List.find?_some hfound
  rcases h.others found (List.mem_of_find?_eq_some hfound) with ⟨same, hsame, hspec⟩ | hnone
  · have hnames : same.name = module.name := by rw [← hname, hspec]
    rw [hspec, hsound.eq_of_name (List.mem_of_mem_filter hsame) (List.mem_of_mem_filter hmodule)
      hnames]
  · exact absurd hname.symm (hnone module hmodule)

/-- A component type of the references has instances wherever the static modules are kept. -/
theorem Host.Keeps.instantiate_isSome {later host : Host κ} (h : later.Keeps host)
    (hsound : host.Sound) {type : TypeName} {symbols : ModuleSymbols} {symbol : TypeSymbol}
    (hfind : References.find ((Catalog.staticModules host).map fun module ↦ module.symbols)
      type.module = some symbols)
    (hsymbol : symbols.types.get? type.name = some symbol)
    (hcomponent : symbol.isComponent = true) :
    (later.instantiate type.module type.name).isSome := by
  obtain ⟨module, hmodule, rfl⟩ := List.mem_map.mp (List.mem_of_find?_eq_some hfind)
  have hname : module.name = type.module := References.name_of_find hfind
  obtain ⟨found, hfound, hspec⟩ := h.find_eq hsound hmodule
  have hsome := ModuleSpec.findComponent_of_symbols hsymbol hcomponent
  rw [hname] at hfound
  obtain ⟨component, hcomponent⟩ := Option.isSome_iff_exists.mp (hspec ▸ hsome)
  simp [Host.instantiate, hfound, hcomponent]

/-! ## Bound statements -/

/-- If a statement creates a component, the host has its type. -/
def Creatable (host : Host κ) (op : BoundStatement.Op) : Prop :=
  ∀ type slot, op = .create type slot → (host.instantiate type.module type.name).isSome

/-- A rendering that does not end for want of a type. -/
abbrev FindsTypes {α : Type} : Except RenderError α → Prop :=
  Rendering.Ends (fun error ↦ ∀ type location, error ≠ .typeUnavailable type location) fun _ ↦ True

/-- A host has every component type of some references. -/
def Provides (host : Host κ) (references : References) : Prop :=
  ∀ (type : TypeName) (symbols : ModuleSymbols) (symbol : TypeSymbol),
    references.find type.module = some symbols → symbols.types.get? type.name = some symbol →
    symbol.isComponent = true → (host.instantiate type.module type.name).isSome

variable {references : References} {classes : List String} {unit : ScriptUnit} {host : Host κ}

theorem Binding.Binds.creatable {locals next : List Local} {kind : Statement.Kind}
    {op : BoundStatement.Op} (h : Binds (scopeOf references classes unit) locals kind op next)
    (hhost : Provides host references) : Creatable host op := by
  intro type slot hop
  cases h with
  | create name location hresolve hcomponent hfresh =>
    cases hop
    obtain ⟨symbols, hfind, hsymbol⟩ := find_of_resolve hresolve
    exact hhost type symbols _ hfind hsymbol hcomponent
  | _ => cases hop

theorem Binding.BindsBody.creatable {locals final : List Local} {body : List Statement}
    {bound : List BoundStatement}
    (h : BindsBody (scopeOf references classes unit) locals body bound final)
    (hhost : Provides host references) : ∀ stmt ∈ bound, Creatable host stmt.op := by
  induction h with
  | nil => simp
  | cons first _ ih => exact List.forall_mem_cons.mpr ⟨first.creatable hhost, ih⟩

/-- A bound module only creates components that the references have. -/
theorem BoundFrom.creatable {units : List ScriptUnit} {module : BoundModule}
    (h : BoundFrom units references module) (hhost : Provides host references) :
    ∀ current ∈ module.classes, ∀ stmt ∈ current.body, Creatable host stmt.op := by
  intro current hcurrent
  obtain ⟨index, hindex⟩ := List.mem_iff_getElem?.mp hcurrent
  obtain ⟨declaration, _, hbinds⟩ := Emission.exists_of_getElem?_right h.classes hindex
  obtain ⟨locals, hbody, _⟩ := hbinds.body
  exact hbody.creatable hhost

theorem findsTypes_put (slots : Slots κ) (slot : UInt32) (component : κ) :
    FindsTypes (slots.put slot component) := by
  unfold Slots.put
  split
  · exact .ok trivial
  · exact .error fun _ _ ↦ RenderError.noConfusion

theorem findsTypes_held (slots : Slots κ) (slot : Nat) (location : Option Location) :
    FindsTypes (Bound.held slots slot location) := by
  unfold Bound.held Slots.get
  split
  · cases slots.filled.lookup _ with
    | some component => exact .ok trivial
    | none => exact .error fun _ _ ↦ RenderError.noConfusion
  · exact .error fun _ _ ↦ RenderError.noConfusion

variable [Component κ] {embed : String → Option Location → Except RenderError String}

theorem findsTypes_step (place : Location → Option Location)
    (hembed : ∀ name location, FindsTypes (embed name location))
    (slots : Slots κ) {stmt : BoundStatement} (hstmt : Creatable host stmt.op) :
    FindsTypes (Bound.step host place embed slots stmt) := by
  rcases stmt with ⟨op, location⟩
  cases op with
  | write text => exact .ok trivial
  | create type slot =>
    obtain ⟨component, hcomponent⟩ := Option.isSome_iff_exists.mp (hstmt type slot rfl)
    simp only [Bound.step, hcomponent]
    exact (findsTypes_put slots _ component).bind fun _ _ ↦ .ok trivial
  | assign slot property value =>
    refine (findsTypes_held slots slot _).bind fun component _ ↦ ?_
    cases Component.setProperty component property value with
    | ok changed => exact (findsTypes_put slots _ changed).bind fun _ _ ↦ .ok trivial
    | error reason => exact .error fun _ _ ↦ RenderError.noConfusion
  | render slot => exact (findsTypes_held slots slot _).bind fun _ _ ↦ .ok trivial
  | embed className => exact (hembed className _).bind fun _ _ ↦ .ok trivial

theorem findsTypes_execute (place : Location → Option Location)
    (hembed : ∀ name location, FindsTypes (embed name location))
    (slots : Slots κ) {body : List BoundStatement}
    (hbody : ∀ stmt ∈ body, Creatable host stmt.op) :
    FindsTypes (Bound.execute host place embed slots body) := by
  induction body generalizing slots with
  | nil => exact .ok trivial
  | cons stmt rest ih =>
    obtain ⟨hstmt, hrest⟩ := List.forall_mem_cons.mp hbody
    refine (findsTypes_step place hembed slots hstmt).bind fun next _ ↦ ?_
    exact (ih next.2 hrest).bind fun _ _ ↦ .ok trivial

/-- Nothing that a class runs or embeds lacks a type. -/
theorem findsTypes_run {module : BoundModule}
    (hmodule : ∀ current ∈ module.classes, ∀ stmt ∈ current.body, Creatable host stmt.op)
    (place : Location → Option Location) (limit budget : Nat) {current : BoundClass}
    (hcurrent : current ∈ module.classes) :
    FindsTypes (Bound.run module host place limit budget current) := by
  induction budget generalizing current with
  | zero =>
    apply findsTypes_execute place ?_ _ (hmodule current hcurrent)
    intro name location
    exact .error fun _ _ ↦ RenderError.noConfusion
  | succ budget ih =>
    apply findsTypes_execute place ?_ _ (hmodule current hcurrent)
    intro name location
    split
    · rename_i inner hinner
      exact ih (List.mem_of_find?_eq_some hinner)
    · exact .ok trivial

/-! ## Compiled modules -/

/-- Running the scripts knows of no empty slots. -/
theorem Agrees.ne_uninitializedSlot {α β : Type} {related : α → β → Prop}
    {first : Except RenderError α} {second : Except Failure β} (h : Agrees related first second)
    (slot : UInt32) (location : Option Location) :
    first ≠ .error (.uninitializedSlot slot location) := by
  rintro rfl
  cases h

/-- Compiled scripts never lack a component, whatever they were compiled against. They never lack a
type either if their references are those of a host, made from its modules or by a catalog that has
kept nothing of another host in their place, and the static modules of the host are kept. -/
theorem no_missing_component {ω : Type} {check : CancelCheck ω} {input : CompileInput}
    {world world' : ω} {compiled : CompiledModule}
    (hcompile : (compile check input).run.run world = (.ok compiled, world'))
    (himage : compiled.image.length < UInt32.size)
    (hsymbols : ∀ bytes ∈ compiled.symbols, bytes.length < UInt32.size) :
    ∃ loaded, LoadedModule.ofBytes compiled.image compiled.symbols = .ok loaded ∧
      ∀ (later : Host κ) (limits : LimitSettings), ∀ index < loaded.classCount,
        (∀ slot location,
          render loaded later limits index ≠ .error (.uninitializedSlot slot location)) ∧
        ∀ {ι : Type} [DecidableEq ι] (hosts : ι → Host κ) (catalog : Catalog) (which : ι),
          Catalog.Shared hosts catalog →
          (catalog.Owns (hosts which) ∧
              input.references = (catalog.snapshot (hosts which)).1.references ∨
            input.references =
              (Catalog.staticModules (hosts which)).map fun module ↦ module.symbols) →
          later.Keeps (hosts which) → ∀ type location,
            render loaded later limits index ≠ .error (.typeUnavailable type location) := by
  obtain ⟨units, module, _, hbind, rfl⟩ := compile_cases hcompile
  have hfit := fit_of_emit himage hsymbols
  obtain ⟨hfrom, hnodup⟩ := boundFrom_streams hbind hfit
  obtain ⟨loaded, hload, hcount, _, hrender⟩ :=
    Emission.render_streams hfit hnodup hfrom.check_eq
  refine ⟨loaded, hload, ?_⟩
  intro later limits index hindex
  rw [hcount] at hindex
  have hcurrent := List.getElem?_eq_getElem hindex
  obtain ⟨declaration, _, hbinds⟩ := Emission.exists_of_getElem?_right hfrom.classes hcurrent
  have hmem := List.mem_of_getElem? hcurrent
  rw [hrender later limits index _ hcurrent]
  constructor
  · intro slot location
    exact (hfrom.agrees later _ _ _ hbinds hmem).ne_uninitializedSlot slot location
  · intro ι _ hosts catalog which hshared hreferences hkeeps type location
    have hsound := hshared.sound which
    have hstatic : input.references =
        (Catalog.staticModules (hosts which)).map fun module ↦ module.symbols := by
      rcases hreferences with ⟨howns, hsnapshot⟩ | hstatic
      · rw [hsnapshot, howns.references_eq hsound]
      · exact hstatic
    have hprovides : Provides later input.references := by
      intro type symbols symbol hfind hsymbol hcomponent
      rw [hstatic] at hfind
      exact hkeeps.instantiate_isSome hsound hfind hsymbol hcomponent
    have hfinds := findsTypes_run (hfrom.creatable hprovides) (Emission.reported
      input.settings.emitSymbols) limits.maxIncludeDepth limits.maxIncludeDepth hmem
    exact hfinds.ne_error fun h ↦ h type location rfl

/-- A host with the module that `greetingInput` refers to. -/
def greetingHost : Host Echo :=
  (Host.empty.register {
    name := "Lib"
    components := [
      { descriptor := { name := "Box", properties := [{ name := "title", kind := .text }] }
        fresh := { name := "Box" } }]
    types := ["Page"] }).2

theorem no_missing_component_greeting :
    ∃ loaded, LoadedModule.ofBytes (greetingInput.emit Emission.greeting).image
        (greetingInput.emit Emission.greeting).symbols = .ok loaded ∧
      ∀ (limits : LimitSettings), ∀ index < loaded.classCount,
        (∀ slot location, render loaded
          (greetingHost.register { name := "main.kps:1", isDynamic := true }).2 limits index ≠
            .error (.uninitializedSlot slot location)) ∧
        ∀ type location, render loaded
          (greetingHost.register { name := "main.kps:1", isDynamic := true }).2 limits index ≠
            .error (.typeUnavailable type location) := by
  have hreached : Catalog.Reached greetingHost (Catalog.empty.snapshot greetingHost).2 :=
    .snapshot (.register .empty _)
  have hreferences : greetingInput.references =
      ((Catalog.empty.snapshot greetingHost).2.snapshot greetingHost).1.references := by
    decide +kernel
  have hkeeps : (greetingHost.register { name := "main.kps:1", isDynamic := true }).2.Keeps
      greetingHost := hreached.sound.keeps_register (by decide)
  obtain ⟨loaded, hload, hrender⟩ := no_missing_component (κ := Echo)
    (compile_of_bound greetingInput_bound ()) greetingInput_fit.image greetingInput_fit.symbols
  refine ⟨loaded, hload, fun limits index hindex ↦ ?_⟩
  obtain ⟨hslots, htypes⟩ := hrender _ limits index hindex
  exact ⟨hslots, htypes _ _ () hreached.shared (.inl ⟨hreached.owns, hreferences⟩) hkeeps⟩

/-! ## A catalog for two hosts -/

/-- The host of `greetingInput`, and one whose only module has the same id and generation. -/
def greetingNeighbours : Bool → Host Echo :=
  Function.update (Function.update (fun _ ↦ Host.empty) false greetingHost) true
    (Host.empty.register { name := "Bare", types := ["Page"] }).2

/-- The catalog of both hosts after a look through the first. -/
def greetingCatalog : Catalog := (Catalog.empty.snapshot (greetingNeighbours false)).2

/-- The references that the catalog gives for the second host are those of the first. The scripts
compile against them, and the second host lacks a type that they name. -/
theorem missing_component_of_neighbour :
    Catalog.Shared greetingNeighbours greetingCatalog ∧
    greetingInput.references =
      (greetingCatalog.snapshot (greetingNeighbours true)).1.references ∧
    (compile (pure false : StateM Unit Bool) greetingInput).run.run () =
      (.ok (greetingInput.emit Emission.greeting), ()) ∧
    (greetingNeighbours true).Keeps (greetingNeighbours true) ∧
    ∃ loaded, LoadedModule.ofBytes (greetingInput.emit Emission.greeting).image
        (greetingInput.emit Emission.greeting).symbols = .ok loaded ∧
      0 < loaded.classCount ∧ ∃ location,
        render loaded (greetingNeighbours true) {} 0 =
          .error (.typeUnavailable "Lib.Box" location) := by
  have hshared : Catalog.Shared greetingNeighbours greetingCatalog :=
    .snapshot (.register (.register .empty false _) true _) false
  refine ⟨hshared, by decide +kernel, compile_of_bound greetingInput_bound (),
    (hshared.sound true).keeps_self, ?_⟩
  obtain ⟨loaded, hload, hcount, _, hrender⟩ :=
    Emission.render_streams greetingInput_fit (by decide) (by decide +kernel)
  refine ⟨loaded, hload, hcount ▸ Nat.two_pos, some ⟨"main.kps", 5, 3⟩, ?_⟩
  rw [hrender (greetingNeighbours true) {} 0 _ rfl]
  decide +kernel

end PageScript
