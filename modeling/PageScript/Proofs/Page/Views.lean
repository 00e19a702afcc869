import Mathlib.Data.List.Nodup
import PageScript.Page.Catalog
import PageScript.Proofs.Table

/-!
# Views of a module

A module is looked at in three ways: the compiler sees its symbols, markup generators see the facts
about its components, and a running page asks it for instances. Of several components with one name,
symbols show the last, instances are made of the first, and facts are listed for all; a plain type
hides a component from the compiler alone. The three views agree on a name exactly if none of this
makes a difference, in particular if no name is given twice.
-/

namespace PageScript

/-- The properties that a script may set. -/
def ComponentDescriptor.settable (descriptor : ComponentDescriptor) : List String :=
  (descriptor.properties.filter PropertyDescriptor.isAssignable).map PropertyDescriptor.name

/-- All properties that the facts about a component list. -/
def ComponentMetadata.properties (metadata : ComponentMetadata) : List String :=
  metadata.eventProperties ++ metadata.textProperties ++ metadata.otherProperties

namespace ModuleSpec

variable {κ : Type}

/-- The symbols of a module, the facts about its components and its instances tell the same of a
type name. -/
structure AgreesOn (module : ModuleSpec κ) (name : String) : Prop where
  component : (∃ symbol, module.symbols.types.get? name = some symbol ∧ symbol.isComponent = true) ↔
    (module.findComponent name).isSome = true
  assignable : ∀ symbol component, module.symbols.types.get? name = some symbol →
    symbol.isComponent = true → module.findComponent name = some component →
    ∀ property, symbol.assignable.contains property = true ↔
      property ∈ component.descriptor.settable
  listed : ∀ symbol, module.symbols.types.get? name = some symbol → symbol.isComponent = true →
    ∀ component ∈ module.components, component.descriptor.name = name →
    ∀ property ∈ (ComponentMetadata.ofDescriptor module.name component.descriptor).properties,
      symbol.assignable.contains property = true

/-- The last component of a name. -/
def lastComponent (module : ModuleSpec κ) (name : String) : Option (RegisteredComponent κ) :=
  module.components.reverse.find? fun component ↦ component.descriptor.name = name

/-- It makes no difference which of the components of a name is looked at. -/
structure Unambiguous (module : ModuleSpec κ) (name : String) : Prop where
  plain : name ∈ module.types → module.findComponent name = none
  settable : ∀ first last, module.findComponent name = some first →
    module.lastComponent name = some last →
    ∀ property, property ∈ last.descriptor.settable ↔ property ∈ first.descriptor.settable
  listed : ∀ last, module.lastComponent name = some last →
    ∀ component ∈ module.components, component.descriptor.name = name →
    ∀ property ∈ (ComponentMetadata.ofDescriptor module.name component.descriptor).properties,
      property ∈ last.descriptor.settable

/-! ## Symbols -/

theorem lookup_map_componentSymbol (components : List (RegisteredComponent κ)) (name : String) :
    (components.map fun component ↦ componentSymbol component.descriptor).lookup name =
      (components.find? fun component ↦ component.descriptor.name = name).map
        fun component ↦ (componentSymbol component.descriptor).2 := by
  induction components with
  | nil => rfl
  | cons first rest ih =>
    rw [List.map_cons, componentSymbol, List.lookup_cons, List.find?_cons]
    by_cases hname : first.descriptor.name = name
    · rw [beq_iff_eq.mpr hname.symm, decide_eq_true hname]
      rfl
    · rw [beq_false_of_ne (Ne.symm hname), decide_eq_false hname]
      exact ih

/-- A plain type hides the components of its name, of which otherwise the last one counts. -/
theorem get?_symbols (module : ModuleSpec κ) (name : String) :
    module.symbols.types.get? name =
      if name ∈ module.types then some { isComponent := false }
      else (module.lastComponent name).map
        fun component ↦ (componentSymbol component.descriptor).2 := by
  rw [symbols, ModuleSymbols.ofTypes, Table.get?_ofList, List.reverse_append, List.lookup_append,
    ← List.map_reverse, ← List.map_reverse, lookup_map_same, lookup_map_componentSymbol]
  simp only [List.mem_reverse]
  split
  · rfl
  · rfl

theorem contains_componentSymbol (descriptor : ComponentDescriptor) (property : String) :
    (componentSymbol descriptor).2.assignable.contains property = true ↔
      property ∈ descriptor.settable := by
  rw [componentSymbol, Table.contains, Table.ofNames, Table.get?_ofList, ← List.map_reverse,
    lookup_map_same, Option.isSome_ite, List.mem_reverse, ComponentDescriptor.settable]

theorem isSome_lastComponent (module : ModuleSpec κ) (name : String) :
    (module.lastComponent name).isSome = (module.findComponent name).isSome := by
  rw [Bool.eq_iff_iff, lastComponent, findComponent, List.find?_isSome, List.find?_isSome]
  simp only [List.mem_reverse]

/-- The symbols show a component if there is one and no plain type of its name. -/
theorem get?_symbols_eq_component {module : ModuleSpec κ} {name : String} {symbol : TypeSymbol} :
    (module.symbols.types.get? name = some symbol ∧ symbol.isComponent = true) ↔
      name ∉ module.types ∧ ∃ last, module.lastComponent name = some last ∧
        symbol = (componentSymbol last.descriptor).2 := by
  rw [get?_symbols]
  by_cases hplain : name ∈ module.types
  · rw [if_pos hplain]
    constructor
    · rintro ⟨hsymbol, hcomponent⟩
      rw [← Option.some.inj hsymbol] at hcomponent
      contradiction
    · intro h
      exact absurd hplain h.1
  · rw [if_neg hplain, Option.map_eq_some_iff]
    constructor
    · rintro ⟨⟨last, hlast, hsymbol⟩, _⟩
      exact ⟨hplain, last, hlast, hsymbol.symm⟩
    · rintro ⟨_, last, hlast, rfl⟩
      exact ⟨⟨last, hlast, rfl⟩, rfl⟩

/-! ## Agreement -/

theorem AgreesOn.unambiguous {module : ModuleSpec κ} {name : String} (h : module.AgreesOn name) :
    module.Unambiguous name := by
  have hshown : ∀ last, module.lastComponent name = some last →
      module.symbols.types.get? name = some (componentSymbol last.descriptor).2 := by
    intro last hlast
    have hsome : (module.findComponent name).isSome = true := by
      rw [← isSome_lastComponent, hlast, Option.isSome_some]
    obtain ⟨symbol, hsymbol⟩ := h.component.mpr hsome
    obtain ⟨_, other, hother, rfl⟩ := get?_symbols_eq_component.mp hsymbol
    rw [hlast, Option.some.injEq] at hother
    rw [hsymbol.1, hother]
  constructor
  · intro hplain
    rw [← Option.not_isSome_iff_eq_none]
    intro hsome
    obtain ⟨symbol, hsymbol⟩ := h.component.mpr hsome
    exact (get?_symbols_eq_component.mp hsymbol).1 hplain
  · intro first last hfirst hlast property
    rw [← contains_componentSymbol]
    exact h.assignable _ first (hshown last hlast) rfl hfirst property
  · intro last hlast component hmem hname property hproperty
    rw [← contains_componentSymbol]
    exact h.listed _ (hshown last hlast) rfl component hmem hname property hproperty

theorem Unambiguous.agreesOn {module : ModuleSpec κ} {name : String}
    (h : module.Unambiguous name) : module.AgreesOn name := by
  constructor
  · constructor
    · rintro ⟨symbol, hsymbol⟩
      obtain ⟨_, last, hlast, _⟩ := get?_symbols_eq_component.mp hsymbol
      rw [← isSome_lastComponent, hlast, Option.isSome_some]
    · intro hsome
      have hplain : name ∉ module.types := by
        intro hmem
        rw [h.plain hmem] at hsome
        contradiction
      rw [← isSome_lastComponent, Option.isSome_iff_exists] at hsome
      obtain ⟨last, hlast⟩ := hsome
      exact ⟨_, get?_symbols_eq_component.mpr ⟨hplain, last, hlast, rfl⟩⟩
  · intro symbol first hsymbol hcomponent hfirst property
    obtain ⟨_, last, hlast, rfl⟩ := get?_symbols_eq_component.mp ⟨hsymbol, hcomponent⟩
    rw [contains_componentSymbol]
    exact h.settable first last hfirst hlast property
  · intro symbol hsymbol hcomponent component hmem hname property hproperty
    obtain ⟨_, last, hlast, rfl⟩ := get?_symbols_eq_component.mp ⟨hsymbol, hcomponent⟩
    rw [contains_componentSymbol]
    exact h.listed last hlast component hmem hname property hproperty

theorem mem_settable_of_mem_listed {descriptor : ComponentDescriptor} {kind : PropertyKind}
    {property : String} (h : property ∈ ComponentMetadata.listed descriptor kind) :
    property ∈ descriptor.settable := by
  obtain ⟨found, hfound, rfl⟩ := List.mem_map.mp h
  obtain ⟨hmem, hlisted⟩ := List.mem_filter.mp hfound
  rw [ComponentMetadata.isListed, Bool.and_eq_true, Bool.and_eq_true] at hlisted
  exact List.mem_map_of_mem (List.mem_filter.mpr ⟨hmem, hlisted.1.1⟩)

/-- Facts about a component list only what its own descriptor lets a script set. -/
theorem mem_settable_of_mem_properties {namespaceName property : String}
    {descriptor : ComponentDescriptor}
    (h : property ∈ (ComponentMetadata.ofDescriptor namespaceName descriptor).properties) :
    property ∈ descriptor.settable := by
  rw [ComponentMetadata.properties, List.mem_append, List.mem_append] at h
  rcases h with (h | h) | h
  · exact mem_settable_of_mem_listed h
  · exact mem_settable_of_mem_listed h
  · exact mem_settable_of_mem_listed h

theorem unambiguous_of_nodup {module : ModuleSpec κ}
    (hcomponents : (module.components.map fun component ↦ component.descriptor.name).Nodup)
    (hplain : ∀ component ∈ module.components, component.descriptor.name ∉ module.types)
    (name : String) : module.Unambiguous name := by
  have hsame : ∀ component ∈ module.components, component.descriptor.name = name →
      ∀ last, module.lastComponent name = some last → component = last := by
    intro component hmem hname last hlast
    have hlastMem := List.mem_reverse.mp (List.mem_of_find?_eq_some hlast)
    have hlastName : last.descriptor.name = name := by simpa using List.find?_some hlast
    exact List.inj_on_of_nodup_map hcomponents hmem hlastMem (hname.trans hlastName.symm)
  constructor
  · intro htype
    rw [findComponent, List.find?_eq_none]
    intro component hmem hname
    exact hplain component hmem (of_decide_eq_true hname ▸ htype)
  · intro first last hfirst hlast property
    have hmem := List.mem_of_find?_eq_some hfirst
    have hname : first.descriptor.name = name := by simpa using List.find?_some hfirst
    rw [hsame first hmem hname last hlast]
  · intro last hlast component hmem hname property hproperty
    rw [← hsame component hmem hname last hlast]
    exact mem_settable_of_mem_properties hproperty

/-- The three views of a module agree on a name if and only if it makes no difference which
component of the name is looked at. They agree on every name if no name is given twice. -/
theorem views_agree_iff_unambiguous (module : ModuleSpec κ) :
    (∀ name, module.AgreesOn name ↔ module.Unambiguous name) ∧
      ((module.components.map fun component ↦ component.descriptor.name).Nodup →
        (∀ component ∈ module.components, component.descriptor.name ∉ module.types) →
        ∀ name, module.AgreesOn name) := by
  constructor
  · intro name
    exact ⟨AgreesOn.unambiguous, Unambiguous.agreesOn⟩
  · intro hcomponents hplain name
    exact (unambiguous_of_nodup hcomponents hplain name).agreesOn

/-- A component that sets its text. -/
def textLabel : RegisteredComponent Echo where
  descriptor := { name := "Label", properties := [{ name := "Text", kind := .text }] }
  fresh := { name := "Label" }

/-- A component of the same name that sets a caption. -/
def captionLabel : RegisteredComponent Echo where
  descriptor := { name := "Label", properties := [{ name := "Caption", kind := .text }] }
  fresh := { name := "Label" }

/-- A plain type hides a component from the compiler, though instances of it can be made; and of two
components the compiler lets scripts set the properties of the one that no instance is made of. -/
theorem views_disagree_on_label :
    ¬AgreesOn { name := "hidden", components := [textLabel], types := ["Label"] } "Label" ∧
      ¬AgreesOn { name := "twice", components := [textLabel, captionLabel] } "Label" := by
  constructor
  · intro h
    have hplain := (((views_agree_iff_unambiguous _).1 "Label").mp h).plain
    exact absurd (hplain List.mem_cons_self) (by simp [findComponent, textLabel])
  · intro h
    have hsettable := (((views_agree_iff_unambiguous _).1 "Label").mp h).settable
    exact absurd (hsettable textLabel captionLabel rfl rfl "Text") (by decide)

end ModuleSpec

end PageScript
