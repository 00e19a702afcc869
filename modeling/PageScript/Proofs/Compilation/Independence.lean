import PageScript.Proofs.Binding.Placement
import PageScript.Proofs.Compilation.Correctness
import PageScript.Proofs.Image.Container

/-!
# Images without debug information

An image is made of what scripts say, not of where they say it. Scripts that parse to the same trees
up to positions give images that are equal but for the byte of flags, which tells whether there are
symbols, and that have the same build id, whatever their paths, layout, line directives, markup and
symbol settings are.
-/

namespace PageScript

open Script

/-! ## Emission -/

namespace Emission

/-- Which writes are merged does not depend on where they stand. -/
theorem mergeWrites_unplaced (body : List BoundStatement) :
    mergeWrites (body.map BoundStatement.unplaced) =
      (mergeWrites body).map BoundStatement.unplaced := by
  induction body with
  | nil => rfl
  | cons stmt rest ih =>
    rcases stmt with ⟨op, location⟩
    rw [List.map_cons, mergeWrites, mergeWrites, ih]
    cases op with
    | write text =>
      cases mergeWrites rest with
      | nil => rfl
      | cons first merged =>
        rcases first with ⟨first, place⟩
        cases first <;> rfl
    | _ => rfl

theorem emittedBody_unplaced (buildMode : BuildMode) (body : List BoundStatement) :
    emittedBody buildMode (body.map BoundStatement.unplaced) =
      (emittedBody buildMode body).map BoundStatement.unplaced := by
  cases buildMode with
  | debug => rfl
  | release => exact mergeWrites_unplaced body

/-- Instructions have no places. -/
theorem lowerBody_unplaced (classes : List String) (pools : Pools) (body : List BoundStatement) :
    lowerBody classes pools (body.map BoundStatement.unplaced) = lowerBody classes pools body := by
  induction body generalizing pools with
  | nil => rfl
  | cons stmt rest ih =>
    simp only [List.map_cons, lowerBody, ih]
    rfl

theorem emitClasses_unplaced (buildMode : BuildMode) (names : List String) (pools : Pools)
    (offset : Nat) (classes : List BoundClass) :
    emitClasses buildMode names pools offset (classes.map BoundClass.unplaced) =
      emitClasses buildMode names pools offset classes := by
  induction classes generalizing pools offset with
  | nil => rfl
  | cons current rest ih =>
    have hbody : lowerBody names pools (emittedBody buildMode current.unplaced.body) =
        lowerBody names pools (emittedBody buildMode current.body) := by
      rw [BoundClass.unplaced, emittedBody_unplaced, lowerBody_unplaced]
    simp only [List.map_cons, emitClasses, hbody, ih]
    rfl

/-- Modules that differ in places only have images that differ in flags only. -/
theorem image_of_unplaced_eq {module other : BoundModule}
    (hclasses : module.classes.map BoundClass.unplaced = other.classes.map BoundClass.unplaced)
    (options others : Options) (hname : options.moduleName = others.moduleName)
    (hmode : options.buildMode = others.buildMode) :
    image module options = { image other others with flags := flags options } := by
  have hnames : module.classes.map BoundClass.name = other.classes.map BoundClass.name := by
    have hmap := congrArg (List.map BoundClass.name) hclasses
    rwa [List.map_map, List.map_map] at hmap
  have hemit : emitClasses options.buildMode (module.classes.map BoundClass.name) {} 0
        module.classes =
      emitClasses others.buildMode (other.classes.map BoundClass.name) {} 0 other.classes := by
    rw [← emitClasses_unplaced, hclasses, emitClasses_unplaced, hnames, hmode]
  simp only [image, hemit, hname]
  rw [hmode]

end Emission

/-! ## Bytes -/

/-- The place of the flags in an image. -/
def Image.Header.flagsPlace : Nat := 7

theorem Image.Header.encode_flags (header : Header) (flags : UInt8) :
    { header with flags }.encode = header.encode.set flagsPlace flags := rfl

/-- The flags of an image stand in one byte and nowhere else. -/
theorem ModuleImage.encode_flags (image : ModuleImage) (flags : UInt8) :
    { image with flags }.encode =
      (image.encode.1.set Image.Header.flagsPlace flags, image.encode.2) := by
  have hplace : Image.Header.flagsPlace <
      (Image.writtenHeader image.buildMode image.flags image.sections).encode.length := by
    rw [Image.Header.length_encode]
    decide
  apply Prod.ext
  · rw [bytes_encode, bytes_encode, Image.bytes_write, Image.bytes_write,
      List.set_append_left _ _ hplace, ← Image.Header.encode_flags]
    rfl
  · rfl

/-! ## Compilation -/

/-- What reading a file as a script gives. -/
def SourceText.parsed (source : SourceText) : ScriptUnit × List Diagnostic :=
  Script.parse source.path source.text

/-- Two files hold scripts without mistakes that say the same, wherever they say it. -/
structure SayTheSame (source other : SourceText) : Prop where
  clean : source.parsed.2 = []
  otherClean : other.parsed.2 = []
  items : source.parsed.1.items.map Item.unplaced = other.parsed.1.items.map Item.unplaced

theorem SayTheSame.symm {source other : SourceText} (h : SayTheSame source other) :
    SayTheSame other source := ⟨h.otherClean, h.clean, h.items.symm⟩

theorem sayTheSame_symm {sources others : List SourceText}
    (h : List.Forall₂ SayTheSame sources others) : List.Forall₂ SayTheSame others sources :=
  List.Forall₂.flip (h.imp fun _ _ hsame ↦ hsame.symm)

theorem parse_of_sayTheSame {input : CompileInput} {others : List SourceText}
    (h : List.Forall₂ SayTheSame input.generated others) :
    input.parse = .ok (input.generated.map fun source ↦ source.parsed.1) := by
  have hclean : ∀ source ∈ input.generated, source.parsed.2 = [] :=
    ((List.forall₂_and_left _ _).mp (h.imp fun _ _ hsame ↦ ⟨hsame.clean, hsame⟩)).1
  have hnone : (input.generated.map SourceText.parsed).flatMap Prod.snd = [] := by
    rw [List.flatMap_map, List.flatMap_eq_nil_iff]
    exact hclean
  have hunits : input.generated.map (fun source ↦ source.parsed.1) =
      (input.generated.map SourceText.parsed).map Prod.fst := by
    rw [List.map_map]
    rfl
  change (if Diagnostics.hasErrors ((input.generated.map SourceText.parsed).flatMap Prod.snd)
    then _ else _) = _
  rw [hnone, hunits]
  rfl

/-- Sources that say the same are equal trees, but for places. -/
theorem unplaced_of_sayTheSame {sources others : List SourceText}
    (h : List.Forall₂ SayTheSame sources others) :
    (sources.map fun source ↦ source.parsed.1).map ScriptUnit.unplaced =
      (others.map fun source ↦ source.parsed.1).map ScriptUnit.unplaced := by
  rw [List.map_map, List.map_map, ← List.forall₂_eq_eq_eq, List.forall₂_map_left_iff,
    List.forall₂_map_right_iff]
  exact h.imp fun _ _ hsame ↦ congrArg (ScriptUnit.mk "" · .empty) hsame.items

/-- Two modules have the same image but for its flags. -/
structure CompiledModule.SameButFlags (compiled other : CompiledModule) : Prop where
  length : compiled.image.length = other.image.length
  bytes : ∀ index, index ≠ Image.Header.flagsPlace → compiled.image[index]? = other.image[index]?
  buildId : compiled.buildId = other.buildId

/-- The symbols that go with an image show in one byte of it only. -/
theorem emit_sameButFlags {input other : CompileInput} {module bound : BoundModule}
    (hname : input.moduleName = other.moduleName)
    (hmode : input.settings.buildMode = other.settings.buildMode)
    (hclasses : module.classes.map BoundClass.unplaced = bound.classes.map BoundClass.unplaced) :
    (input.emit module).SameButFlags (other.emit bound) := by
  have hencode : (Emission.image module input.options).encode =
      ((Emission.image bound other.options).encode.1.set Image.Header.flagsPlace
        (Emission.flags input.options), (Emission.image bound other.options).encode.2) := by
    rw [Emission.image_of_unplaced_eq hclasses input.options other.options hname hmode,
      ModuleImage.encode_flags]
  have himage : (input.emit module).image =
      (other.emit bound).image.set Image.Header.flagsPlace (Emission.flags input.options) :=
    congrArg Prod.fst hencode
  constructor
  · rw [himage, List.length_set]
  · intro index hindex
    rw [himage, List.getElem?_set_ne (Ne.symm hindex)]
  · exact congrArg Prod.snd hencode

section

variable {ω ω' : Type} {check : CancelCheck ω} {check' : CancelCheck ω'} {world : ω} {world' : ω'}
  {input other : CompileInput}

/-- What compiles still compiles if only places and debug settings change. -/
theorem compile_of_sayTheSame (hnever : NeverCancels check' world')
    (hname : input.moduleName = other.moduleName)
    (hreferences : input.references = other.references)
    (hmode : input.settings.buildMode = other.settings.buildMode)
    (hsources : List.Forall₂ SayTheSame input.generated other.generated)
    {compiled : CompiledModule} {next : ω}
    (hcompile : (compile check input).run.run world = (.ok compiled, next)) :
    ∃ compiled' next', (compile check' other).run.run world' = (.ok compiled', next') ∧
      compiled.SameButFlags compiled' := by
  obtain ⟨units, module, hparse, hbind, rfl⟩ := compile_cases hcompile
  rw [parse_of_sayTheSame hsources, Except.ok.injEq] at hparse
  subst hparse
  obtain ⟨bound, hbound, hclasses⟩ :=
    Binding.bind_of_unplaced_eq (unplaced_of_sayTheSame hsources) hbind
  rw [hreferences] at hbound
  have hparse := parse_of_sayTheSame (sayTheSame_symm hsources)
  exact ⟨_, _, compile_of_neverCancels hnever hparse hbound,
    emit_sameButFlags hname hmode hclasses.symm⟩

/-- Scripts that say the same compile or fail to compile together. Their images have the same length
and build id, and are equal in every byte but the one of the flags. -/
theorem image_independent_of_places (hnever : NeverCancels check world)
    (hnever' : NeverCancels check' world') (hname : input.moduleName = other.moduleName)
    (hreferences : input.references = other.references)
    (hmode : input.settings.buildMode = other.settings.buildMode)
    (hsources : List.Forall₂ SayTheSame input.generated other.generated) :
    ((∃ compiled next, (compile check input).run.run world = (.ok compiled, next)) ↔
      ∃ compiled next, (compile check' other).run.run world' = (.ok compiled, next)) ∧
    ∀ compiled next compiled' next',
      (compile check input).run.run world = (.ok compiled, next) →
      (compile check' other).run.run world' = (.ok compiled', next') →
      compiled.SameButFlags compiled' := by
  constructor
  · constructor
    · rintro ⟨compiled, next, hcompile⟩
      obtain ⟨compiled', next', hcompile', _⟩ :=
        compile_of_sayTheSame hnever' hname hreferences hmode hsources hcompile
      exact ⟨compiled', next', hcompile'⟩
    · rintro ⟨compiled, next, hcompile⟩
      obtain ⟨compiled', next', hcompile', _⟩ := compile_of_sayTheSame hnever hname.symm
        hreferences.symm hmode.symm (sayTheSame_symm hsources) hcompile
      exact ⟨compiled', next', hcompile'⟩
  · intro compiled next compiled' next' hcompile hcompile'
    obtain ⟨found, _, hfound, hsame⟩ :=
      compile_of_sayTheSame hnever' hname hreferences hmode hsources hcompile
    rw [hcompile', Prod.mk.injEq, Except.ok.injEq] at hfound
    rw [hfound.1]
    exact hsame

end

def plainInput : CompileInput where
  moduleName := "site"
  generated := [⟨"main.kps", "use Lib; class Main : Page \x7b write \"Hi\"; \x7d"⟩]
  markup := []
  references := [.ofTypes "Lib" [("Page", { isComponent := false })]]

/-- The script of `plainInput` in another file and layout, with a comment and a line directive,
beside a markup file and without symbols. -/
def rearrangedInput : CompileInput where
  moduleName := "site"
  generated := [⟨"a.g.kps", "use\nLib; // ui\n#line 7 \"a\"\nclass Main:Page\x7bwrite \"Hi\";\x7d"⟩]
  markup := [⟨"a", "Hi"⟩]
  references := plainInput.references
  settings := { emitSymbols := false, embedMarkup := false }

theorem image_independent_rearranged : ∃ compiled compiled' next next',
    (compile (pure false : StateM Unit Bool) plainInput).run.run () = (.ok compiled, next) ∧
    (compile (pure false : StateM Unit Bool) rearrangedInput).run.run () = (.ok compiled', next') ∧
      compiled.SameButFlags compiled' := by
  have hsources : List.Forall₂ SayTheSame plainInput.generated rearrangedInput.generated :=
    .cons ⟨by decide +kernel, by decide +kernel, by decide +kernel⟩ .nil
  have hbound : (plainInput.parse.toOption.bind fun units ↦
      (Binding.bind units plainInput.references).toOption).isSome = true := by decide +kernel
  obtain ⟨module, hmodule⟩ := Option.isSome_iff_exists.mp hbound
  have hplain := compile_of_bound hmodule ()
  have hnever : NeverCancels (pure false : StateM Unit Bool) () := fun _ ↦ rfl
  have hname : plainInput.moduleName = rearrangedInput.moduleName := rfl
  obtain ⟨hiff, hsame⟩ := image_independent_of_places hnever hnever hname rfl rfl hsources
  obtain ⟨compiled, next, hcompile⟩ := hiff.mp ⟨_, _, hplain⟩
  exact ⟨_, compiled, _, next, hplain, hcompile, hsame _ _ _ _ hplain hcompile⟩

end PageScript
