import PageScript.Proofs.Emission.Loading
import PageScript.Proofs.Image.Writer

/-!
# What a build id identifies

The build id covers the sections of an image, but neither its header nor its directory. So it must
be clear from the covered bytes alone where each section ends. All sections but the code say so
themselves. The code does not; in an emitted image, however, the blocks of the classes follow each
other from the start to the end of the code, so that the class table says it.
-/

namespace PageScript

open Image

/-- Two byte strings that differ and still have one build id. -/
def BuildId.Collide (first second : Bytes) : Prop :=
  first ≠ second ∧ BuildId.ofContent first = BuildId.ofContent second

/-! ## Sections that say where they end -/

namespace Image

/-- In two layouts with the same content, the first sections have the same value if one reader reads
both, and the contents behind them are the same again. -/
theorem layout_cons_unique {α : Type} {reader : Wire.Reader α} {position : Nat}
    {kind kind' : SectionKind} {payload payload' : Bytes} {value value' : α}
    {rest rest' : List (SectionKind × Bytes)} (hreads : Wire.Reads reader payload value)
    (hreads' : Wire.Reads reader payload' value')
    (h : (layout position ((kind, payload) :: rest)).2 =
      (layout position ((kind', payload') :: rest')).2) :
    value = value' ∧ ∃ next, (layout next rest).2 = (layout next rest').2 := by
  simp only [layout_cons, List.append_assoc, List.append_cancel_left_eq] at h
  obtain ⟨hvalue, hpayload, hrest⟩ := hreads.unique hreads' h
  refine ⟨hvalue, position + (padding position).length + payload.length, ?_⟩
  rw [← hpayload] at hrest
  exact hrest

/-- The last section is only determined together with its length. -/
theorem layout_singleton_unique {position : Nat} {kind kind' : SectionKind}
    {payload payload' : Bytes} (hlength : payload.length = payload'.length)
    (h : (layout position [(kind, payload)]).2 = (layout position [(kind', payload')]).2) :
    payload = payload' := by
  simp only [layout_cons, List.append_assoc, List.append_cancel_left_eq] at h
  exact List.append_inj_left h hlength

end Image

namespace ModuleImage

/-- The writer of an image when all sections are in. -/
def writer (image : ModuleImage) : Writer :=
  .run image.buildMode
    (.setFlag image.flags :: image.sections.map fun current ↦ .append current.1 current.2)

theorem sections_writer (image : ModuleImage) :
    (Writer.Step.setFlag image.flags ::
      image.sections.map fun current ↦ .append current.1 current.2).filterMap
        Writer.Step.section? = image.sections := by
  rw [List.filterMap_cons, List.filterMap_map]
  exact List.filterMap_some

theorem flags_writer (image : ModuleImage) :
    (Writer.Step.setFlag image.flags ::
      image.sections.map fun current ↦ .append current.1 current.2).filterMap
        Writer.Step.flag? = [image.flags] := by
  rw [List.filterMap_cons, List.filterMap_map]
  simp [Writer.Step.flag?, Function.comp_def]

theorem hashed_writer (image : ModuleImage) :
    image.writer.hashed = (layout Header.size image.sections).2 := by
  rw [writer, Writer.hashed_run, sections_writer]

/-- Encoding an image is writing its sections step by step. -/
theorem encode_eq_finish (image : ModuleImage) :
    image.encode = (image.writer.finish.bytes, image.writer.finish.buildId) := by
  have hflags : Writer.union [image.flags] = image.flags := UInt8.zero_or
  rw [writer, Writer.finish_run, sections_writer, flags_writer, hflags]
  rfl

theorem buildId_eq_ofContent (image : ModuleImage) :
    image.encode.2 = BuildId.ofContent image.writer.hashed := by
  rw [encode_eq_finish]
  rfl

/-- All but build mode and flags are the same. -/
structure SameContent (first second : ModuleImage) : Prop where
  name : first.name = second.name
  strings : first.strings = second.strings
  types : first.types = second.types
  classes : first.classes = second.classes
  code : first.code = second.code

theorem sameContent_iff {first second : ModuleImage} :
    first.SameContent second ↔
      { first with buildMode := second.buildMode, flags := second.flags } = second := by
  constructor
  · intro h
    rw [h.name, h.strings, h.types, h.classes, h.code]
  · intro h
    rw [← h]
    exact ⟨rfl, rfl, rfl, rfl, rfl⟩

theorem SameContent.sections_eq {first second : ModuleImage} (h : first.SameContent second) :
    first.sections = second.sections := by
  rw [sections, sections, h.name, h.strings, h.types, h.classes, h.code]

/-- Images whose covered bytes are the same have the same tables, and the same code if the class
tables tell its length. -/
theorem sameContent_of_hashed_eq {first second : ModuleImage}
    (hfirst : first.encode.1.length < UInt32.size) (hsecond : second.encode.1.length < UInt32.size)
    (hcode : first.classes = second.classes → first.code.length = second.code.length)
    (h : first.writer.hashed = second.writer.hashed) : first.SameContent second := by
  have hreadable := readable_of_length_encode hfirst
  have hreadable' := readable_of_length_encode hsecond
  rw [hashed_writer, hashed_writer] at h
  obtain ⟨hname, _, h⟩ := layout_cons_unique hreadable.name hreadable'.name h
  obtain ⟨hstrings, _, h⟩ := layout_cons_unique hreadable.strings hreadable'.strings h
  obtain ⟨htypes, _, h⟩ := layout_cons_unique hreadable.types hreadable'.types h
  obtain ⟨hclasses, _, h⟩ := layout_cons_unique hreadable.classes hreadable'.classes h
  exact ⟨hname, hstrings, htypes, hclasses, layout_singleton_unique (hcode hclasses) h⟩

end ModuleImage

/-! ## The class table says where the code ends -/

namespace Emission

/-- Blocks of code that follow each other from `start` to `stop`. -/
def Tiles (start stop : Nat) : List ClassEntry → Prop
  | [] => start = stop
  | entry :: rest =>
    entry.codeOffset.toNat = start ∧ Tiles (start + entry.codeLength.toNat) stop rest

theorem Tiles.stop_unique {start stop stop' : Nat} {entries : List ClassEntry}
    (h : Tiles start stop entries) (h' : Tiles start stop' entries) : stop = stop' := by
  induction entries generalizing start with
  | nil => exact h.symm.trans h'
  | cons entry rest ih => exact ih h.2 h'.2

/-- The blocks of the classes tile the code they are emitted into. -/
theorem tiles_emitClasses (buildMode : BuildMode) (classes : List String) (pools : Pools)
    (offset : Nat) (rest : List BoundClass)
    (hsize : offset + (emitClasses buildMode classes pools offset rest).2.1.length <
      UInt32.size) :
    Tiles offset (offset + (emitClasses buildMode classes pools offset rest).2.1.length)
      (emitClasses buildMode classes pools offset rest).1 := by
  induction rest generalizing pools offset with
  | nil => rfl
  | cons current rest ih =>
    let code := Instruction.encodeAll
      (lowerBody classes pools (emittedBody buildMode current.body)).1
    let following := emitClasses buildMode classes (classPools buildMode classes pools current)
      (offset + code.length) rest
    have hlength : (emitClasses buildMode classes pools offset (current :: rest)).2.1.length =
        code.length + following.2.1.length := List.length_append
    rw [hlength] at hsize ⊢
    have hoffset : (UInt32.ofNat offset).toNat = offset := Wire.toNat_ofNat_of_lt (by omega)
    have hcode : (UInt32.ofNat code.length).toNat = code.length :=
      Wire.toNat_ofNat_of_lt (by omega)
    rw [← Nat.add_assoc] at hsize ⊢
    refine ⟨hoffset, ?_⟩
    change Tiles (offset + (UInt32.ofNat code.length).toNat) _ following.1
    rw [hcode]
    exact ih _ _ hsize

theorem tiles_of_fits {module : BoundModule} {options : Options}
    (hfits : (image module options).Fits) :
    Tiles 0 (image module options).code.length (image module options).classes := by
  have h := tiles_emitClasses options.buildMode (module.classes.map BoundClass.name) {} 0
    module.classes (by rw [Nat.zero_add]; exact hfits.code)
  rw [Nat.zero_add] at h
  exact h

theorem tiles_image (module : BoundModule) (options : Options)
    (hsize : (image module options).encode.1.length < UInt32.size) :
    Tiles 0 (image module options).code.length (image module options).classes :=
  tiles_of_fits (ModuleImage.fits_of_length_encode hsize)

/-! ## Identity -/

/-- The bytes that the build id covers determine an emitted image up to build mode and flags, and
therefore so does the build id, unless it is that of two different contents. -/
theorem buildId_identifies (module module' : BoundModule) (options options' : Options)
    (hsize : (image module options).encode.1.length < UInt32.size)
    (hsize' : (image module' options').encode.1.length < UInt32.size) :
    ((image module options).writer.hashed = (image module' options').writer.hashed ↔
        (image module options).SameContent (image module' options')) ∧
      (¬BuildId.Collide (image module options).writer.hashed
          (image module' options').writer.hashed →
        ((image module options).encode.2 = (image module' options').encode.2 ↔
          { image module options with
            buildMode := (image module' options').buildMode
            flags := (image module' options').flags } = image module' options')) := by
  have hhashed : (image module options).writer.hashed = (image module' options').writer.hashed ↔
      (image module options).SameContent (image module' options') := by
    constructor
    · apply ModuleImage.sameContent_of_hashed_eq hsize hsize'
      intro hclasses
      have htiles := tiles_image module options hsize
      rw [hclasses] at htiles
      exact htiles.stop_unique (tiles_image module' options' hsize')
    · intro hsame
      rw [ModuleImage.hashed_writer, ModuleImage.hashed_writer, hsame.sections_eq]
  refine ⟨hhashed, fun hcollide ↦ ?_⟩
  rw [← ModuleImage.sameContent_iff, ← hhashed, ModuleImage.buildId_eq_ofContent,
    ModuleImage.buildId_eq_ofContent]
  constructor
  · intro hbuildId
    by_contra hne
    exact hcollide ⟨hne, hbuildId⟩
  · exact congrArg BuildId.ofContent

/-- A module with one class, which was found in the file `path`. -/
def notice (path : String) : BoundModule where
  classes := [
    { name := "Notice", base := ⟨"Lib", "Page"⟩, slotCount := 1, unit := 0
      body := [⟨.write "Closed", ⟨path, 3, 3⟩⟩, ⟨.create ⟨"Lib", "Box"⟩ 0, ⟨path, 4, 3⟩⟩] }]

/-- With other places, build mode and symbols the build id stays, and so does all else. -/
theorem buildId_identifies_notice :
    (image (notice "a.kps") ⟨"Compiled.Notice", .debug, false, false⟩).SameContent
        (image (notice "b.kps") ⟨"Compiled.Notice", .release, true, true⟩) ∧
      (image (notice "a.kps") ⟨"Compiled.Notice", .debug, false, false⟩).encode.2 =
        (image (notice "b.kps") ⟨"Compiled.Notice", .release, true, true⟩).encode.2 := by
  have hsize : (image (notice "a.kps") ⟨"Compiled.Notice", .debug, false, false⟩).encode.1.length <
      UInt32.size := by
    rw [length_encode_image]
    decide +kernel
  have hsize' : (image (notice "b.kps") ⟨"Compiled.Notice", .release, true, true⟩).encode.1.length <
      UInt32.size := by
    rw [length_encode_image]
    decide +kernel
  have hhashed : (image (notice "a.kps") ⟨"Compiled.Notice", .debug, false, false⟩).writer.hashed =
      (image (notice "b.kps") ⟨"Compiled.Notice", .release, true, true⟩).writer.hashed := by
    decide +kernel
  have hidentifies := buildId_identifies _ _ _ _ hsize hsize'
  have hsame := hidentifies.1.mp hhashed
  refine ⟨hsame, (hidentifies.2 fun hcollide ↦ hcollide.1 hhashed).mpr ?_⟩
  exact ModuleImage.sameContent_iff.mp hsame

end Emission

end PageScript
