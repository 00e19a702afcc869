import PageScript.LoadedModule
import PageScript.Proofs.Emission.Code
import PageScript.Proofs.Image.RoundTrip

/-!
# Loading emitted modules

What is emitted can be loaded, except that a bound module may ask for slots it does not have or
embed classes that do not exist. Whether it does can be said about the bound module itself, and so
loading ends the same way in every build mode.
-/

namespace PageScript

open Image

/-! ## Checks on bound modules -/

namespace BoundStatement

/-- The check of an operand, said about the statement. -/
def Op.check (classes : List String) (slots : UInt32) : Op → Except OperandFault Unit
  | .write _ => .ok ()
  | .create _ slot => LoadedModule.checkSlot slots (UInt32.ofNat slot)
  | .assign slot _ _ => LoadedModule.checkSlot slots (UInt32.ofNat slot)
  | .render slot => LoadedModule.checkSlot slots (UInt32.ofNat slot)
  | .embed className =>
    if className ∈ classes then .ok () else .error (.unknownClass 0xffffffff)

end BoundStatement

namespace BoundClass

def check (classes : List String) (current : BoundClass) : Except LoadError Unit :=
  (current.body.forM fun stmt ↦ stmt.op.check classes (UInt32.ofNat current.slotCount)).mapError
    (.invalidOperand current.name)

end BoundClass

namespace BoundModule

def classNames (module : BoundModule) : List String := module.classes.map BoundClass.name

/-- The first statement that asks for something that does not exist is reported. -/
def check (module : BoundModule) : Except LoadError Unit :=
  module.classes.forM (BoundClass.check module.classNames)

end BoundModule

namespace Emission

variable {image : ModuleImage} {classes : List String}

/-! ## Numbers of classes -/

theorem classNumber_of_mem {name : String} (h : name ∈ classes) :
    ∃ index, classNumber classes name = UInt32.ofNat index ∧ classes[index]? = some name := by
  unfold classNumber
  cases hindex : classes.reverse.idxOf? name with
  | none =>
    rw [List.idxOf?_eq_none_iff] at hindex
    exact absurd (List.mem_reverse.mpr h) hindex
  | some index =>
    obtain ⟨hlt, heq, _⟩ := List.idxOf?_eq_some_iff.mp hindex
    rw [List.length_reverse] at hlt
    refine ⟨classes.length - 1 - index, rfl, ?_⟩
    rw [← heq, List.getElem_reverse, List.getElem?_eq_getElem]

/-- A class that is not there gets a number that no class has. -/
theorem classNumber_of_not_mem {name : String} (h : name ∉ classes) :
    classNumber classes name = 0xffffffff := by
  have hindex : classes.reverse.idxOf? name = none := by
    rw [List.idxOf?_eq_none_iff, List.mem_reverse]
    exact h
  rw [classNumber, hindex]

/-! ## Operands -/

/-- The operands of an instruction are in order exactly if those of its statement are. -/
theorem checkOperands_of_stands {instruction : Instruction} {op : BoundStatement.Op}
    (h : Stands image classes instruction op) (hclasses : image.classes.length = classes.length)
    (hsize : classes.length < UInt32.size) (slots : UInt32) :
    LoadedModule.checkOperands image slots instruction = op.check classes slots := by
  cases h with
  | write htext => simp [LoadedModule.checkOperands, LoadedModule.checkText, htext,
      BoundStatement.Op.check]
  | create slot htype => simp [LoadedModule.checkOperands, LoadedModule.checkType, htype,
      BoundStatement.Op.check]
  | assign slot hname hvalue =>
    simp only [LoadedModule.checkOperands, LoadedModule.checkText, hname, hvalue,
      Outcome.discard_ok, Outcome.mapError_ok, BoundStatement.Op.check]
    cases LoadedModule.checkSlot slots (UInt32.ofNat slot) <;> rfl
  | render slot => rfl
  | embed className =>
    simp only [LoadedModule.checkOperands, BoundStatement.Op.check, hclasses]
    by_cases hmem : className ∈ classes
    · obtain ⟨index, hnumber, hindex⟩ := classNumber_of_mem hmem
      have hlt := (List.getElem?_eq_some_iff.mp hindex).1
      rw [if_pos hmem, hnumber, Wire.toNat_ofNat_of_lt (by omega), if_pos hlt]
    · have hlast : ¬(0xffffffff : UInt32).toNat < classes.length := by
        change ¬UInt32.size - 1 < classes.length
        omega
      rw [if_neg hmem, classNumber_of_not_mem hmem, if_neg hlast]

theorem forM_checkOperands {code : List Instruction} {body : List BoundStatement}
    (h : Implements image classes code body) (hclasses : image.classes.length = classes.length)
    (hsize : classes.length < UInt32.size) (slots : UInt32) :
    code.forM (LoadedModule.checkOperands image slots) =
      body.forM fun stmt ↦ stmt.op.check classes slots := by
  induction h with
  | nil => rfl
  | cons first _ ih =>
    rw [Outcome.forM_cons, Outcome.forM_cons, ih,
      checkOperands_of_stands first hclasses hsize slots]

/-- Writes have nothing that could be out of range, so merging them changes no check. -/
theorem forM_check_mergeWrites (slots : UInt32) (body : List BoundStatement) :
    ((mergeWrites body).forM fun stmt ↦ stmt.op.check classes slots) =
      body.forM fun stmt ↦ stmt.op.check classes slots := by
  induction body with
  | nil => rfl
  | cons stmt rest ih =>
    obtain ⟨text, more, location, merged, hop, hrest, hmerged⟩ | hmerged :=
      mergeWrites_cons stmt rest
    · rw [hmerged, Outcome.forM_cons, Outcome.forM_cons, ← ih, hrest, Outcome.forM_cons, hop]
      rfl
    · rw [hmerged, Outcome.forM_cons, Outcome.forM_cons, ih]

/-- Merging writes does not change what is wrong with a body. -/
theorem forM_check_emittedBody (buildMode : BuildMode) (slots : UInt32)
    (body : List BoundStatement) :
    ((emittedBody buildMode body).forM fun stmt ↦ stmt.op.check classes slots) =
      body.forM fun stmt ↦ stmt.op.check classes slots := by
  cases buildMode with
  | debug => rfl
  | release => exact forM_check_mergeWrites slots body

/-! ## Classes -/

theorem Describes.classCode_eq {buildMode : BuildMode} {index : Nat} {entry : ClassEntry}
    {current : BoundClass} (h : Describes image buildMode classes entry current)
    (hentry : image.classes[index]? = some entry) :
    ∃ code, Implements image classes code (emittedBody buildMode current.body) ∧
      image.classCode index = .ok (Instruction.encodeAll code) := by
  obtain ⟨code, himplements, hslice⟩ := h.code
  refine ⟨code, himplements, ?_⟩
  simp only [ModuleImage.classCode, ModuleImage.classAt, hentry, Outcome.ok_bind, h.stop_le,
    if_true, hslice, Outcome.pure_eq]

theorem Describes.className_eq {buildMode : BuildMode} {index : Nat} {entry : ClassEntry}
    {current : BoundClass} (h : Describes image buildMode classes entry current)
    (hentry : image.classes[index]? = some entry) : image.className index = .ok current.name := by
  simp only [ModuleImage.className, ModuleImage.classAt, hentry, Outcome.ok_bind, h.name]

/-- Loading a class gives its code, unless the class itself is at fault. -/
theorem Describes.loadClass_eq {buildMode : BuildMode} {index : Nat} {entry : ClassEntry}
    {current : BoundClass} (h : Describes image buildMode classes entry current)
    (hentry : image.classes[index]? = some entry)
    (hclasses : image.classes.length = classes.length) (hsize : classes.length < UInt32.size) :
    ∃ code, Implements image classes code (emittedBody buildMode current.body) ∧
      LoadedModule.loadClass image index = current.check classes >>= fun _ ↦ .ok code := by
  obtain ⟨code, himplements, hcode⟩ := h.classCode_eq hentry
  refine ⟨code, himplements, ?_⟩
  have hname := h.className_eq hentry
  have hchecks := forM_checkOperands himplements hclasses hsize entry.slotCount
  rw [forM_check_emittedBody, h.slotCount] at hchecks
  simp only [LoadedModule.loadClass, ModuleImage.classAt, hentry, hname, hcode,
    Instruction.decodeAll_encodeAll, Outcome.mapError_ok, Outcome.ok_bind, h.slotCount, hchecks]
  rfl

/-! ## Modules -/

theorem exists_of_getElem?_left {α β : Type} {related : α → β → Prop} {first : List α}
    {second : List β} (h : List.Forall₂ related first second) {index : Nat} {value : α}
    (hvalue : first[index]? = some value) :
    ∃ partner, second[index]? = some partner ∧ related value partner := by
  induction h generalizing index with
  | nil => simp at hvalue
  | cons hhead _ ih =>
    cases index with
    | zero =>
      rw [List.getElem?_cons_zero, Option.some.injEq] at hvalue
      exact ⟨_, rfl, hvalue ▸ hhead⟩
    | succ index =>
      rw [List.getElem?_cons_succ] at hvalue ⊢
      exact ih hvalue

theorem exists_of_getElem?_right {α β : Type} {related : α → β → Prop} {first : List α}
    {second : List β} (h : List.Forall₂ related first second) {index : Nat} {value : β}
    (hvalue : second[index]? = some value) :
    ∃ partner, first[index]? = some partner ∧ related partner value :=
  exists_of_getElem?_left h.flip hvalue

/-- Classes one by one and classes by number are loaded to the same code. -/
theorem mapM_range' {check : BoundClass → Except LoadError Unit}
    {load : Nat → Except LoadError (List Instruction)}
    {related : List Instruction → BoundClass → Prop} (rest : List BoundClass) (start : Nat)
    (hload : ∀ index current, rest[index]? = some current → ∃ code, related code current ∧
      load (start + index) = check current >>= fun _ ↦ .ok code) :
    ∃ codes, List.Forall₂ related codes rest ∧
      (List.range' start rest.length).mapM load = rest.forM check >>= fun _ ↦ .ok codes := by
  induction rest generalizing start with
  | nil => exact ⟨[], .nil, rfl⟩
  | cons current rest ih =>
    obtain ⟨code, hcode, hfirst⟩ := hload 0 current rfl
    obtain ⟨codes, hcodes, hrest⟩ := ih (start + 1) fun index other hother ↦ by
      rw [Nat.add_assoc, Nat.add_comm 1 index]
      exact hload (index + 1) other hother
    refine ⟨code :: codes, .cons hcode hcodes, ?_⟩
    rw [List.length_cons, List.range'_succ, List.mapM_cons, hrest, Outcome.forM_cons]
    rw [Nat.add_zero] at hfirst
    rw [hfirst]
    cases check current with
    | error error => rfl
    | ok _ =>
      cases rest.forM check with
      | error error => rfl
      | ok _ => rfl

/-- The tables and classes of an emitted image are those of the bound module. -/
structure Emitted (image : ModuleImage) (buildMode : BuildMode) (module : BoundModule) : Prop where
  types : ∀ entry ∈ image.types,
    (∃ text, image.string entry.module = .ok text) ∧ ∃ text, image.string entry.name = .ok text
  classes : List.Forall₂ (Describes image buildMode module.classNames) image.classes module.classes
  length_lt : module.classNames.length < UInt32.size

/-- The tables of an emitted image are the pools behind its classes. -/
theorem holds_image {module : BoundModule} {options : Options}
    (hfits : (Emission.image module options).Fits) :
    Holds (Emission.image module options)
      (emitClasses options.buildMode module.classNames {} 0 module.classes).2.2 :=
  ⟨rfl, rfl, Nat.le_of_lt hfits.strings, Nat.le_of_lt hfits.types⟩

theorem emitted_of_fits {module : BoundModule} {options : Options}
    (hfits : (Emission.image module options).Fits) :
    Emitted (Emission.image module options) options.buildMode module := by
  let final := (emitClasses options.buildMode module.classNames {} 0 module.classes).2.2
  have hholds : Holds (Emission.image module options) final := holds_image hfits
  have hsound : final.Sound := Pools.kept_sound.emitClasses options.buildMode module.classNames
    Pools.sound_empty 0 module.classes
  have hclasses := describes_emitClasses hholds options.buildMode module.classNames
    Pools.sound_empty [] module.classes (.refl final) rfl hfits.code
  refine ⟨fun entry hentry ↦ ?_, hclasses, ?_⟩
  · obtain ⟨index, hindex⟩ := List.mem_iff_getElem?.mp hentry
    have hlt := (List.getElem?_eq_some_iff.mp hindex).1
    change index < final.entries.length at hlt
    rw [hsound.length_entries] at hlt
    obtain ⟨found, hfound, hnames⟩ := hsound.named hholds.fits index final.types[index]
      (List.getElem?_eq_getElem hlt)
    obtain rfl : found = entry := Option.some.inj (hfound.symm.trans hindex)
    exact ⟨⟨_, ModuleImage.string_of_getElem? hnames.module⟩,
      ⟨_, ModuleImage.string_of_getElem? hnames.name⟩⟩
  · have hlength := hclasses.length_eq
    have hlt := hfits.classes
    change (Emission.image module options).classes.length = _ at hlength
    rw [BoundModule.classNames, List.length_map, ← hlength]
    exact hlt

theorem emitted_image (module : BoundModule) (options : Options)
    (hsize : (Emission.image module options).encode.1.length < UInt32.size) :
    Emitted (Emission.image module options) options.buildMode module :=
  emitted_of_fits (ModuleImage.fits_of_length_encode hsize)

theorem Emitted.validate_eq {buildMode : BuildMode} {module : BoundModule}
    (h : Emitted image buildMode module) : image.validate = .ok () := by
  rw [ModuleImage.validate, Outcome.bind_eq_ok]
  refine ⟨(), Outcome.forM_eq_ok.mpr fun entry hentry ↦ ?_, Outcome.forM_eq_ok.mpr ?_⟩
  · obtain ⟨⟨_, hmodule⟩, ⟨_, hname⟩⟩ := h.types entry hentry
    simp only [ModuleImage.checkType, hmodule, hname, Outcome.discard_ok, Outcome.ok_bind]
  · rintro ⟨entry, index⟩ hmem
    have hentry := List.mem_zipIdx_iff_getElem?.mp hmem
    obtain ⟨current, _, hdescribes⟩ := exists_of_getElem?_left h.classes hentry
    obtain ⟨code, _, hcode⟩ := hdescribes.classCode_eq hentry
    simp only [ModuleImage.checkClass, hdescribes.className_eq hentry, hdescribes.base, hcode,
      Outcome.discard_ok, Outcome.ok_bind]

theorem Emitted.decode_eq {buildMode : BuildMode} {module : BoundModule}
    (h : Emitted image buildMode module) (hsize : image.encode.1.length < UInt32.size) :
    ModuleImage.decode image.encode.1 = .ok (image, image.encode.2) := by
  rw [ModuleImage.decode_encode image hsize, h.validate_eq, Outcome.ok_bind]

theorem Emitted.mapM_loadClass {buildMode : BuildMode} {module : BoundModule}
    (h : Emitted image buildMode module) :
    ∃ codes, List.Forall₂ (fun code current ↦
        Implements image module.classNames code (emittedBody buildMode current.body))
        codes module.classes ∧
      (List.range image.classes.length).mapM (LoadedModule.loadClass image) =
        module.check >>= fun _ ↦ .ok codes := by
  have hlength : image.classes.length = module.classNames.length := by
    rw [h.classes.length_eq, BoundModule.classNames, List.length_map]
  rw [h.classes.length_eq, List.range_eq_range']
  refine mapM_range' module.classes 0 fun index current hcurrent ↦ ?_
  obtain ⟨entry, hentry, hdescribes⟩ := exists_of_getElem?_right h.classes hcurrent
  rw [Nat.zero_add]
  exact hdescribes.loadClass_eq hentry hlength h.length_lt

theorem findIdx?_hasName {buildMode : BuildMode} {entries : List ClassEntry}
    {rest : List BoundClass} (h : List.Forall₂ (Describes image buildMode classes) entries rest)
    (name : String) :
    entries.findIdx? (image.hasName name) = rest.findIdx? (·.name = name) := by
  induction h with
  | nil => rfl
  | @cons entry current entries rest hdescribes _ ih =>
    have hname : image.hasName name entry = decide (current.name = name) := by
      rw [ModuleImage.hasName, hdescribes.name]
    rw [List.findIdx?_cons, List.findIdx?_cons, hname, ih]

/-- A class is found by its name where it stands in the bound module. -/
theorem Emitted.findClass_eq {buildMode : BuildMode} {module : BoundModule}
    (h : Emitted image buildMode module) (name : String) :
    image.findClass name = module.classes.findIdx? (·.name = name) :=
  findIdx?_hasName h.classes name

/-- Every statement but the merged writes takes a byte of the code, so there are not too many. -/
theorem Emitted.length_filter_lt {buildMode : BuildMode} {module : BoundModule}
    (h : Emitted image buildMode module) (hsize : image.code.length < UInt32.size)
    {current : BoundClass} (hcurrent : current ∈ module.classes) :
    (current.body.filter fun stmt ↦ !stmt.isWrite).length < UInt32.size := by
  obtain ⟨index, hindex⟩ := List.mem_iff_getElem?.mp hcurrent
  obtain ⟨entry, _, hdescribes⟩ := exists_of_getElem?_right h.classes hindex
  obtain ⟨code, himplements, hslice⟩ := hdescribes.code
  have hcode := Instruction.length_le_length_encodeAll code
  have hfilter := List.length_filter_le (fun stmt ↦ !stmt.isWrite)
    (emittedBody buildMode current.body)
  rw [himplements.length_eq, ← hslice, Container.slice, List.length_take, List.length_drop] at hcode
  rw [filter_emittedBody] at hfilter
  omega

/-! ## Streams -/

/-- The symbols of a module, stamped with the build id of its image. -/
def stampedSymbols (module : BoundModule) (generated markup : List SourceText)
    (options : Options) : DebugSymbols :=
  { Emission.symbols module generated markup options with
    buildId := (Emission.image module options).encode.2 }

/-- Encoded image and, if `attach` says so, encoded symbols of a module. -/
def streams (module : BoundModule) (generated markup : List SourceText) (options : Options)
    (attach : Bool) : Bytes × Option Bytes :=
  ((Emission.image module options).encode.1,
    if attach then some (stampedSymbols module generated markup options).encode else none)

/-- Streams in which every place can be told by a word. -/
structure Fit (streams : Bytes × Option Bytes) : Prop where
  image : streams.1.length < UInt32.size
  symbols : ∀ bytes ∈ streams.2, bytes.length < UInt32.size

theorem length_encode_image (image : ModuleImage) :
    image.encode.1.length = Header.size +
      (layout Header.size image.sections).2.length +
        image.sections.length * SectionEntry.width := by
  rw [ModuleImage.bytes_encode, length_bytes_write]

/-- The build id that symbols are stamped with does not change their size. -/
theorem length_encode_stampedSymbols (module : BoundModule) (generated markup : List SourceText)
    (options : Options) :
    (stampedSymbols module generated markup options).encode.length =
      (Emission.symbols module generated markup options).encode.length := by
  simp only [DebugSymbols.encode, List.length_append, BuildId.length_bytes]
  rfl

/-- How long streams are can be told without computing a build id. -/
theorem fit_of_lengths {module : BoundModule} {generated markup : List SourceText}
    {options : Options} {attach : Bool}
    (himage : Header.size + (layout Header.size
        (Emission.image module options).sections).2.length +
      (Emission.image module options).sections.length * SectionEntry.width < UInt32.size)
    (hsymbols : (Emission.symbols module generated markup options).encode.length < UInt32.size) :
    Fit (streams module generated markup options attach) := by
  refine ⟨?_, fun bytes hbytes ↦ ?_⟩
  · rw [streams, length_encode_image]
    exact himage
  · cases attach with
    | false => simp [streams] at hbytes
    | true =>
      obtain rfl : (stampedSymbols module generated markup options).encode = bytes := by
        simpa [streams] using hbytes
      rw [length_encode_stampedSymbols]
      exact hsymbols

/-- A module whose first class has writes to merge, a local, and a class to embed. -/
def greeting : BoundModule where
  classes := [
    { name := "Main", base := ⟨"Lib", "Page"⟩, slotCount := 1, unit := 0
      body := [⟨.write "Hello ", ⟨"main.kps", 3, 3⟩⟩, ⟨.write "you", ⟨"main.kps", 4, 3⟩⟩,
        ⟨.create ⟨"Lib", "Box"⟩ 0, ⟨"main.kps", 5, 3⟩⟩,
        ⟨.assign 0 "title" "T", ⟨"main.kps", 6, 3⟩⟩, ⟨.render 0, ⟨"main.kps", 7, 3⟩⟩,
        ⟨.embed "Foot", ⟨"main.kps", 8, 3⟩⟩] },
    { name := "Foot", base := ⟨"Lib", "Page"⟩, slotCount := 0, unit := 0
      body := [⟨.write "Bye", ⟨"main.kps", 10, 21⟩⟩] }]

theorem loadSymbols_encode (symbols : DebugSymbols) (hsize : symbols.encode.length < UInt32.size) :
    LoadedModule.loadSymbols symbols.buildId symbols.encode = .ok symbols := by
  have hdecode := DebugSymbols.decode_encode symbols hsize
  simp only [LoadedModule.loadSymbols, hdecode, Outcome.mapError_ok, Outcome.ok_bind, ne_eq,
    not_true_eq_false, if_false, Outcome.pure_eq]

theorem loadSymbols_streams {module : BoundModule} {generated markup : List SourceText}
    {options : Options} {attach : Bool}
    (hfit : Fit (streams module generated markup options attach)) :
    (streams module generated markup options attach).2.mapM
        (LoadedModule.loadSymbols (Emission.image module options).encode.2) =
      .ok (if attach then some (stampedSymbols module generated markup options) else none) := by
  cases attach with
  | false => rfl
  | true =>
    have hload : LoadedModule.loadSymbols (Emission.image module options).encode.2 _ = _ :=
      loadSymbols_encode (stampedSymbols module generated markup options) (hfit.symbols _ rfl)
    simp only [streams, if_true, Option.mapM_some, hload]
    rfl

/-- Emitted streams are loaded exactly if the bound module passes its check. -/
theorem ofBytes_streams (module : BoundModule) (generated markup : List SourceText)
    (options : Options) (attach : Bool)
    (hfit : Fit (streams module generated markup options attach)) :
    ∃ codes, List.Forall₂ (fun code current ↦ Implements (Emission.image module options)
        module.classNames code (emittedBody options.buildMode current.body)) codes module.classes ∧
      LoadedModule.ofBytes (streams module generated markup options attach).1
          (streams module generated markup options attach).2 =
        module.check >>= fun _ ↦ .ok {
          image := Emission.image module options
          buildId := (Emission.image module options).encode.2
          code := codes
          symbols := if attach then some (stampedSymbols module generated markup options)
            else none } := by
  have hemitted := emitted_image module options hfit.image
  obtain ⟨codes, hcodes, hmapM⟩ := hemitted.mapM_loadClass
  refine ⟨codes, hcodes, ?_⟩
  have hdecode : ModuleImage.decode (streams module generated markup options attach).1 = _ :=
    hemitted.decode_eq hfit.image
  simp only [LoadedModule.ofBytes, hdecode, Outcome.mapError_ok, Outcome.ok_bind,
    loadSymbols_streams hfit, hmapM, Outcome.pure_eq]
  cases module.check with
  | error error => rfl
  | ok _ => rfl

end Emission

end PageScript
