import PageScript.Proofs.Emission.Identity

/-!
# What an emitted image holds

Nothing of a bound module is lost in its image. The code of each class is a block of its own, and
read back through the tables of the image it says the statements of the class again, with every run
of writes merged into one in a release. No table holds anything twice.
-/

namespace PageScript

open Image

namespace BoundStatement.Op

def slot? : Op → Option Nat
  | .create _ slot => some slot
  | .assign slot _ _ => some slot
  | .render slot => some slot
  | _ => none

def embedded? : Op → Option String
  | .embed className => some className
  | _ => none

end BoundStatement.Op

namespace BoundModule

/-- Slots can be told by words. -/
structure SlotsFit (module : BoundModule) : Prop where
  count : ∀ current ∈ module.classes, current.slotCount < UInt32.size
  body : ∀ current ∈ module.classes, ∀ stmt ∈ current.body, ∀ slot ∈ stmt.op.slot?,
    slot < UInt32.size

/-- Only classes of the module are embedded. -/
def Closed (module : BoundModule) : Prop :=
  ∀ current ∈ module.classes, ∀ stmt ∈ current.body, ∀ className ∈ stmt.op.embedded?,
    className ∈ module.classNames

end BoundModule

/-! ## Reading code through the tables -/

/-- Read through the tables of an image, an instruction says an operation. A stop says nothing. -/
inductive ModuleImage.Says (image : ModuleImage) : Instruction → BoundStatement.Op → Prop
  | write {index : UInt32} {text : String} (htext : image.string index = .ok text) :
      Says image (.write index) (.write text)
  | create {index : UInt32} {type : TypeName} (slot : UInt32)
      (htype : image.typeAt index = .ok (type.module, type.name)) :
      Says image (.create index slot) (.create type slot.toNat)
  | assign {nameIndex valueIndex : UInt32} {name value : String} (slot : UInt32)
      (hname : image.string nameIndex = .ok name) (hvalue : image.string valueIndex = .ok value) :
      Says image (.assign slot nameIndex valueIndex) (.assign slot.toNat name value)
  | render (slot : UInt32) : Says image (.render slot) (.render slot.toNat)
  | embed {index : UInt32} {className : String}
      (hclass : image.className index.toNat = .ok className) :
      Says image (.embed index) (.embed className)

namespace Emission

/-- The second list has one write for every run of writes of the first, with their texts joined,
and all else as it is. -/
inductive Merged : List BoundStatement.Op → List BoundStatement.Op → Prop
  | nil : Merged [] []
  | other {op : BoundStatement.Op} {body merged : List BoundStatement.Op}
      (hop : ∀ text, op ≠ .write text) (h : Merged body merged) :
      Merged (op :: body) (op :: merged)
  | run {texts : List String} {body merged : List BoundStatement.Op} (htexts : texts ≠ [])
      (hend : ∀ text, body.head? ≠ some (.write text)) (h : Merged body merged) :
      Merged (texts.map .write ++ body) (.write (String.join texts) :: merged)

/-- The operations that are left of a body in a build mode. -/
def Leaves : BuildMode → List BoundStatement.Op → List BoundStatement.Op → Prop
  | .debug, body, ops => ops = body
  | .release, body, ops => Merged body ops

/-- Read through the tables of `image`, an entry and its block of code say a class: its operations,
and behind them a stop. -/
structure SaysClass (image : ModuleImage) (buildMode : BuildMode) (entry : ClassEntry)
    (current : BoundClass) : Prop where
  name : image.string entry.name = .ok current.name
  base : image.typeAt entry.base = .ok (current.base.module, current.base.name)
  slotCount : entry.slotCount.toNat = current.slotCount
  code : ∃ instructions ops,
    Instruction.decodeAll (Container.slice image.code entry.codeOffset.toNat
      (entry.codeOffset.toNat + entry.codeLength.toNat)) = .ok (instructions ++ [.stop]) ∧
    List.Forall₂ image.Says instructions ops ∧
    Leaves buildMode (current.body.map BoundStatement.op) ops

/-- An image with the classes of a module, their code without gap or overlap, and tables that hold
nothing twice. -/
structure SaysModule (image : ModuleImage) (buildMode : BuildMode) (module : BoundModule) :
    Prop where
  strings : image.strings.Nodup
  types : image.types.Nodup
  typeNames :
    (image.types.map fun entry ↦ (image.string entry.module, image.string entry.name)).Nodup
  tiles : Tiles 0 image.code.length image.classes
  classes : List.Forall₂ (SaysClass image buildMode) image.classes module.classes

/-! ## Merged bodies -/

/-- In front of a body that starts with a write, merging gives a write again. -/
theorem Merged.head_write {text : String} {body merged : List BoundStatement.Op}
    (h : Merged (.write text :: body) merged) :
    ∃ more rest, merged = .write more :: rest := by
  generalize hbody : BoundStatement.Op.write text :: body = start at h
  cases h with
  | nil => contradiction
  | other hop h => exact absurd (List.cons.inj hbody).1.symm (hop text)
  | run htexts hend h => exact ⟨_, _, rfl⟩

/-- One more write joins the write in front. -/
theorem Merged.write_cons {more : String} {body merged : List BoundStatement.Op}
    (h : Merged body (.write more :: merged)) (text : String) :
    Merged (.write text :: body) (.write (text ++ more) :: merged) := by
  generalize hmerged : BoundStatement.Op.write more :: merged = result at h
  cases h with
  | nil => contradiction
  | other hop h => exact absurd (List.cons.inj hmerged).1.symm (hop more)
  | @run texts body _ htexts hend h =>
    obtain ⟨hjoin, rfl⟩ := List.cons.inj hmerged
    obtain rfl := BoundStatement.Op.write.inj hjoin
    rw [← String.join_cons]
    exact .run (List.cons_ne_nil text texts) hend h

theorem merged_mergeWrites (body : List BoundStatement) :
    Merged (body.map BoundStatement.op) ((mergeWrites body).map BoundStatement.op) := by
  induction body with
  | nil => exact .nil
  | cons stmt rest ih =>
    rw [mergeWrites]
    split
    · rename_i text more location merged hop hrest
      rw [hrest] at ih
      rw [List.map_cons, hop]
      exact ih.write_cons text
    · rename_i hsingle
      rw [List.map_cons, List.map_cons]
      cases hop : stmt.op with
      | write text =>
        -- The body behind this write cannot start with one, since the two would have joined.
        have hend : ∀ other, (rest.map BoundStatement.op).head? ≠ some (.write other) := by
          intro other hhead
          obtain ⟨more, hmore⟩ := List.head?_eq_some_iff.mp hhead
          rw [hmore] at ih
          obtain ⟨text', ops, hmerged⟩ := ih.head_write
          obtain ⟨⟨op, location⟩, merged, hrest, rfl, _⟩ := List.map_eq_cons_iff.mp hmerged
          exact hsingle text text' location merged hop hrest
        have hrun := Merged.run (List.cons_ne_nil text []) hend ih
        rwa [String.join_cons, String.join_nil, String.append_empty] at hrun
      | _ => exact .other (by simp) ih

theorem leaves_emittedBody (buildMode : BuildMode) (body : List BoundStatement) :
    Leaves buildMode (body.map BoundStatement.op)
      ((emittedBody buildMode body).map BoundStatement.op) := by
  cases buildMode with
  | debug => rfl
  | release => exact merged_mergeWrites body

/-- What holds of every write and of each statement of a body holds of what is left of it. -/
theorem forall_emittedBody (holds : BoundStatement.Op → Prop)
    (hwrite : ∀ text, holds (.write text)) (buildMode : BuildMode) {body : List BoundStatement}
    (h : ∀ stmt ∈ body, holds stmt.op) : ∀ stmt ∈ emittedBody buildMode body, holds stmt.op := by
  intro stmt hstmt
  cases hkind : stmt.isWrite with
  | true =>
    unfold BoundStatement.isWrite at hkind
    split at hkind
    · rename_i text hop
      exact hop ▸ hwrite text
    · contradiction
  | false =>
    have hmem : stmt ∈ (emittedBody buildMode body).filter fun stmt ↦ !stmt.isWrite :=
      List.mem_filter.mpr ⟨hstmt, by rw [hkind]; rfl⟩
    rw [filter_emittedBody] at hmem
    exact h stmt (List.mem_filter.mp hmem).1

/-! ## Code -/

theorem forall₂_imp_of_mem {α β : Type} {related other : α → β → Prop} {first : List α}
    {second : List β} (h : List.Forall₂ related first second)
    (himp : ∀ value partner, partner ∈ second → related value partner → other value partner) :
    List.Forall₂ other first second := by
  rw [List.forall₂_iff_zip] at h ⊢
  exact ⟨h.1, fun hmem ↦ himp _ _ (List.of_mem_zip hmem).2 (h.2 hmem)⟩

variable {image : ModuleImage} {classes : List String}

/-- Code that stands for a body ends in its only stop. -/
theorem Implements.exists_concat {code : List Instruction} {body : List BoundStatement}
    (h : Implements image classes code body) :
    ∃ instructions, code = instructions ++ [.stop] ∧
      List.Forall₂ (fun instruction stmt ↦ Stands image classes instruction stmt.op)
        instructions body := by
  induction h with
  | nil => exact ⟨[], rfl, .nil⟩
  | cons first _ ih =>
    obtain ⟨instructions, rfl, hrest⟩ := ih
    exact ⟨_ :: instructions, rfl, .cons first hrest⟩

theorem Emitted.className_classNumber {buildMode : BuildMode} {module : BoundModule}
    (h : Emitted image buildMode module) {className : String}
    (hmem : className ∈ module.classNames) :
    image.className (classNumber module.classNames className).toNat = .ok className := by
  obtain ⟨index, hnumber, hindex⟩ := classNumber_of_mem hmem
  have hlt := (List.getElem?_eq_some_iff.mp hindex).1
  rw [BoundModule.classNames, List.getElem?_map, Option.map_eq_some_iff] at hindex
  obtain ⟨current, hcurrent, rfl⟩ := hindex
  obtain ⟨entry, hentry, hdescribes⟩ := exists_of_getElem?_right h.classes hcurrent
  have hsize := h.length_lt
  rw [hnumber, Wire.toNat_ofNat_of_lt (by omega)]
  exact hdescribes.className_eq hentry

theorem Emitted.states {buildMode : BuildMode} {module : BoundModule}
    (h : Emitted image buildMode module) {instruction : Instruction} {op : BoundStatement.Op}
    (hslot : ∀ slot ∈ op.slot?, slot < UInt32.size)
    (hclass : ∀ className ∈ op.embedded?, className ∈ module.classNames)
    (hstands : Stands image module.classNames instruction op) : image.Says instruction op := by
  have hword : ∀ {slot}, slot ∈ op.slot? → (UInt32.ofNat slot).toNat = slot :=
    fun hmem ↦ Wire.toNat_ofNat_of_lt (hslot _ hmem)
  cases hstands with
  | write htext => exact .write htext
  | create slot htype =>
    have htold := ModuleImage.Says.create (UInt32.ofNat slot) htype
    rwa [hword rfl] at htold
  | assign slot hname hvalue =>
    have htold := ModuleImage.Says.assign (UInt32.ofNat slot) hname hvalue
    rwa [hword rfl] at htold
  | render slot =>
    have htold : image.Says (.render (UInt32.ofNat slot)) _ := .render (UInt32.ofNat slot)
    rwa [hword rfl] at htold
  | embed className => exact .embed (h.className_classNumber (hclass className rfl))

theorem Emitted.saysClass {buildMode : BuildMode} {module : BoundModule}
    (h : Emitted image buildMode module) (hslots : module.SlotsFit) (hclosed : module.Closed)
    {current : BoundClass} (hcurrent : current ∈ module.classes) {entry : ClassEntry}
    (hdescribes : Describes image buildMode module.classNames entry current) :
    SaysClass image buildMode entry current := by
  obtain ⟨code, himplements, hslice⟩ := hdescribes.code
  obtain ⟨instructions, rfl, hstands⟩ := himplements.exists_concat
  have hslot := forall_emittedBody (fun op ↦ ∀ slot ∈ op.slot?, slot < UInt32.size)
    (fun _ _ hmem ↦ by contradiction) buildMode (hslots.body current hcurrent)
  have hclass := forall_emittedBody
    (fun op ↦ ∀ className ∈ op.embedded?, className ∈ module.classNames)
    (fun _ _ hmem ↦ by contradiction) buildMode (hclosed current hcurrent)
  refine ⟨hdescribes.name, hdescribes.base, ?_, instructions, _, ?_, ?_,
    leaves_emittedBody buildMode current.body⟩
  · rw [hdescribes.slotCount, Wire.toNat_ofNat_of_lt (hslots.count current hcurrent)]
  · rw [hslice, Instruction.decodeAll_encodeAll]
  · rw [List.forall₂_map_right_iff]
    exact forall₂_imp_of_mem hstands fun _ stmt hmem hfirst ↦
      h.states (hslot stmt hmem) (hclass stmt hmem) hfirst

/-! ## Modules -/

/-- The types of an image are the pooled ones, each by its names. -/
theorem Holds.map_types {pools : Pools} (h : Holds image pools) (hsound : pools.Sound) :
    (image.types.map fun entry ↦ (image.string entry.module, image.string entry.name)) =
      pools.types.map fun type ↦ (.ok type.module, .ok type.name) := by
  apply List.ext_getElem?
  intro index
  rw [List.getElem?_map, List.getElem?_map, h.types]
  cases htype : pools.types[index]? with
  | none =>
    rw [List.getElem?_eq_none_iff, ← hsound.length_entries] at htype
    rw [List.getElem?_eq_none htype]
    rfl
  | some type =>
    obtain ⟨entry, hentry, hnames⟩ := hsound.named h.fits index type htype
    have hmodule : image.string entry.module = .ok type.module :=
      ModuleImage.string_of_getElem? (h.strings ▸ hnames.module)
    have hname : image.string entry.name = .ok type.name :=
      ModuleImage.string_of_getElem? (h.strings ▸ hnames.name)
    rw [hentry, Option.map_some, Option.map_some, hmodule, hname]

/-- Read through its tables, an emitted image says the bound module again. -/
theorem saysModule_image {module : BoundModule} {options : Options}
    (hfits : (Emission.image module options).Fits) (hslots : module.SlotsFit)
    (hclosed : module.Closed) :
    SaysModule (Emission.image module options) options.buildMode module := by
  have hemitted := emitted_of_fits hfits
  have hholds := holds_image hfits
  have hsound := Pools.kept_sound.emitClasses options.buildMode module.classNames
    Pools.sound_empty 0 module.classes
  have hdistinct := Pools.kept_distinct.emitClasses options.buildMode module.classNames
    Pools.distinct_empty 0 module.classes
  have hnames : ((Emission.image module options).types.map fun entry ↦
      ((Emission.image module options).string entry.module,
        (Emission.image module options).string entry.name)).Nodup := by
    rw [hholds.map_types hsound]
    refine hdistinct.types.map fun first second heq ↦ ?_
    obtain ⟨hmodule, hname⟩ := Prod.mk.inj heq
    exact congrArg₂ TypeName.mk (Except.ok.inj hmodule) (Except.ok.inj hname)
  refine ⟨hdistinct.strings, hnames.of_map _, hnames, tiles_of_fits hfits, ?_⟩
  exact forall₂_imp_of_mem hemitted.classes fun _ _ hmem hdescribes ↦
    hemitted.saysClass hslots hclosed hmem hdescribes

theorem saysModule_image_greeting :
    SaysModule (Emission.image greeting ⟨"site", .release, true, true⟩) .release greeting := by
  have hfits : (Emission.image greeting ⟨"site", .release, true, true⟩).Fits := by
    constructor <;> decide +kernel
  have hslots : greeting.SlotsFit := by
    constructor <;> decide +kernel
  have hclosed : greeting.Closed := by
    unfold BoundModule.Closed
    decide +kernel
  exact saysModule_image hfits hslots hclosed

end Emission

end PageScript
