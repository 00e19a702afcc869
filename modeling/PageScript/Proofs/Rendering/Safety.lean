import PageScript.Proofs.Emission.Loading
import PageScript.Proofs.Image.Bounds
import PageScript.Proofs.Rendering.Step

/-!
# Loaded code is safe to run

Whatever bytes a module was loaded from, loading has checked every operand of its code. So running
it finds every text, type and class it asks for, and every slot it asks for exists: a rendering may
fail, but not because the module is corrupt.
-/

namespace PageScript

/-! ## What loading has checked -/

namespace LoadedModule

/-- Every class has a name, and code whose operands are in range. -/
structure Valid (module : LoadedModule) : Prop where
  length_code : module.code.length = module.image.classes.length
  className : ∀ index < module.classCount, ∃ name, module.className index = .ok name
  operands : ∀ index < module.classCount, ∃ entry, module.image.classes[index]? = some entry ∧
    ∀ instruction ∈ module.instructions index,
      checkOperands module.image entry.slotCount instruction = .ok ()

/-- Code that was loaded has operands that were checked, one by one. -/
theorem checkOperands_of_loadClass {image : ModuleImage} {index : Nat} {code : List Instruction}
    (h : loadClass image index = .ok code) :
    (∃ name, image.className index = .ok name) ∧
      ∃ entry, image.classes[index]? = some entry ∧
        ∀ instruction ∈ code, checkOperands image entry.slotCount instruction = .ok () := by
  obtain ⟨entry, hentry, h⟩ := Outcome.bind_eq_ok.mp h
  obtain ⟨name, hname, h⟩ := Outcome.bind_eq_ok.mp h
  obtain ⟨bytes, _, h⟩ := Outcome.bind_eq_ok.mp h
  obtain ⟨found, _, h⟩ := Outcome.bind_eq_ok.mp h
  obtain ⟨_, hchecks, h⟩ := Outcome.bind_eq_ok.mp h
  obtain rfl : found = code := Except.ok.inj h
  refine ⟨⟨name, Outcome.mapError_eq_ok.mp hname⟩, entry, ?_, ?_⟩
  · have hclass := Outcome.mapError_eq_ok.mp hentry
    unfold ModuleImage.classAt at hclass
    split at hclass
    · rename_i found hfound
      cases hclass
      exact hfound
    · contradiction
  · exact Outcome.forM_eq_ok.mp (Outcome.mapError_eq_ok.mp hchecks)

/-- Whatever the bytes are, a module that was loaded from them is valid. -/
theorem valid_of_ofBytes {bytes : Bytes} {symbols : Option Bytes} {module : LoadedModule}
    (h : ofBytes bytes symbols = .ok module) : module.Valid := by
  obtain ⟨⟨image, buildId⟩, _, h⟩ := Outcome.bind_eq_ok.mp h
  obtain ⟨loaded, _, h⟩ := Outcome.bind_eq_ok.mp h
  obtain ⟨code, hcode, h⟩ := Outcome.bind_eq_ok.mp h
  obtain rfl : _ = module := Except.ok.inj h
  obtain ⟨hlength, hclass⟩ := Outcome.mapM_eq_ok hcode
  rw [List.length_range] at hlength
  have hload (index : Nat) (hindex : index < code.length) :
      loadClass image index = .ok code[index] := by
    have hloaded := hclass index (by simp; omega) hindex
    rwa [List.getElem_range] at hloaded
  refine ⟨hlength, ?_, ?_⟩
  · intro index hindex
    exact (checkOperands_of_loadClass (hload index hindex)).1
  · intro index hindex
    obtain ⟨entry, hentry, hchecks⟩ := (checkOperands_of_loadClass (hload index hindex)).2
    refine ⟨entry, hentry, ?_⟩
    rw [instructions, List.getD_eq_getElem?_getD, List.getElem?_eq_getElem hindex, Option.getD_some]
    exact hchecks

end LoadedModule

/-! ## Outcomes of safe code -/

/-- Whether an error lies in the module, and not in the page or the host. -/
def RenderError.isInternal : RenderError → Bool
  | .corrupt _ => true
  | .noSuchSlot _ => true
  | _ => false

namespace Rendering

/-- A value that is as it should be, or an error that does not lie in the module. -/
abbrev Safe {α : Type} (holds : α → Prop) : Except RenderError α → Prop :=
  Ends (fun error ↦ error.isInternal = false) holds

variable {κ : Type}

/-! ## Instructions -/

/-- A slot that was checked is one of the slots of its class. -/
theorem lt_of_checkSlot {slots : Slots κ} {count slot : UInt32}
    (hcount : slots.count = count.toNat) (hslot : LoadedModule.checkSlot count slot = .ok ()) :
    slot.toNat < slots.count := by
  unfold LoadedModule.checkSlot at hslot
  split at hslot
  · rename_i hlt
    rw [hcount]
    exact UInt32.lt_iff_toNat_lt.mp hlt
  · contradiction

/-- Filling a slot that exists does not change how many there are. -/
theorem safe_put {slots : Slots κ} {slot : UInt32} (hslot : slot.toNat < slots.count)
    (component : κ) : Safe (fun next ↦ next.count = slots.count) (slots.put slot component) := by
  rw [Slots.put, if_pos hslot]
  exact .ok rfl

/-- A slot within bounds may be empty, which is no internal error. -/
theorem safe_component (module : LoadedModule) {slots : Slots κ} (address : Address)
    {slot : UInt32} (hslot : slot.toNat < slots.count) :
    Safe (fun _ ↦ True) (component module slots address slot) := by
  rw [component, Slots.get, if_pos hslot, Outcome.ok_bind]
  cases slots.filled.lookup slot with
  | some held => exact .ok trivial
  | none => exact .error rfl

theorem ok_of_checkText {image : ModuleImage} {index : UInt32}
    (h : LoadedModule.checkText image index = .ok ()) : ∃ text, image.string index = .ok text :=
  Outcome.discard_eq_ok.mp (Outcome.mapError_eq_ok.mp h)

theorem ok_of_checkType {image : ModuleImage} {index : UInt32}
    (h : LoadedModule.checkType image index = .ok ()) : ∃ type, image.typeAt index = .ok type :=
  Outcome.discard_eq_ok.mp (Outcome.mapError_eq_ok.mp h)

/-- Creating a component in a slot within bounds may fail for want of its type only. -/
theorem safe_create (module : LoadedModule) (host : Host κ) {slots : Slots κ} (address : Address)
    {type slot : UInt32} (htype : LoadedModule.checkType module.image type = .ok ())
    (hslot : slot.toNat < slots.count) :
    Safe (fun next ↦ next.count = slots.count) (create module host slots address type slot) := by
  obtain ⟨⟨moduleName, typeName⟩, htype⟩ := ok_of_checkType htype
  rw [create, htype, table_ok, Outcome.ok_bind]
  simp only
  cases host.instantiate moduleName typeName with
  | some component => exact safe_put hslot component
  | none => exact .error rfl

/-- An embedded class that was checked is one of the module. -/
theorem lt_of_checkOperands_embed {image : ModuleImage} {count index : UInt32}
    (h : LoadedModule.checkOperands image count (.embed index) = .ok ()) :
    index.toNat < image.classes.length := by
  simp only [LoadedModule.checkOperands] at h
  split at h
  · assumption
  · contradiction

variable [Component κ]

/-- An assignment to a slot within bounds may be refused by the component, or find the slot empty.
-/
theorem safe_assign (module : LoadedModule) {slots : Slots κ} (address : Address)
    {slot property value : UInt32} (hslot : slot.toNat < slots.count)
    (hproperty : LoadedModule.checkText module.image property = .ok ())
    (hvalue : LoadedModule.checkText module.image value = .ok ()) :
    Safe (fun next ↦ next.count = slots.count)
      (assign module slots address slot property value) := by
  obtain ⟨name, hname⟩ := ok_of_checkText hproperty
  obtain ⟨text, htext⟩ := ok_of_checkText hvalue
  simp only [assign, hname, htext, table_ok, Outcome.ok_bind]
  refine (safe_component module address hslot).bind fun component _ ↦ ?_
  cases Component.setProperty component name text with
  | ok changed => exact safe_put hslot changed
  | error reason => exact .error rfl

variable {module : LoadedModule}

/-- An instruction that was checked is safe, if embedding the classes of the module is. -/
theorem safe_step (host : Host κ) {embed : Nat → Address → Except RenderError String}
    (hembed : ∀ index address, index < module.image.classes.length →
      Safe (fun _ ↦ True) (embed index address))
    (address : Address) {slots : Slots κ} {count : UInt32} (hcount : slots.count = count.toNat)
    {instruction : Instruction}
    (hcheck : LoadedModule.checkOperands module.image count instruction = .ok ()) :
    Safe (fun next ↦ next.2.count = count.toNat)
      (step module host embed address slots instruction) := by
  cases instruction with
  | write text =>
    obtain ⟨value, hvalue⟩ := ok_of_checkText hcheck
    rw [step, hvalue]
    exact .ok hcount
  | create type slot =>
    obtain ⟨_, htype, hslot⟩ := Outcome.bind_eq_ok.mp hcheck
    have hcreate := safe_create module host address htype (lt_of_checkSlot hcount hslot)
    exact hcreate.bind fun next hnext ↦ .ok (hnext.trans hcount)
  | assign slot property value =>
    obtain ⟨_, hslot, hcheck⟩ := Outcome.bind_eq_ok.mp hcheck
    obtain ⟨_, hproperty, hvalue⟩ := Outcome.bind_eq_ok.mp hcheck
    have hassign := safe_assign module address (lt_of_checkSlot hcount hslot) hproperty hvalue
    exact hassign.bind fun next hnext ↦ .ok (hnext.trans hcount)
  | render slot =>
    have hslot := lt_of_checkSlot hcount hcheck
    exact (safe_component module address hslot).bind fun _ _ ↦ .ok hcount
  | embed index =>
    have hlt := lt_of_checkOperands_embed hcheck
    exact (hembed index.toNat address hlt).bind fun _ _ ↦ .ok hcount
  | stop => exact .ok hcount

/-- Checked code runs without internal errors if what it embeds does. -/
theorem safe_execute (host : Host κ) {embed : Nat → Address → Except RenderError String}
    (hembed : ∀ index address, index < module.image.classes.length →
      Safe (fun _ ↦ True) (embed index address))
    (classIndex ip : Nat) {slots : Slots κ} {count : UInt32} (hcount : slots.count = count.toNat)
    {code : List Instruction}
    (hcode : ∀ instruction ∈ code,
      LoadedModule.checkOperands module.image count instruction = .ok ()) :
    Safe (fun _ ↦ True) (execute module host embed classIndex ip slots code) := by
  induction code generalizing ip slots with
  | nil => exact .ok trivial
  | cons instruction rest ih =>
    by_cases hstop : instruction = .stop
    · subst hstop
      exact .ok trivial
    · rw [execute_cons _ _ _ _ _ _ hstop]
      refine (safe_step host hembed _ hcount (hcode _ List.mem_cons_self)).bind fun next hnext ↦ ?_
      refine (ih (ip + 1) hnext fun other hother ↦ ?_).bind fun _ _ ↦ .ok trivial
      exact hcode other (List.mem_cons_of_mem _ hother)

/-! ## Classes -/

theorem safe_tooDeep (hvalid : module.Valid) (limit : Nat) {index : Nat}
    (hindex : index < module.classCount) (address : Address) :
    Safe (fun _ ↦ True) (tooDeep module limit index address) := by
  obtain ⟨name, hname⟩ := hvalid.className index hindex
  rw [tooDeep, hname]
  exact .error rfl

theorem slotCount_of_getElem? {index : Nat} {entry : Image.ClassEntry}
    (hentry : module.image.classes[index]? = some entry) :
    module.slotCount index = entry.slotCount.toNat := by
  rw [LoadedModule.slotCount, hentry]
  rfl

/-- Classes of a module that was checked are safe to run. -/
theorem safe_run (hvalid : module.Valid) (host : Host κ) (limit budget : Nat) {index : Nat}
    (hindex : index < module.classCount) :
    Safe (fun _ ↦ True) (run module host limit budget index) := by
  induction budget generalizing index with
  | zero =>
    obtain ⟨entry, hentry, hcode⟩ := hvalid.operands index hindex
    apply safe_execute host ?_ index 0 (slotCount_of_getElem? hentry) hcode
    intro inner address hinner
    rw [← hvalid.length_code] at hinner
    exact safe_tooDeep hvalid limit hinner address
  | succ budget ih =>
    obtain ⟨entry, hentry, hcode⟩ := hvalid.operands index hindex
    apply safe_execute host ?_ index 0 (slotCount_of_getElem? hentry) hcode
    intro inner address hinner
    rw [← hvalid.length_code] at hinner
    exact ih hinner

/-! ## Embedded classes -/

/-- The classes that an instruction enters, if `inner` tells those for each class it embeds. -/
def enteredBy (inner : Nat → List Nat) : Instruction → List Nat
  | .embed index => inner index.toNat
  | _ => []

/-- The classes that code enters until it stops or fails. -/
def entered (module : LoadedModule) (host : Host κ)
    (embed : Nat → Address → Except RenderError String) (inner : Nat → List Nat)
    (classIndex : Nat) : Nat → Slots κ → List Instruction → List Nat
  | _, _, [] => []
  | ip, slots, instruction :: rest =>
    if instruction = .stop then []
    else enteredBy inner instruction ++
      match step module host embed ⟨classIndex, ip⟩ slots instruction with
      | .ok next => entered module host embed inner classIndex (ip + 1) next.2 rest
      | .error _ => []

/-- The classes that rendering a class enters, if embedding may go `budget` levels deeper. Where the
limit is reached, no class is entered. -/
def enteredClasses (module : LoadedModule) (host : Host κ) (limit : Nat) : Nat → Nat → List Nat
  | 0, index =>
    entered module host (tooDeep module limit) (fun _ ↦ []) index 0 ⟨module.slotCount index, []⟩
      (module.instructions index)
  | budget + 1, index =>
    entered module host (fun inner _ ↦ run module host limit budget inner)
      (fun inner ↦ inner :: enteredClasses module host limit budget inner) index 0
      ⟨module.slotCount index, []⟩ (module.instructions index)

/-- The classes that one instruction enters were checked, and so are those that they enter. -/
theorem forall_enteredBy {inner : Nat → List Nat} {holds : Nat → Prop} {count : UInt32}
    {instruction : Instruction}
    (hcheck : LoadedModule.checkOperands module.image count instruction = .ok ())
    (hinner : ∀ index < module.image.classes.length, ∀ found ∈ inner index, holds found) :
    ∀ found ∈ enteredBy inner instruction, holds found := by
  cases instruction with
  | embed index => exact hinner index.toNat (lt_of_checkOperands_embed hcheck)
  | _ => simp [enteredBy]

theorem forall_entered (host : Host κ) (embed : Nat → Address → Except RenderError String)
    {inner : Nat → List Nat} {holds : Nat → Prop} (classIndex ip : Nat) (slots : Slots κ)
    {count : UInt32} {code : List Instruction}
    (hcode : ∀ instruction ∈ code,
      LoadedModule.checkOperands module.image count instruction = .ok ())
    (hinner : ∀ index < module.image.classes.length, ∀ found ∈ inner index, holds found) :
    ∀ found ∈ entered module host embed inner classIndex ip slots code, holds found := by
  induction code generalizing ip slots with
  | nil => simp [entered]
  | cons instruction rest ih =>
    have hrest (other : Instruction) (hother : other ∈ rest) :=
      hcode other (List.mem_cons_of_mem _ hother)
    rw [entered]
    split
    · simp
    · refine List.forall_mem_append.mpr ⟨?_, ?_⟩
      · exact forall_enteredBy (hcode _ List.mem_cons_self) hinner
      · split
        · exact ih _ _ hrest
        · simp

/-- Only classes of the module are ever entered. -/
theorem lt_of_mem_enteredClasses (hvalid : module.Valid) (host : Host κ) (limit budget : Nat)
    {index : Nat} (hindex : index < module.classCount) :
    ∀ found ∈ enteredClasses module host limit budget index, found < module.classCount := by
  induction budget generalizing index with
  | zero =>
    obtain ⟨entry, _, hcode⟩ := hvalid.operands index hindex
    refine forall_entered host _ index 0 _ hcode fun inner _ found hfound ↦ ?_
    simp at hfound
  | succ budget ih =>
    obtain ⟨entry, _, hcode⟩ := hvalid.operands index hindex
    refine forall_entered host _ index 0 _ hcode fun inner hinner ↦ ?_
    rw [← hvalid.length_code] at hinner
    exact List.forall_mem_cons.mpr ⟨hinner, ih hinner⟩

end Rendering

/-- A loaded module never turns out to be corrupt while it runs: rendering finds all that the code
names, its slots exist, and it only enters classes of the module. Nor does reading any bytes at all,
whether they are accepted or not, take a slice that does not exist. -/
theorem safe_of_ofBytes :
    (∀ {bytes : Bytes} {symbols : Option Bytes} {module : LoadedModule},
      LoadedModule.ofBytes bytes symbols = .ok module →
      ∀ {κ : Type} [Component κ] (host : Host κ) (limits : LimitSettings),
      ∀ index < module.classCount,
        (∀ error, render module host limits index ≠ .error (.corrupt error)) ∧
        (∀ slot, render module host limits index ≠ .error (.noSuchSlot slot)) ∧
        ∀ inner ∈ Rendering.enteredClasses module host limits.maxIncludeDepth
          limits.maxIncludeDepth index, inner < module.classCount) ∧
    (∀ data, Bounded.container data = (Image.Container.read data).mapError .fault) ∧
    (∀ data container, Image.Container.read data = .ok container →
      ∀ kind, Bounded.payload container kind = (container.section? kind).mapError .fault) ∧
    (∀ (image : ModuleImage) (index : Nat),
      Bounded.classCode image index = (image.classCode index).mapError .fault) ∧
    ∀ code, Bounded.code code = (Instruction.decodeAll code).mapError .fault := by
  refine ⟨?_, Bounded.container_eq, fun _ _ ↦ Bounded.payload_eq, Bounded.classCode_eq,
    Bounded.code_eq⟩
  intro bytes symbols module hload κ _ host limits index hindex
  have hvalid := LoadedModule.valid_of_ofBytes hload
  have hsafe := Rendering.safe_run hvalid host limits.maxIncludeDepth limits.maxIncludeDepth hindex
  refine ⟨fun error ↦ hsafe.ne_error (by simp [RenderError.isInternal]),
    fun slot ↦ hsafe.ne_error (by simp [RenderError.isInternal]), ?_⟩
  exact Rendering.lt_of_mem_enteredClasses hvalid host _ _ hindex

open Emission in
theorem safe_greeting :
    ∃ module, LoadedModule.ofBytes
        (streams greeting [] [] ⟨"site", .release, false, false⟩ false).1 none = .ok module ∧
      module.classCount = 2 ∧
      ∀ (host : Host Echo) (limits : LimitSettings), ∀ index < module.classCount,
        ∀ slot, render module host limits index ≠ .error (.noSuchSlot slot) := by
  obtain ⟨codes, hcodes, hload⟩ := ofBytes_streams greeting [] []
    ⟨"site", .release, false, false⟩ false
    (fit_of_lengths (by decide +kernel) (by decide +kernel))
  have hcheck : greeting.check = .ok () := by decide
  rw [hcheck, Outcome.ok_bind] at hload
  refine ⟨_, hload, hcodes.length_eq, fun host limits index hindex ↦ ?_⟩
  exact (safe_of_ofBytes.1 hload host limits index hindex).2.1

end PageScript
