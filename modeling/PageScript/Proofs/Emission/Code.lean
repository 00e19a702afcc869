import PageScript.Proofs.Emission.Pools
import PageScript.Proofs.Image.Container
import PageScript.Proofs.Image.Instruction

/-!
# Emitted code

Every instruction of an emitted image stands for one statement: its operands lead through the tables
of the image to the texts, types and classes of the statement. The blocks of the classes lie one
behind the other, each where the entry of its class says.
-/

namespace PageScript

open Image

namespace ModuleImage

theorem string_of_getElem? {image : ModuleImage} {index : UInt32} {value : String}
    (h : image.strings[index.toNat]? = some value) : image.string index = .ok value := by
  rw [string, h]

/-- A type is told if its entry and both of its texts are there. -/
theorem typeAt_of_getElem? {image : ModuleImage} {index : UInt32} {entry : TypeEntry}
    {module name : String} (hentry : image.types[index.toNat]? = some entry)
    (hmodule : image.string entry.module = .ok module)
    (hname : image.string entry.name = .ok name) :
    image.typeAt index = .ok (module, name) := by
  simp only [typeAt, hentry, hmodule, hname, Outcome.ok_bind, Outcome.pure_eq]

end ModuleImage

def BoundStatement.isWrite (stmt : BoundStatement) : Bool :=
  match stmt.op with
  | .write _ => true
  | _ => false

namespace Emission

/-! ## Merging writes -/

/-- A statement in front of a merged body joins its first write or stays as it is. -/
theorem mergeWrites_cons (stmt : BoundStatement) (rest : List BoundStatement) :
    (∃ text more location merged, stmt.op = .write text ∧
      mergeWrites rest = ⟨.write more, location⟩ :: merged ∧
      mergeWrites (stmt :: rest) = ⟨.write (text ++ more), stmt.location⟩ :: merged) ∨
    mergeWrites (stmt :: rest) = stmt :: mergeWrites rest := by
  rw [mergeWrites]
  split
  · rename_i text more location merged hop hrest
    exact .inl ⟨text, more, location, merged, hop, hrest, rfl⟩
  · exact .inr rfl

/-- Merging writes leaves all other statements as they are. -/
theorem filter_mergeWrites (body : List BoundStatement) :
    ((mergeWrites body).filter fun stmt ↦ !stmt.isWrite) =
      body.filter fun stmt ↦ !stmt.isWrite := by
  induction body with
  | nil => rfl
  | cons stmt rest ih =>
    obtain ⟨text, more, location, merged, hop, hrest, hmerged⟩ | hmerged :=
      mergeWrites_cons stmt rest
    · have hwrite : stmt.isWrite = true := by
        rw [BoundStatement.isWrite, hop]
      rw [hrest] at ih
      simp only [hmerged, List.filter_cons, hwrite, ← ih]
      rfl
    · rw [hmerged, List.filter_cons, List.filter_cons, ih]

/-- Merging touches writes only, so all other statements stay in order. -/
theorem filter_emittedBody (buildMode : BuildMode) (body : List BoundStatement) :
    ((emittedBody buildMode body).filter fun stmt ↦ !stmt.isWrite) =
      body.filter fun stmt ↦ !stmt.isWrite := by
  cases buildMode with
  | debug => rfl
  | release => exact filter_mergeWrites body

/-! ## Instructions and statements -/

/-- In `image`, whose classes are named `classes`, an instruction stands for a statement. -/
inductive Stands (image : ModuleImage) (classes : List String) :
    Instruction → BoundStatement.Op → Prop
  | write {index : UInt32} {text : String} (htext : image.string index = .ok text) :
      Stands image classes (.write index) (.write text)
  | create {index : UInt32} {type : TypeName} (slot : Nat)
      (htype : image.typeAt index = .ok (type.module, type.name)) :
      Stands image classes (.create index (UInt32.ofNat slot)) (.create type slot)
  | assign {nameIndex valueIndex : UInt32} {name value : String} (slot : Nat)
      (hname : image.string nameIndex = .ok name) (hvalue : image.string valueIndex = .ok value) :
      Stands image classes (.assign (UInt32.ofNat slot) nameIndex valueIndex)
        (.assign slot name value)
  | render (slot : Nat) : Stands image classes (.render (UInt32.ofNat slot)) (.render slot)
  | embed (className : String) :
      Stands image classes (.embed (classNumber classes className)) (.embed className)

/-- Code that stands for a body: an instruction for each statement, and a stop. -/
inductive Implements (image : ModuleImage) (classes : List String) :
    List Instruction → List BoundStatement → Prop
  | nil : Implements image classes [.stop] []
  | cons {instruction : Instruction} {stmt : BoundStatement} {code : List Instruction}
      {body : List BoundStatement} (first : Stands image classes instruction stmt.op)
      (rest : Implements image classes code body) :
      Implements image classes (instruction :: code) (stmt :: body)

/-- The tables of `image` are those of `pools`. -/
structure Holds (image : ModuleImage) (pools : Pools) : Prop where
  strings : image.strings = pools.strings
  types : image.types = pools.entries
  fits : pools.Fits

variable {image : ModuleImage} {pools final : Pools}

/-- The text at an index that was given out is the one it was given out for. -/
theorem Holds.string_text (h : Holds image final) {value : String}
    (hwithin : (pools.text value).2.Within final) :
    image.string (pools.text value).1 = .ok value := by
  apply ModuleImage.string_of_getElem?
  rw [h.strings]
  exact getElem?_of_isPrefix hwithin.strings
    (pools.getElem?_text value (hwithin.fits h.fits).strings)

/-- The type at an index that was given out is the one it was given out for. -/
theorem Holds.typeAt_type (h : Holds image final) (hsound : pools.Sound) {value : TypeName}
    (hwithin : (pools.type value).2.Within final) :
    image.typeAt (pools.type value).1 = .ok (value.module, value.name) := by
  obtain ⟨entry, hentry, hnames⟩ := hsound.getElem?_type value (hwithin.fits h.fits)
  have hnames := hnames.mono hwithin
  have hentry := getElem?_of_isPrefix hwithin.entries hentry
  rw [← h.types] at hentry
  apply ModuleImage.typeAt_of_getElem? hentry
  · exact ModuleImage.string_of_getElem? (h.strings ▸ hnames.module)
  · exact ModuleImage.string_of_getElem? (h.strings ▸ hnames.name)

/-! ## Statements -/

/-- What stays when a text or a type is pooled stays when a statement is emitted. -/
theorem Pools.Kept.lower {holds : Pools → Prop} (hkept : Pools.Kept holds) (classes : List String)
    (h : holds pools) (op : BoundStatement.Op) : holds (lower classes pools op).2 := by
  cases op with
  | write value => exact hkept.text value h
  | create value slot => exact hkept.type value h
  | assign slot property value => exact hkept.text value (hkept.text property h)
  | render slot => exact h
  | embed className => exact h

/-- The operands of an instruction lead to what its statement names. -/
theorem stands_lower (h : Holds image final) (classes : List String) (hsound : pools.Sound)
    (op : BoundStatement.Op) (hwithin : (lower classes pools op).2.Within final) :
    Stands image classes (lower classes pools op).1 op := by
  cases op with
  | write value => exact .write (h.string_text hwithin)
  | create value slot => exact .create slot (h.typeAt_type hsound hwithin)
  | assign slot property value =>
    have hproperty := ((pools.text property).2.text_within value).trans hwithin
    exact .assign slot (h.string_text hproperty) (h.string_text hwithin)
  | render slot => exact .render slot
  | embed className => exact .embed className

/-! ## Bodies -/

theorem Pools.Kept.lowerBody {holds : Pools → Prop} (hkept : Pools.Kept holds)
    (classes : List String) (h : holds pools) (body : List BoundStatement) :
    holds (lowerBody classes pools body).2 := by
  induction body generalizing pools with
  | nil => exact h
  | cons stmt rest ih => exact ih (hkept.lower classes h stmt.op)

theorem lowerBody_within (classes : List String) (pools : Pools) (body : List BoundStatement) :
    pools.Within (lowerBody classes pools body).2 :=
  pools.kept_within.lowerBody classes (.refl pools) body

/-- The code of a body implements it as long as the image holds the pools. -/
theorem implements_lowerBody (h : Holds image final) (classes : List String)
    (hsound : pools.Sound) (body : List BoundStatement)
    (hwithin : (lowerBody classes pools body).2.Within final) :
    Implements image classes (lowerBody classes pools body).1 body := by
  induction body generalizing pools with
  | nil => exact .nil
  | cons stmt rest ih =>
    have hrest := lowerBody_within classes (lower classes pools stmt.op).2 rest
    exact .cons (stands_lower h classes hsound stmt.op (hrest.trans hwithin))
      (ih (Pools.kept_sound.lower classes hsound stmt.op) hwithin)

/-- Code is its body and one stop. -/
theorem Implements.length_eq {classes : List String} {code : List Instruction}
    {body : List BoundStatement} (h : Implements image classes code body) :
    code.length = body.length + 1 := by
  induction h with
  | nil => rfl
  | cons _ _ ih => simp [ih]

/-! ## Classes -/

/-- In `image`, an entry describes a class. -/
structure Describes (image : ModuleImage) (buildMode : BuildMode) (classes : List String)
    (entry : ClassEntry) (current : BoundClass) : Prop where
  name : image.string entry.name = .ok current.name
  base : image.typeAt entry.base = .ok (current.base.module, current.base.name)
  slotCount : entry.slotCount = UInt32.ofNat current.slotCount
  stop_le : entry.codeOffset.toNat + entry.codeLength.toNat ≤ image.code.length
  code : ∃ code, Implements image classes code (emittedBody buildMode current.body) ∧
    Container.slice image.code entry.codeOffset.toNat
      (entry.codeOffset.toNat + entry.codeLength.toNat) = Instruction.encodeAll code

/-- The pools behind the code, the name and the base of a class. -/
def classPools (buildMode : BuildMode) (classes : List String) (pools : Pools)
    (current : BoundClass) : Pools :=
  ((((lowerBody classes pools (emittedBody buildMode current.body)).2.text
    current.name).2).type current.base).2

theorem Pools.Kept.classPools {holds : Pools → Prop} (hkept : Pools.Kept holds)
    (buildMode : BuildMode) (classes : List String) (h : holds pools) (current : BoundClass) :
    holds (classPools buildMode classes pools current) :=
  hkept.type _ (hkept.text _ (hkept.lowerBody classes h _))

/-- What interning keeps holds behind all classes. -/
theorem Pools.Kept.emitClasses {holds : Pools → Prop} (hkept : Pools.Kept holds)
    (buildMode : BuildMode) (classes : List String) (h : holds pools) (offset : Nat)
    (rest : List BoundClass) : holds (emitClasses buildMode classes pools offset rest).2.2 := by
  induction rest generalizing pools offset with
  | nil => exact h
  | cons current rest ih => exact ih (hkept.classPools buildMode classes h current) _

theorem emitClasses_within (buildMode : BuildMode) (classes : List String) (pools : Pools)
    (offset : Nat) (rest : List BoundClass) :
    pools.Within (emitClasses buildMode classes pools offset rest).2.2 :=
  pools.kept_within.emitClasses buildMode classes (.refl pools) offset rest

/-- The classes emitted behind the code `before` are described by their entries. -/
theorem describes_emitClasses (h : Holds image final) (buildMode : BuildMode)
    (classes : List String) (hsound : pools.Sound) (before : Bytes) (rest : List BoundClass)
    (hwithin : (emitClasses buildMode classes pools before.length rest).2.2.Within final)
    (hcode : image.code =
      before ++ (emitClasses buildMode classes pools before.length rest).2.1)
    (hsize : image.code.length < UInt32.size) :
    List.Forall₂ (Describes image buildMode classes)
      (emitClasses buildMode classes pools before.length rest).1 rest := by
  induction rest generalizing pools before with
  | nil => exact .nil
  | cons current rest ih =>
    let lowered := lowerBody classes pools (emittedBody buildMode current.body)
    let code := Instruction.encodeAll lowered.1
    let following := emitClasses buildMode classes (classPools buildMode classes pools current)
      (before.length + code.length) rest
    have hrest := ih (Pools.kept_sound.classPools buildMode classes hsound current)
      (before ++ code)
    rw [List.length_append] at hrest
    have hcode : image.code = before ++ (code ++ following.2.1) := hcode
    have hclass : (classPools buildMode classes pools current).Within final :=
      (emitClasses_within buildMode classes _ _ rest).trans hwithin
    have hname : (lowered.2.text current.name).2.Within final :=
      (Pools.type_within _ _).trans hclass
    have hlength : before.length + code.length ≤ image.code.length := by
      rw [hcode, List.length_append, List.length_append]
      omega
    have hstart : (UInt32.ofNat before.length).toNat = before.length :=
      Wire.toNat_ofNat_of_lt (by omega)
    have hblock : (UInt32.ofNat code.length).toNat = code.length :=
      Wire.toNat_ofNat_of_lt (by omega)
    refine .cons ⟨?_, ?_, rfl, ?_, lowered.1, ?_, ?_⟩ (hrest hwithin ?_)
    · exact h.string_text hname
    · exact h.typeAt_type ((Pools.kept_sound.lowerBody classes hsound _).text _) hclass
    · change (UInt32.ofNat before.length).toNat + (UInt32.ofNat code.length).toNat ≤ _
      omega
    · exact implements_lowerBody h classes hsound _ ((Pools.text_within _ _).trans hname)
    · change Container.slice image.code (UInt32.ofNat before.length).toNat
        ((UInt32.ofNat before.length).toNat + (UInt32.ofNat code.length).toNat) = code
      rw [hstart, hblock, hcode]
      exact Container.slice_append before code following.2.1
    · rw [hcode, List.append_assoc]

end Emission

end PageScript
