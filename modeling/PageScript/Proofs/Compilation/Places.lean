import PageScript.Proofs.Compilation.Correctness
import PageScript.Proofs.Emission.Places

/-!
# Instructions and the statements they come from

A module that was compiled with symbols and loaded again tells for every instruction where the
statement stands that it was compiled from, as the directives of the script say. In a debug build
each statement has an instruction; in a release build a run of writes has one, which comes from the
first of them. The stop, and whatever lies behind it, is told as the last statement.
-/

namespace PageScript

open Script Binding

/-! ## Statements with an instruction of their own -/

def Script.Statement.Kind.opcode : Statement.Kind → Instruction.Opcode
  | .write _ => .write
  | .create _ _ => .create
  | .assign _ _ _ => .assign
  | .render _ => .render
  | .embed _ => .embed

def BoundStatement.Op.opcode : BoundStatement.Op → Instruction.Opcode
  | .write _ => .write
  | .create _ _ => .create
  | .assign _ _ _ => .assign
  | .render _ => .render
  | .embed _ => .embed

namespace Script

def Statement.isWrite (stmt : Statement) : Bool := stmt.kind.opcode = .write

/-- A body without the writes that stand directly behind another write; `afterWrite` tells whether
its first statement does. -/
def firstWrites (afterWrite : Bool) : List Statement → List Statement
  | [] => []
  | stmt :: rest =>
    if afterWrite && stmt.isWrite then firstWrites true rest
    else stmt :: firstWrites stmt.isWrite rest

/-- The statements of a body that have an instruction of their own. -/
def instructed (buildMode : BuildMode) (body : List Statement) : List Statement :=
  match buildMode with
  | .debug => body
  | .release => firstWrites false body

/-- Behind a write, a run of writes lacks its first as well. -/
theorem firstWrites_true_of_isWrite {body others : List Statement} {first : Statement}
    (h : firstWrites false body = first :: others) (hfirst : first.isWrite = true) :
    firstWrites true body = others := by
  cases body with
  | nil => cases h
  | cons stmt rest =>
    rw [firstWrites, Bool.false_and, if_neg Bool.false_ne_true] at h
    obtain ⟨rfl, rfl⟩ := List.cons.inj h
    rw [firstWrites, hfirst, Bool.true_and, if_pos rfl]

/-- Behind a write, nothing changes for a body that starts with something else. -/
theorem firstWrites_true_of_not_isWrite {body : List Statement}
    (h : ∀ first ∈ (firstWrites false body).head?, first.isWrite = false) :
    firstWrites true body = firstWrites false body := by
  cases body with
  | nil => rfl
  | cons stmt rest =>
    have hstmt : stmt.isWrite = false := h stmt (by simp [firstWrites])
    simp [firstWrites, hstmt]

/-- Merging writes never empties a body. -/
theorem instructed_eq_nil (buildMode : BuildMode) (body : List Statement) :
    instructed buildMode body = [] ↔ body = [] := by
  cases buildMode with
  | debug => rfl
  | release =>
    cases body with
    | nil => simp [instructed, firstWrites]
    | cons stmt rest => simp [instructed, firstWrites]

end Script

/-! ## Bound and emitted statements -/

/-- A statement of a bound body comes from one of the script. -/
structure ComesFrom (unit : ScriptUnit) (bound : BoundStatement) (stmt : Statement) : Prop where
  location : bound.location = unit.locate stmt.start
  opcode : bound.op.opcode = stmt.kind.opcode

/-- Binding does not change the kind of a statement. -/
theorem Binding.Binds.opcode_eq {scope : Scope} {locals next : List Local} {kind : Statement.Kind}
    {op : BoundStatement.Op} (h : Binds scope locals kind op next) : op.opcode = kind.opcode := by
  cases h <;> rfl

/-- Each bound statement comes from the one at its place, and keeps its location. -/
theorem Binding.BindsBody.comesFrom {scope : Scope} {locals final : List Local}
    {body : List Statement} {bound : List BoundStatement}
    (h : BindsBody scope locals body bound final) :
    List.Forall₂ (ComesFrom scope.unit) bound body := by
  induction h with
  | nil locals => exact .nil
  | cons first others ih => exact .cons ⟨rfl, first.opcode_eq⟩ ih

theorem BoundStatement.Op.opcode_eq_write {op : BoundStatement.Op} (h : op.opcode = .write) :
    ∃ text, op = .write text := by
  cases op with
  | write text => exact ⟨text, rfl⟩
  | create | assign | render | embed => cases h

theorem ComesFrom.isWrite {unit : ScriptUnit} {bound : BoundStatement} {stmt : Statement}
    (h : ComesFrom unit bound stmt) : stmt.isWrite = true ↔ ∃ text, bound.op = .write text := by
  rw [Statement.isWrite, decide_eq_true_eq, ← h.opcode]
  constructor
  · exact BoundStatement.Op.opcode_eq_write
  · rintro ⟨text, hop⟩
    rw [hop]
    rfl

/-- Merging writes leaves the statements that start a run, or are no writes. -/
theorem comesFrom_mergeWrites {unit : ScriptUnit} {bound : List BoundStatement}
    {body : List Statement} (h : List.Forall₂ (ComesFrom unit) bound body) :
    List.Forall₂ (ComesFrom unit) (Emission.mergeWrites bound) (firstWrites false body) := by
  induction h with
  | nil => exact .nil
  | @cons current stmt bound body hfirst _ ih =>
    rw [Emission.mergeWrites, firstWrites, Bool.false_and, if_neg Bool.false_ne_true]
    split
    case h_1 text more location merged hop hmerged =>
      rw [hmerged] at ih
      obtain ⟨next, others, hnext, hothers, hbody⟩ := List.forall₂_cons_left_iff.mp ih
      have hwrite := hfirst.isWrite.mpr ⟨text, hop⟩
      rw [hwrite, firstWrites_true_of_isWrite hbody (hnext.isWrite.mpr ⟨more, rfl⟩)]
      refine .cons ⟨hfirst.location, ?_⟩ hothers
      rw [← hfirst.opcode, hop]
      rfl
    case h_2 hapart =>
      have hrest : firstWrites stmt.isWrite body = firstWrites false body := by
        cases hwrite : stmt.isWrite with
        | false => rfl
        | true =>
          -- a write that starts the rest would have been merged
          apply firstWrites_true_of_not_isWrite
          intro next hnext
          obtain ⟨others, hbody⟩ := List.head?_eq_some_iff.mp hnext
          rw [hbody] at ih
          obtain ⟨⟨op, location⟩, merged, hcomes, _, hmerged⟩ := List.forall₂_cons_right_iff.mp ih
          by_contra hnot
          obtain ⟨text, hop⟩ := hfirst.isWrite.mp hwrite
          obtain ⟨more, rfl⟩ := hcomes.isWrite.mp (by simpa using hnot)
          exact hapart text more location merged hop hmerged
      rw [hrest]
      exact .cons hfirst ih

/-- What is emitted for a body comes from the statements that have an instruction of their own. -/
theorem comesFrom_emittedBody {unit : ScriptUnit} {bound : List BoundStatement}
    {body : List Statement} (buildMode : BuildMode)
    (h : List.Forall₂ (ComesFrom unit) bound body) :
    List.Forall₂ (ComesFrom unit) (Emission.emittedBody buildMode bound)
      (instructed buildMode body) := by
  cases buildMode with
  | debug => exact h
  | release => exact comesFrom_mergeWrites h

theorem map_opcode_of_comesFrom {unit : ScriptUnit} {bound : List BoundStatement}
    {body : List Statement} (h : List.Forall₂ (ComesFrom unit) bound body) :
    bound.map (fun stmt ↦ stmt.op.opcode) = body.map fun stmt ↦ stmt.kind.opcode := by
  induction h with
  | nil => rfl
  | cons first _ ih => rw [List.map_cons, List.map_cons, first.opcode, ih]

/-! ## Loaded instructions -/

namespace Emission

theorem Stands.opcode_eq {image : ModuleImage} {classes : List String} {instruction : Instruction}
    {op : BoundStatement.Op} (h : Stands image classes instruction op) :
    instruction.opcode = op.opcode := by
  cases h <;> rfl

/-- One instruction for each statement, and a stop. -/
theorem Implements.map_opcode {image : ModuleImage} {classes : List String}
    {code : List Instruction} {body : List BoundStatement}
    (h : Implements image classes code body) :
    code.map Instruction.opcode = body.map (fun stmt ↦ stmt.op.opcode) ++ [.stop] := by
  induction h with
  | nil => rfl
  | cons first _ ih => rw [List.map_cons, List.map_cons, List.cons_append, first.opcode_eq, ih]

/-- What a module loaded from streams with symbols tells about the class at `index`. -/
structure Tells (loaded : LoadedModule) (buildMode : BuildMode) (index : Nat)
    (current : BoundClass) : Prop where
  name : loaded.findClass current.name = some index
  opcodes : (loaded.instructions index).map Instruction.opcode =
    (emittedBody buildMode current.body).map (fun stmt ↦ stmt.op.opcode) ++ [.stop]
  locate : ∀ instruction, loaded.locate index instruction =
    ((emittedBody buildMode current.body)[
      min instruction ((emittedBody buildMode current.body).length - 1)]?).map
      fun stmt ↦ stmt.location.stored

/-- A loaded module has the opcodes and the places of the bound statements, one by one. -/
theorem tells_streams {module : BoundModule} {generated markup : List SourceText}
    {options : Options} (hfit : Fit (streams module generated markup options true))
    (hnodup : module.classNames.Nodup) (hcheck : module.check = .ok ()) :
    ∃ loaded, LoadedModule.ofBytes (streams module generated markup options true).1
        (streams module generated markup options true).2 = .ok loaded ∧
      loaded.classCount = module.classes.length ∧
      ∀ index current, module.classes[index]? = some current →
        Tells loaded options.buildMode index current := by
  obtain ⟨codes, hcodes, hload⟩ := ofBytes_streams module generated markup options true hfit
  rw [hcheck, Outcome.ok_bind] at hload
  have hemitted := emitted_image module options hfit.image
  refine ⟨_, hload, hcodes.length_eq, fun index current hcurrent ↦ ⟨?_, ?_, fun instruction ↦ ?_⟩⟩
  · have hname : module.classNames.idxOf? current.name = some index :=
      idxOf?_of_nodup hnodup (by rw [BoundModule.classNames, List.getElem?_map, hcurrent]; rfl)
    rw [BoundModule.classNames, List.idxOf?, List.findIdx?_map] at hname
    exact (hemitted.findClass_eq current.name).trans hname
  · obtain ⟨code, hcode, himplements⟩ := exists_of_getElem?_right hcodes hcurrent
    rw [LoadedModule.instructions, List.getD_eq_getElem?_getD, hcode, Option.getD_some]
    exact himplements.map_opcode
  · obtain ⟨entry, hentry, hdescribes⟩ := exists_of_getElem?_right hemitted.classes hcurrent
    simp only [LoadedModule.locate, LoadedModule.className, hdescribes.className_eq hentry,
      Except.toOption, Option.bind_eq_bind, Option.bind_some, if_true]
    exact locate_stampedSymbols hnodup (hfit.symbols _ rfl) (List.mem_of_getElem? hcurrent)
      instruction

end Emission

/-! ## Places in the scripts -/

/-- A place was found again: exactly if its line and column are words, and otherwise with both
modulo 2^32. -/
def Recovers (found : Option Location) (place : Location) : Prop :=
  found = some place.stored ∧
    (place.line < UInt32.size → place.column < UInt32.size → found = some place)

/-- A place with words for line and column is stored as it is. -/
theorem Location.stored_eq {place : Location} (hline : place.line < UInt32.size)
    (hcolumn : place.column < UInt32.size) : place.stored = place := by
  rw [Location.stored, Wire.toNat_ofNat_of_lt hline, Wire.toNat_ofNat_of_lt hcolumn]

/-- A stored place comes back up to the width of its numbers. -/
theorem recovers_stored (place : Location) : Recovers (some place.stored) place :=
  ⟨rfl, fun hline hcolumn ↦ by rw [Location.stored_eq hline hcolumn]⟩

/-- A loaded module knows where the instructions of a class, which is the one at `index`, come
from. -/
structure Traces (loaded : LoadedModule) (buildMode : BuildMode) (index : Nat) (unit : ScriptUnit)
    (declaration : ClassDeclaration) : Prop where
  name : loaded.findClass declaration.name = some index
  opcodes : (loaded.instructions index).map Instruction.opcode =
    (instructed buildMode declaration.body).map (fun stmt ↦ stmt.kind.opcode) ++ [.stop]
  inside : ∀ instruction stmt, (instructed buildMode declaration.body)[instruction]? = some stmt →
    Recovers (loaded.locate index instruction) (unit.locate stmt.start)
  behind : ∀ instruction stmt, (instructed buildMode declaration.body).length ≤ instruction →
    (instructed buildMode declaration.body).getLast? = some stmt →
    Recovers (loaded.locate index instruction) (unit.locate stmt.start)
  nowhere : ∀ instruction, loaded.locate index instruction = none ↔ declaration.body = []

/-- The places that a module tells are those of the script that it was bound from. -/
theorem Emission.Tells.traces {loaded : LoadedModule} {buildMode : BuildMode} {index : Nat}
    {current : BoundClass} (h : Tells loaded buildMode index current) {scope : Scope}
    {declaration : ClassDeclaration} (hbinds : BindsClass scope declaration current) :
    Traces loaded buildMode index scope.unit declaration := by
  obtain ⟨locals, hbody, _⟩ := hbinds.body
  have hcomes := comesFrom_emittedBody buildMode hbody.comesFrom
  have hlength := hcomes.length_eq
  have hfound (instruction : Nat) (stmt : Statement)
      (hstmt : (instructed buildMode declaration.body)[
        min instruction ((instructed buildMode declaration.body).length - 1)]? = some stmt) :
      Recovers (loaded.locate index instruction) (scope.unit.locate stmt.start) := by
    obtain ⟨bound, hbound, hfrom⟩ := exists_of_getElem?_right hcomes hstmt
    rw [h.locate, hlength, hbound, Option.map_some, hfrom.location]
    exact recovers_stored _
  refine ⟨?_, ?_, ?_, ?_, ?_⟩
  · rw [← hbinds.name]
    exact h.name
  · rw [h.opcodes, map_opcode_of_comesFrom hcomes]
  · intro instruction stmt hstmt
    have hlt := (List.getElem?_eq_some_iff.mp hstmt).1
    apply hfound
    rwa [Nat.min_eq_left (by omega)]
  · intro instruction stmt hle hstmt
    apply hfound
    rw [Nat.min_eq_right (by omega), ← List.getLast?_eq_getElem?]
    exact hstmt
  · intro instruction
    rw [h.locate, Option.map_eq_none_iff, List.getElem?_eq_none_iff, hlength,
      ← instructed_eq_nil buildMode, ← List.length_eq_zero_iff]
    omega

/-- The symbols of a compiled module recover the places of its statements. -/
theorem traces_of_compile {ω : Type} {check : CancelCheck ω} {input : CompileInput}
    {world world' : ω} {compiled : CompiledModule}
    (hcompile : (compile check input).run.run world = (.ok compiled, world'))
    (hemit : input.settings.emitSymbols = true)
    (himage : compiled.image.length < UInt32.size)
    (hsymbols : ∀ bytes ∈ compiled.symbols, bytes.length < UInt32.size) :
    ∃ units loaded, input.parse = .ok units ∧
      LoadedModule.ofBytes compiled.image compiled.symbols = .ok loaded ∧
      loaded.classCount = (declarations units).length ∧
      ∀ index unit declaration, (declarations units)[index]? = some (unit, declaration) →
        Traces loaded input.settings.buildMode index unit declaration := by
  obtain ⟨units, module, hparse, hbind, rfl⟩ := compile_cases hcompile
  have hfit := fit_of_emit himage hsymbols
  obtain ⟨hfrom, hnodup⟩ := boundFrom_streams hbind hfit
  rw [hemit] at hfit
  obtain ⟨loaded, hload, hcount, htells⟩ := Emission.tells_streams hfit hnodup hfrom.check_eq
  refine ⟨units, loaded, hparse, ?_, ?_, ?_⟩
  · rw [← hemit] at hload
    exact hload
  · rw [hcount, hfrom.classes.length_eq]
  · intro index unit declaration hdeclaration
    obtain ⟨current, hcurrent, hbinds⟩ :=
      Emission.exists_of_getElem?_left hfrom.classes hdeclaration
    exact (htells index current hcurrent).traces hbinds

/-- A script with two writes to merge, generated from the lines 7 to 9 of a page. -/
def mappedInput : CompileInput where
  moduleName := "site"
  generated := [⟨"main.kps", "class Main : Lib.Page \x7b\n#line 7 \"main.html\"\n" ++
    "write \"a\";\nwrite \"b\";\n  include Main;\n\x7d\n"⟩]
  markup := []
  references := [.ofTypes "Lib" [("Page", { isComponent := false })]]
  settings := { buildMode := .release }

def mappedUnit : ScriptUnit where
  path := "main.kps"
  items := [.declares ⟨"Main", ⟨"Lib", ["Page"], ⟨1, 14⟩⟩,
    [⟨.write "a", ⟨3, 1⟩⟩, ⟨.write "b", ⟨4, 1⟩⟩, ⟨.embed "Main", ⟨5, 3⟩⟩], ⟨1, 1⟩⟩]
  lineMap := .remap .empty 2 "main.html" 7

def mappedModule : BoundModule where
  classes := [
    { name := "Main", base := ⟨"Lib", "Page"⟩, slotCount := 0, unit := 0
      body := [⟨.write "a", ⟨"main.html", 7, 1⟩⟩, ⟨.write "b", ⟨"main.html", 8, 1⟩⟩,
        ⟨.embed "Main", ⟨"main.html", 9, 3⟩⟩] }]

theorem parse_mappedInput : mappedInput.parse.toOption = some [mappedUnit] := by
  decide +kernel

theorem bind_mappedUnit :
    (Binding.bind [mappedUnit] mappedInput.references).toOption = some mappedModule := by
  decide +kernel

theorem mappedInput_fit : Emission.Fit (Emission.streams mappedModule mappedInput.generated
    mappedInput.markup mappedInput.options mappedInput.settings.emitSymbols) :=
  Emission.fit_of_lengths (by decide +kernel) (by decide +kernel)

theorem locate_mappedInput :
    ∃ loaded, LoadedModule.ofBytes (mappedInput.emit mappedModule).image
        (mappedInput.emit mappedModule).symbols = .ok loaded ∧
      loaded.locate 0 0 = some ⟨"main.html", 7, 1⟩ ∧
      loaded.locate 0 1 = some ⟨"main.html", 9, 3⟩ ∧
      loaded.locate 0 2 = some ⟨"main.html", 9, 3⟩ := by
  have hbound : (mappedInput.parse.toOption.bind fun units ↦
      (bind units mappedInput.references).toOption) = some mappedModule := by
    rw [parse_mappedInput, Option.bind_some, bind_mappedUnit]
  obtain ⟨units, loaded, hparse, hload, _, htraces⟩ := traces_of_compile
    (compile_of_bound hbound ()) rfl mappedInput_fit.image mappedInput_fit.symbols
  have hunits := parse_mappedInput
  rw [hparse] at hunits
  cases hunits
  have hmain := htraces 0 mappedUnit _ rfl
  refine ⟨loaded, hload, ?_, ?_, ?_⟩
  · exact (hmain.inside 0 _ rfl).2 (by decide) (by decide)
  · exact (hmain.inside 1 _ rfl).2 (by decide) (by decide)
  · exact (hmain.behind 2 _ (by decide) rfl).2 (by decide) (by decide)

end PageScript
