import Mathlib.Data.List.Induction
import PageScript.Proofs.Emission.Loading

/-!
# Places of instructions

The symbols of an emitted module have one point for each instruction but the stop, in order, and the
point leads to the place of the statement the instruction stands for. Lines and columns are kept as
words, so a place comes back with both modulo 2^32.
-/

namespace PageScript

/-- A place as the symbols keep it. -/
def Location.stored (location : Location) : Location :=
  ⟨location.path, (UInt32.ofNat location.line).toNat, (UInt32.ofNat location.column).toNat⟩

namespace DebugSymbols

/-! ## Documents -/

theorem documentIndex_documents (symbols : DebugSymbols) (path : String) (kind : DocumentKind) :
    symbols.documents <+: (symbols.documentIndex path kind).2.documents := by
  unfold documentIndex
  split
  · exact List.prefix_refl _
  · exact List.prefix_append _ _

theorem documentIndex_classes (symbols : DebugSymbols) (path : String) (kind : DocumentKind) :
    (symbols.documentIndex path kind).2.classes = symbols.classes := by
  unfold documentIndex
  split <;> rfl

/-- The index of a document leads to one with its path. -/
theorem getElem?_documentIndex (symbols : DebugSymbols) (path : String) (kind : DocumentKind) :
    ∃ document, (symbols.documentIndex path kind).2.documents[
      (symbols.documentIndex path kind).1]? = some document ∧ document.path = path := by
  unfold documentIndex
  cases hindex : symbols.documents.findIdx? fun document ↦ document.path = path with
  | some index =>
    obtain ⟨hlt, hpath, _⟩ := List.findIdx?_eq_some_iff_getElem.mp hindex
    exact ⟨symbols.documents[index], List.getElem?_eq_getElem hlt, by simpa using hpath⟩
  | none => exact ⟨{ path, kind }, by simp, rfl⟩

/-! ## Points in order -/

/-- In a list of points for the instructions 0, 1, 2, … the last point at or before an instruction
is its own, or that of the last instruction. -/
theorem find?_reverse_points {points : List SequencePoint}
    (hpoints : ∀ (index : Nat) (point : SequencePoint), points[index]? = some point →
      point.instruction.toNat = index) (instruction : Nat) :
    (points.reverse.find? fun point ↦ point.instruction.toNat ≤ instruction) =
      points[min instruction (points.length - 1)]? := by
  induction points using List.reverseRecOn with
  | nil => rfl
  | append_singleton init last ih =>
    have hlast := hpoints init.length last (by simp)
    have hinit := ih fun index point hpoint ↦ hpoints index point (by
      rw [List.getElem?_append_left (List.getElem?_eq_some_iff.mp hpoint).1, hpoint])
    rw [List.reverse_concat, List.find?_cons, hlast, List.length_append, List.length_singleton,
      Nat.add_sub_cancel]
    by_cases hle : init.length ≤ instruction
    · rw [Nat.min_eq_right hle, List.getElem?_concat_length]
      simp only [hle, decide_true]
    · simp only [hle, decide_false]
      rw [hinit, Nat.min_eq_left (by omega), Nat.min_eq_left (by omega),
        List.getElem?_append_left (by omega)]

end DebugSymbols

namespace Emission

/-- In `documents`, a point tells the place of a statement, which is instruction `number`. -/
structure Marks (documents : List Document) (number : Nat) (point : SequencePoint)
    (stmt : BoundStatement) : Prop where
  instruction : point.instruction = UInt32.ofNat number
  line : point.line = UInt32.ofNat stmt.location.line
  column : point.column = UInt32.ofNat stmt.location.column
  document : ∃ document, documents[point.document.toNat]? = some document ∧
    document.path = stmt.location.path

theorem addPoints_documents (symbols : DebugSymbols) (number : Nat) (body : List BoundStatement) :
    symbols.documents <+: (addPoints symbols number body).2.documents := by
  induction body generalizing symbols number with
  | nil => exact List.prefix_refl _
  | cons stmt rest ih => exact (symbols.documentIndex_documents _ _).trans (ih _ _)

theorem addPoints_classes (symbols : DebugSymbols) (number : Nat) (body : List BoundStatement) :
    (addPoints symbols number body).2.classes = symbols.classes := by
  induction body generalizing symbols number with
  | nil => rfl
  | cons stmt rest ih => exact (ih _ _).trans (symbols.documentIndex_classes _ _)

/-- There is one point for each statement that is emitted. -/
theorem length_addPoints (symbols : DebugSymbols) (number : Nat) (body : List BoundStatement) :
    (addPoints symbols number body).1.length = body.length := by
  induction body generalizing symbols number with
  | nil => rfl
  | cons stmt rest ih =>
    change (addPoints _ (number + 1) rest).1.length + 1 = _
    rw [ih, List.length_cons]

/-- The point of a statement names its document and its place, also if documents are added later. -/
theorem marks_addPoints (symbols : DebugSymbols) (number : Nat) (body : List BoundStatement)
    {documents : List Document}
    (hwithin : (addPoints symbols number body).2.documents <+: documents)
    (hsize : documents.length ≤ UInt32.size) {index : Nat} {stmt : BoundStatement}
    (hstmt : body[index]? = some stmt) :
    ∃ point, (addPoints symbols number body).1[index]? = some point ∧
      Marks documents (number + index) point stmt := by
  induction body generalizing symbols number index with
  | nil => simp at hstmt
  | cons first rest ih =>
    let next := symbols.documentIndex first.location.path .markup
    have hrest : (addPoints next.2 (number + 1) rest).2.documents <+: documents := hwithin
    cases index with
    | zero =>
      rw [List.getElem?_cons_zero, Option.some.injEq] at hstmt
      subst hstmt
      obtain ⟨document, hdocument, hpath⟩ :=
        symbols.getElem?_documentIndex first.location.path .markup
      have hlater := getElem?_of_isPrefix
        ((addPoints_documents next.2 (number + 1) rest).trans hrest) hdocument
      exact ⟨_, rfl, rfl, rfl, rfl, document, getElem?_toNat_ofNat hlater hsize, hpath⟩
    | succ index =>
      rw [List.getElem?_cons_succ] at hstmt
      obtain ⟨point, hpoint, hmarks⟩ := ih next.2 (number + 1) hrest hstmt
      rw [Nat.add_assoc, Nat.add_comm 1 index] at hmarks
      exact ⟨point, hpoint, hmarks⟩

/-! ## Classes -/

/-- In `documents`, an entry of the symbols has the points of a class. -/
structure Locates (documents : List Document) (buildMode : BuildMode) (entry : ClassSymbols)
    (current : BoundClass) : Prop where
  name : entry.className = current.name
  length_points : entry.points.length = (emittedBody buildMode current.body).length
  marks : ∀ index stmt, (emittedBody buildMode current.body)[index]? = some stmt →
    ∃ point, entry.points[index]? = some point ∧ Marks documents index point stmt

theorem addClass_documents (buildMode : BuildMode) (symbols : DebugSymbols) (current : BoundClass) :
    symbols.documents <+: (addClass buildMode symbols current).documents :=
  addPoints_documents symbols 0 _

/-- Documents are never taken away or moved. -/
theorem addClasses_documents (buildMode : BuildMode) (symbols : DebugSymbols)
    (rest : List BoundClass) :
    symbols.documents <+: (rest.foldl (addClass buildMode) symbols).documents := by
  induction rest generalizing symbols with
  | nil => exact List.prefix_refl _
  | cons current rest ih => exact (addClass_documents buildMode symbols current).trans (ih _)

/-- Each class that is emitted locates its statements, in the order of the classes. -/
theorem locates_addClasses (buildMode : BuildMode) (symbols : DebugSymbols)
    (rest : List BoundClass) {documents : List Document}
    (hwithin : (rest.foldl (addClass buildMode) symbols).documents <+: documents)
    (hsize : documents.length ≤ UInt32.size) :
    ∃ entries, (rest.foldl (addClass buildMode) symbols).classes = symbols.classes ++ entries ∧
      List.Forall₂ (Locates documents buildMode) entries rest := by
  induction rest generalizing symbols with
  | nil => exact ⟨[], by simp, .nil⟩
  | cons current rest ih =>
    let points := addPoints symbols 0 (emittedBody buildMode current.body)
    obtain ⟨entries, hentries, hlocates⟩ := ih (addClass buildMode symbols current) hwithin
    have hpoints : points.2.documents <+: documents :=
      (addClasses_documents buildMode (addClass buildMode symbols current) rest).trans hwithin
    refine ⟨⟨current.name, points.1⟩ :: entries, ?_,
      .cons ⟨rfl, ?_, fun index stmt hstmt ↦ ?_⟩ hlocates⟩
    · rw [List.foldl_cons, hentries]
      change points.2.classes ++ [_] ++ entries = _
      rw [addPoints_classes, List.append_assoc]
      rfl
    · exact length_addPoints _ _ _
    · obtain ⟨point, hpoint, hmarks⟩ := marks_addPoints symbols 0 _ hpoints hsize hstmt
      rw [Nat.zero_add] at hmarks
      exact ⟨point, hpoint, hmarks⟩

/-- With distinct names, a class is found by its own. -/
theorem find?_className {documents : List Document} {buildMode : BuildMode}
    {entries : List ClassSymbols} {classes : List BoundClass}
    (h : List.Forall₂ (Locates documents buildMode) entries classes)
    (hnodup : (classes.map BoundClass.name).Nodup) {current : BoundClass}
    (hcurrent : current ∈ classes) :
    ∃ entry, (entries.find? fun entry ↦ entry.className = current.name) = some entry ∧
      Locates documents buildMode entry current := by
  induction h with
  | nil => simp at hcurrent
  | @cons entry first entries rest hlocates _ ih =>
    rw [List.map_cons, List.nodup_cons] at hnodup
    rw [List.find?_cons, hlocates.name]
    rcases List.mem_cons.mp hcurrent with rfl | hrest
    · exact ⟨entry, by simp, hlocates⟩
    · have hne : first.name ≠ current.name := fun heq ↦
        hnodup.1 (heq ▸ List.mem_map_of_mem hrest)
      simp only [hne, decide_false]
      exact ih hnodup.2 hrest

/-- A point leads back to the place of its statement. -/
theorem Marks.place {documents : List Document} {number : Nat} {point : SequencePoint}
    {stmt : BoundStatement} (h : Marks documents number point stmt) :
    (do
      let document ← documents[point.document.toNat]?
      return (⟨document.path, point.line.toNat, point.column.toNat⟩ : Location)) =
      some stmt.location.stored := by
  obtain ⟨document, hdocument, hpath⟩ := h.document
  rw [hdocument, h.line, h.column]
  simp [hpath, Location.stored]

/-- Symbols find the statement that an instruction stands for; behind the last one, the last. -/
theorem locate_of_locates {symbols : DebugSymbols} {buildMode : BuildMode}
    {classes : List BoundClass}
    (h : List.Forall₂ (Locates symbols.documents buildMode) symbols.classes classes)
    (hnodup : (classes.map BoundClass.name).Nodup) {current : BoundClass}
    (hcurrent : current ∈ classes)
    (hsize : ∀ entry ∈ symbols.classes, entry.points.length < UInt32.size) (instruction : Nat) :
    symbols.locate current.name instruction =
      ((emittedBody buildMode current.body)[
        min instruction ((emittedBody buildMode current.body).length - 1)]?).map
        fun stmt ↦ stmt.location.stored := by
  obtain ⟨entry, hentry, hlocates⟩ := find?_className h hnodup hcurrent
  have hlength := hsize entry (List.mem_of_find?_eq_some hentry)
  rw [hlocates.length_points] at hlength
  have hpoints : ∀ (index : Nat) (point : SequencePoint), entry.points[index]? = some point →
      point.instruction.toNat = index := by
    intro index point hpoint
    have hlt := (List.getElem?_eq_some_iff.mp hpoint).1
    rw [hlocates.length_points] at hlt
    obtain ⟨found, hfound, hmarks⟩ := hlocates.marks index _ (List.getElem?_eq_getElem hlt)
    obtain rfl : found = point := Option.some.inj (hfound.symm.trans hpoint)
    rw [hmarks.instruction, Wire.toNat_ofNat_of_lt (by omega)]
  have hfind := DebugSymbols.find?_reverse_points hpoints instruction
  rw [hlocates.length_points] at hfind
  simp only [DebugSymbols.locate, hentry, Option.bind_eq_bind, Option.bind_some, hfind]
  cases hstmt : (emittedBody buildMode current.body)[
      min instruction ((emittedBody buildMode current.body).length - 1)]? with
  | none =>
    have hnone : entry.points[
        min instruction ((emittedBody buildMode current.body).length - 1)]? = none := by
      rw [List.getElem?_eq_none_iff] at hstmt ⊢
      rwa [hlocates.length_points]
    rw [hnone]
    rfl
  | some stmt =>
    obtain ⟨point, hpoint, hmarks⟩ := hlocates.marks _ stmt hstmt
    rw [hpoint]
    exact hmarks.place

/-- Keeping sources does not touch the points. -/
theorem addSources_classes (kind : DocumentKind) (keep : Bool) (symbols : DebugSymbols)
    (sources : List SourceText) :
    (sources.foldl (addSource kind keep) symbols).classes = symbols.classes := by
  induction sources generalizing symbols with
  | nil => rfl
  | cons source rest ih =>
    rw [List.foldl_cons, ih]
    have hindex := symbols.documentIndex_classes source.path kind
    cases keep with
    | false => exact hindex
    | true => exact hindex

/-- The symbols that are loaded with a module tell the places of its statements. -/
theorem locate_stampedSymbols {module : BoundModule} {generated markup : List SourceText}
    {options : Options} (hnodup : module.classNames.Nodup)
    (hsize : (stampedSymbols module generated markup options).encode.length < UInt32.size)
    {current : BoundClass} (hcurrent : current ∈ module.classes) (instruction : Nat) :
    (stampedSymbols module generated markup options).locate current.name instruction =
      ((emittedBody options.buildMode current.body)[
        min instruction ((emittedBody options.buildMode current.body).length - 1)]?).map
        fun stmt ↦ stmt.location.stored := by
  have hfits := DebugSymbols.fits_of_length_encode hsize
  let start := markup.foldl (addSource .markup options.embedMarkup)
    (generated.foldl (addSource .generated options.emitSymbols)
      { moduleName := options.moduleName })
  have hstart : start.classes = [] := by
    rw [addSources_classes, addSources_classes]
  obtain ⟨entries, hentries, hlocates⟩ := locates_addClasses options.buildMode start module.classes
    (List.prefix_refl _) (Nat.le_of_lt hfits.documents)
  rw [hstart, List.nil_append] at hentries
  refine locate_of_locates ?_ hnodup hcurrent (fun entry hentry ↦ (hfits.entry entry hentry).points)
    instruction
  change List.Forall₂ _ (module.classes.foldl (addClass options.buildMode) start).classes _
  rw [hentries]
  exact hlocates

end Emission

end PageScript
