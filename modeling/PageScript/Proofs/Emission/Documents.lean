import PageScript.Proofs.Emission.Places
import PageScript.Proofs.Table

/-!
# Documents of symbols

Documents are told apart by their paths alone. A script and a markup file with one path therefore
share a document, which has the kind of the script and the text of the markup file; every other
source has a document of its own.
-/

namespace PageScript

namespace DebugSymbols

/-! ## Documents by path -/

def paths (symbols : DebugSymbols) : List String := symbols.documents.map Document.path

/-- There is a document of this kind with the path and the text of a source. -/
def Keeps (symbols : DebugSymbols) (kind : DocumentKind) (source : SourceText) : Prop :=
  ⟨source.path, kind, some source.text⟩ ∈ symbols.documents

/-- With distinct paths, a document is found by its own. -/
theorem mem_documents_iff {symbols : DebugSymbols} (h : symbols.paths.Nodup) {document : Document} :
    document ∈ symbols.documents ↔ symbols.document? document.path = some document := by
  rw [document?, find?_eq_some_iff_of_nodup h]
  exact (and_iff_left rfl).symm

theorem path_of_document? {symbols : DebugSymbols} {path : String} {document : Document}
    (h : symbols.document? path = some document) : document.path = path := by
  simpa using List.find?_some h

theorem document?_eq_none_iff {symbols : DebugSymbols} {path : String} :
    symbols.document? path = none ↔ path ∉ symbols.paths := by
  rw [document?, List.find?_eq_none, paths, List.mem_map]
  simp

/-- A document that is found stays so while others are added. -/
theorem document?_of_isPrefix {symbols later : DebugSymbols}
    (h : symbols.documents <+: later.documents) {path : String} {document : Document}
    (hfound : symbols.document? path = some document) : later.document? path = some document :=
  h.find?_eq_some hfound

/-- Either there is a document at the path, or one is added behind the others. -/
theorem documentIndex_cases (symbols : DebugSymbols) (path : String) (kind : DocumentKind) :
    (∃ index document, symbols.document? path = some document ∧
      (symbols.documents.findIdx? fun document ↦ document.path = path) = some index ∧
      symbols.documentIndex path kind = (index, symbols)) ∨
    symbols.document? path = none ∧ symbols.documentIndex path kind =
      (symbols.documents.length,
        { symbols with documents := symbols.documents ++ [{ path, kind }] }) := by
  have hfind : symbols.document? path = _ := List.find?_eq_bind_findIdx?_getElem?
  unfold documentIndex
  cases hindex : symbols.documents.findIdx? fun document ↦ document.path = path with
  | some index =>
    obtain ⟨hlt, _⟩ := List.findIdx?_eq_some_iff_getElem.mp hindex
    rw [hindex, Option.bind_some, List.getElem?_eq_getElem hlt] at hfind
    exact .inl ⟨index, _, hfind, rfl, rfl⟩
  | none =>
    rw [hindex, Option.bind_none] at hfind
    exact .inr ⟨hfind, rfl⟩

/-- Asking for a document never makes a second one with its path. -/
theorem nodup_documentIndex {symbols : DebugSymbols} (h : symbols.paths.Nodup) (path : String)
    (kind : DocumentKind) : (symbols.documentIndex path kind).2.paths.Nodup := by
  obtain ⟨_, _, _, _, hsame⟩ | ⟨hnone, hnew⟩ := symbols.documentIndex_cases path kind
  · rw [hsame]
    exact h
  · rw [hnew, paths, List.map_append, List.map_singleton, ← List.concat_eq_append]
    exact h.concat (document?_eq_none_iff.mp hnone)

theorem findIdx?_documentIndex (symbols : DebugSymbols) (path : String) (kind : DocumentKind) :
    ((symbols.documentIndex path kind).2.documents.findIdx? fun document ↦ document.path = path) =
      some (symbols.documentIndex path kind).1 := by
  unfold documentIndex
  cases hindex : symbols.documents.findIdx? fun document ↦ document.path = path with
  | some index => exact hindex
  | none => simp [List.findIdx?_append, hindex]

/-- Asking for a document makes it if need be, with no text, and touches no other. -/
theorem document?_documentIndex (symbols : DebugSymbols) (path : String) (kind : DocumentKind)
    (other : String) :
    (symbols.documentIndex path kind).2.document? other =
      if other = path then some ((symbols.document? path).getD { path, kind })
      else symbols.document? other := by
  obtain ⟨_, document, hdocument, _, hsame⟩ | ⟨hnone, hnew⟩ := symbols.documentIndex_cases path kind
  · rw [hsame, hdocument]
    by_cases hother : other = path
    · rw [if_pos hother, hother, hdocument, Option.getD_some]
    · rw [if_neg hother]
  · rw [hnew, hnone, document?, List.find?_append, ← document?]
    by_cases hother : other = path
    · subst hother
      simp [hnone]
    · simp [hother, Ne.symm hother]

end DebugSymbols

namespace Emission

open DebugSymbols

/-! ## Sources -/

variable {symbols : DebugSymbols} {kind : DocumentKind} {sources : List SourceText}

theorem path_withText (text : String) (document : Document) :
    ({ document with text := some text } : Document).path = document.path := rfl

/-- A source that is kept is written over the text of the document with its path. -/
theorem documents_addSource (kind : DocumentKind) (symbols : DebugSymbols) (source : SourceText) :
    (addSource kind true symbols source).documents =
      (symbols.documentIndex source.path kind).2.documents.modify
        (symbols.documentIndex source.path kind).1
        fun document ↦ { document with text := some source.text } := rfl

theorem nodup_addSource (h : symbols.paths.Nodup) (kind : DocumentKind) (keep : Bool)
    (source : SourceText) : (addSource kind keep symbols source).paths.Nodup := by
  have hindex := nodup_documentIndex h source.path kind
  cases keep with
  | false => exact hindex
  | true =>
    rw [paths, documents_addSource, map_modify (path_withText source.text)]
    exact hindex

/-- A source takes over the document at its path, all but its kind. -/
theorem document?_addSource (symbols : DebugSymbols) (kind : DocumentKind) (source : SourceText)
    (path : String) :
    (addSource kind true symbols source).document? path =
      if path = source.path then
        some ⟨path, ((symbols.document? path).map Document.kind).getD kind, some source.text⟩
      else symbols.document? path := by
  rw [document?, documents_addSource,
    find?_modify_findIdx? (path_withText source.text) (symbols.findIdx?_documentIndex _ _),
    ← document?, ← document?, document?_documentIndex, document?_documentIndex, if_pos rfl]
  by_cases hpath : path = source.path
  · subst hpath
    rw [if_pos rfl, if_pos rfl]
    cases hfound : symbols.document? source.path with
    | none => rfl
    | some document =>
      have hpath := path_of_document? hfound
      simp [hpath]
  · rw [if_neg hpath, if_neg hpath, if_neg hpath]

/-- Sources leave alone the documents of other paths. -/
theorem document?_addSources_of_not_mem {path : String} (h : path ∉ sources.map SourceText.path) :
    (sources.foldl (addSource kind true) symbols).document? path = symbols.document? path := by
  induction sources generalizing symbols with
  | nil => rfl
  | cons source rest ih =>
    rw [List.map_cons, List.mem_cons, not_or] at h
    rw [List.foldl_cons, ih h.2, document?_addSource, if_neg h.1]

/-- A source ends up in the document with its path, which keeps the kind that it had before. -/
theorem document?_addSources_of_mem (hnodup : (sources.map SourceText.path).Nodup)
    {source : SourceText} (h : source ∈ sources) :
    (sources.foldl (addSource kind true) symbols).document? source.path =
      some ⟨source.path, ((symbols.document? source.path).map Document.kind).getD kind,
        some source.text⟩ := by
  induction sources generalizing symbols with
  | nil => simp at h
  | cons first rest ih =>
    rw [List.map_cons, List.nodup_cons] at hnodup
    rw [List.foldl_cons]
    rcases List.mem_cons.mp h with rfl | hrest
    · rw [document?_addSources_of_not_mem hnodup.1, document?_addSource, if_pos rfl]
    · have hne : source.path ≠ first.path := fun heq ↦
        hnodup.1 (heq ▸ List.mem_map_of_mem hrest)
      rw [ih hnodup.2 hrest, document?_addSource, if_neg hne]

theorem nodup_addSources (h : symbols.paths.Nodup) (kind : DocumentKind) (keep : Bool)
    (sources : List SourceText) :
    (sources.foldl (addSource kind keep) symbols).paths.Nodup := by
  induction sources generalizing symbols with
  | nil => exact h
  | cons source rest ih => exact ih (nodup_addSource h kind keep source)

/-! ## Statements -/

theorem nodup_addPoints (h : symbols.paths.Nodup) (number : Nat) (body : List BoundStatement) :
    (addPoints symbols number body).2.paths.Nodup := by
  induction body generalizing symbols number with
  | nil => exact h
  | cons stmt rest ih => exact ih (nodup_documentIndex h _ _) _

theorem nodup_addClasses (h : symbols.paths.Nodup) (buildMode : BuildMode)
    (classes : List BoundClass) :
    (classes.foldl (addClass buildMode) symbols).paths.Nodup := by
  induction classes generalizing symbols with
  | nil => exact h
  | cons current rest ih => exact ih (nodup_addPoints h 0 _)

/-- No two documents of emitted symbols have the same path. -/
theorem nodup_symbols (module : BoundModule) (generated markup : List SourceText)
    (options : Options) : (Emission.symbols module generated markup options).paths.Nodup := by
  have hstart : ({ moduleName := options.moduleName } : DebugSymbols).paths.Nodup := List.nodup_nil
  apply nodup_addClasses
  apply nodup_addSources
  exact nodup_addSources hstart .generated _ generated

/-! ## What becomes of the sources -/

/-- The texts of all sources are to be kept, and neither scripts nor markup files share paths. -/
structure Embeds (generated markup : List SourceText) (options : Options) : Prop where
  emitSymbols : options.emitSymbols = true
  embedMarkup : options.embedMarkup = true
  generated : (generated.map SourceText.path).Nodup
  markup : (markup.map SourceText.path).Nodup

variable {generated markup : List SourceText} {options : Options}

/-- A script keeps its own document if no markup file has its path. -/
theorem Embeds.document?_generated (h : Embeds generated markup options) (module : BoundModule)
    {source : SourceText} (hsource : source ∈ generated)
    (hfree : source.path ∉ markup.map SourceText.path) :
    (Emission.symbols module generated markup options).document? source.path =
      some ⟨source.path, .generated, some source.text⟩ := by
  refine document?_of_isPrefix (addClasses_documents _ _ _) ?_
  rw [h.emitSymbols, h.embedMarkup, document?_addSources_of_not_mem hfree,
    document?_addSources_of_mem h.generated hsource]
  rfl

/-- A markup file is written over the script with its path, if there is one, in a document that
stays one of a script. -/
theorem Embeds.document?_markup (h : Embeds generated markup options) (module : BoundModule)
    {file : SourceText} (hfile : file ∈ markup) :
    (Emission.symbols module generated markup options).document? file.path =
      some ⟨file.path, if file.path ∈ generated.map SourceText.path then .generated else .markup,
        some file.text⟩ := by
  refine document?_of_isPrefix (addClasses_documents _ _ _) ?_
  rw [h.emitSymbols, h.embedMarkup, document?_addSources_of_mem h.markup hfile]
  by_cases hshared : file.path ∈ generated.map SourceText.path
  · obtain ⟨source, hsource, hpath⟩ := List.mem_map.mp hshared
    rw [if_pos hshared, ← hpath, document?_addSources_of_mem h.generated hsource]
    rfl
  · rw [if_neg hshared, document?_addSources_of_not_mem hshared]
    rfl

/-- A script keeps its document unless a markup file with its path has another text. -/
theorem Embeds.keeps_generated_iff (h : Embeds generated markup options) (module : BoundModule)
    {source : SourceText} (hsource : source ∈ generated) :
    (Emission.symbols module generated markup options).Keeps .generated source ↔
      ∀ file ∈ markup, file.path = source.path → file.text = source.text := by
  rw [Keeps, mem_documents_iff (nodup_symbols module generated markup options)]
  by_cases hshared : source.path ∈ markup.map SourceText.path
  · obtain ⟨file, hfile, hpath⟩ := List.mem_map.mp hshared
    have hmem : source.path ∈ generated.map SourceText.path := List.mem_map_of_mem hsource
    have hfound := h.document?_markup module hfile
    rw [hpath, if_pos hmem] at hfound
    rw [hfound]
    constructor
    · intro hsame other hother hpath'
      have htext : file.text = source.text := by simpa using hsame
      rw [List.inj_on_of_nodup_map h.markup hother hfile (hpath'.trans hpath.symm), htext]
    · intro hall
      rw [hall file hfile hpath]
  · rw [h.document?_generated module hsource hshared]
    refine iff_of_true rfl fun file hfile hpath ↦ ?_
    exact absurd (hpath ▸ List.mem_map_of_mem hfile) hshared

/-- A markup file keeps its document unless a script has its path. -/
theorem Embeds.keeps_markup_iff (h : Embeds generated markup options) (module : BoundModule)
    {file : SourceText} (hfile : file ∈ markup) :
    (Emission.symbols module generated markup options).Keeps .markup file ↔
      file.path ∉ generated.map SourceText.path := by
  rw [Keeps, mem_documents_iff (nodup_symbols module generated markup options),
    h.document?_markup module hfile]
  by_cases hshared : file.path ∈ generated.map SourceText.path
  · simp [hshared]
  · simp [hshared]

/-- All sources keep their documents exactly if no script has the path of a markup file. -/
theorem Embeds.keeps_all_iff (h : Embeds generated markup options) (module : BoundModule) :
    ((∀ source ∈ generated,
        (Emission.symbols module generated markup options).Keeps .generated source) ∧
      ∀ file ∈ markup, (Emission.symbols module generated markup options).Keeps .markup file) ↔
      ∀ file ∈ markup, file.path ∉ generated.map SourceText.path := by
  constructor
  · rintro ⟨_, hmarkup⟩ file hfile
    exact (h.keeps_markup_iff module hfile).mp (hmarkup file hfile)
  · intro hfree
    refine ⟨fun source hsource ↦ (h.keeps_generated_iff module hsource).mpr ?_,
      fun file hfile ↦ (h.keeps_markup_iff module hfile).mpr (hfree file hfile)⟩
    intro file hfile hpath
    exact absurd (hpath ▸ List.mem_map_of_mem hsource) (hfree file hfile)

end Emission

end PageScript
