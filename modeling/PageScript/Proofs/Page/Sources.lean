import PageScript.Page.LineMarkup
import PageScript.Page.Unit
import PageScript.Proofs.Compilation.Correctness
import PageScript.Proofs.Emission.Documents
import PageScript.Proofs.Naming
import PageScript.Proofs.Page.Projection

/-!
# Sources of a page

A page that was projected has every markup file once and, in the same order, the script of each. All
of them can be looked up in the symbols that the page is compiled to, unless one of the markup files
has the path of a script: the two then share a document.
-/

namespace PageScript

/-- No markup file stands twice in a page, and its scripts are those of its markup files. -/
structure GeneratedPage.Paired (page : GeneratedPage) : Prop where
  distinct : (page.markup.map SourceText.path).Nodup
  scripts : page.generated.map SourceText.path =
    (page.markup.map SourceText.path).map Naming.generatedPath

namespace Projection

open Site

variable {ω : Type} {site : Site ω} {retry : RetrySettings} {components : List ComponentMetadata}
  {root : String} {limit budget : Nat} {walk : Walk} {world world' : ω}

/-- A walk holds text and script of every file it has taken. -/
structure Holds (taken : List String) (walk : Walk) : Prop where
  course : Course taken taken walk
  markup : walk.markup.map SourceText.path = taken
  scripts : walk.generated.map SourceText.path = taken.map Naming.generatedPath

/-- A file that a walk goes on by is held like those before it. -/
theorem Holds.onward {taken : List String} (h : Holds taken walk) {path : String}
    {queue references : List String} {next : Walk} (hqueue : walk.queue = path :: queue)
    (hnext : Extends { walk with queue } path references next) (content script : String) :
    Holds (taken ++ [path]) (next.record path content script) := by
  have hcourse : Course (taken ++ [path]) taken walk :=
    ⟨h.course.split, h.course.known, fun _ hmem ↦ List.mem_append_left _ hmem⟩
  refine ⟨hcourse.onward hqueue (by simp) hnext content script, ?_, ?_⟩
  · rw [Walk.record, hnext.markup, List.map_append, h.markup]
    rfl
  · rw [Walk.record, hnext.generated, List.map_append, List.map_append, h.scripts]
    rfl

/-- No file is taken twice, so the sources of a page are paired. -/
theorem Holds.paired {taken : List String} (h : Holds taken walk) (root : String) :
    (walk.page root).Paired where
  distinct := by
    have hnodup := h.course.nodup
    rw [h.course.split] at hnodup
    rw [Walk.page, h.markup]
    exact (List.nodup_append.mp hnodup).1
  scripts := by
    rw [Walk.page, h.markup, h.scripts]

theorem visit_of_take {path : String} {result : Projection ⊕ Walk}
    (h : (take site retry components root path walk).run.run world = (.ok result, world')) :
    ∃ content file, visit root path content file walk = .ok result := by
  obtain ⟨content, _, _, h⟩ := run_bind_eq_ok.mp h
  obtain ⟨file, _, _, h⟩ := run_bind_eq_ok.mp h
  exact ⟨content, file, congrArg Prod.fst h⟩

/-- A page is made of a walk that has taken all its files. -/
def MadeOf (root : String) (page : GeneratedPage) : Prop :=
  ∃ taken final, Holds taken final ∧ page = final.page root

theorem MadeOf.paired {page : GeneratedPage} (h : MadeOf root page) : page.Paired := by
  obtain ⟨taken, final, hholds, rfl⟩ := h
  exact hholds.paired root

/-- A page keeps the path that it was projected from. -/
theorem MadeOf.path_eq {page : GeneratedPage} (h : MadeOf root page) : page.path = root := by
  obtain ⟨_, _, _, rfl⟩ := h
  rfl

theorem Holds.madeOf_of_nil {taken : List String} (h : Holds taken walk)
    {dependencies : List String} {page : GeneratedPage} (hqueue : walk.queue = [])
    (hrun : (walkOn site retry components root limit budget walk).run.run world =
      (.ok ⟨dependencies, .success page⟩, world')) :
    MadeOf root page := by
  rw [walkOn_nil _ _ _ _ _ _ hqueue] at hrun
  cases hrun
  exact ⟨taken, walk, h, rfl⟩

/-- A walk that ends in a page has held all its files all the time. -/
theorem madeOf_of_walkOn {taken : List String} (h : Holds taken walk) {dependencies : List String}
    {page : GeneratedPage}
    (hrun : (walkOn site retry components root limit budget walk).run.run world =
      (.ok ⟨dependencies, .success page⟩, world')) :
    MadeOf root page := by
  -- A walk only gets to its end by files that it goes on by, and it records each of these.
  induction budget generalizing walk taken world with
  | zero =>
    cases hqueue : walk.queue with
    | nil => exact h.madeOf_of_nil hqueue hrun
    | cons path queue =>
      rw [walkOn.eq_def] at hrun
      simp only [hqueue] at hrun
      cases hrun
  | succ budget ih =>
    cases hqueue : walk.queue with
    | nil => exact h.madeOf_of_nil hqueue hrun
    | cons path queue =>
      rw [walkOn_cons _ _ _ _ _ _ hqueue] at hrun
      obtain ⟨result, between, htake, hrest⟩ := run_bind_eq_ok.mp hrun
      obtain ⟨content, file, hvisit⟩ := visit_of_take htake
      have hvisited := visited root path content file { walk with queue }
      rw [hvisit] at hvisited
      cases hvisited with
      | diagnostics _ => cases hrest
      | fatal _ _ _ _ _ => cases hrest
      | onward _ _ hnext _ => exact ih (h.onward hqueue hnext _ _) hrest

/-- A page has the path that its spelling stands for. -/
theorem madeOf_of_project {spelling : String} {dependencies : List String} {page : GeneratedPage}
    (h : (site.project retry spelling components).run.run world =
      (.ok ⟨dependencies, .success page⟩, world')) :
    ∃ root, Path.normalize spelling = .ok root ∧ MadeOf root page := by
  unfold Site.project at h
  cases hroot : Path.normalize spelling with
  | error cause =>
    rw [hroot] at h
    cases h
  | ok root =>
    rw [hroot] at h
    obtain ⟨_, _, _, h⟩ := run_bind_eq_ok.mp h
    exact ⟨root, rfl, madeOf_of_walkOn ⟨course_start hroot, rfl, rfl⟩ h⟩

end Projection

/-! ## Sources in the symbols -/

namespace GeneratedPage

/-- The symbols have a document of its own for each source of a page. -/
def KeptIn (page : GeneratedPage) (symbols : DebugSymbols) : Prop :=
  (∀ source ∈ page.generated, symbols.Keeps .generated source) ∧
    ∀ file ∈ page.markup, symbols.Keeps .markup file

/-- What a compilation with symbols attaches to a page. -/
theorem symbols_of_compile {σ : Type} {page : GeneratedPage} {check : CancelCheck σ}
    {settings : CompilerSettings} {references : References} {world world' : σ} {artifact : Artifact}
    (h : (page.compile check settings references).run.run world = (.ok artifact, world'))
    (hemit : settings.emitSymbols = true) :
    ∃ module, artifact.symbols = some (Emission.stampedSymbols module page.generated page.markup
      (page.input settings references).options).encode := by
  obtain ⟨compiled, _, hcompiled, hartifact⟩ := run_bind_eq_ok.mp h
  obtain ⟨_, module, _, _, rfl⟩ := compile_cases hcompiled
  cases hartifact
  exact ⟨module, if_pos hemit⟩

theorem Paired.embeds {page : GeneratedPage} (h : page.Paired) {settings : CompilerSettings}
    (hemit : settings.emitSymbols = true) (hembed : settings.embedMarkup = true)
    (references : References) :
    Emission.Embeds page.generated page.markup (page.input settings references).options where
  emitSymbols := hemit
  embedMarkup := hembed
  generated := by
    rw [h.scripts]
    exact h.distinct.map Naming.generatedPath_injective
  markup := h.distinct

/-- The paths of scripts are those made of the paths of markup files. -/
theorem Paired.mem_scripts_iff {page : GeneratedPage} (h : page.Paired) {path : String} :
    path ∈ page.generated.map SourceText.path ↔
      ∃ file ∈ page.markup, Naming.generatedPath file.path = path := by
  rw [h.scripts, List.map_map, List.mem_map]
  rfl

/-- The symbols of a page that was projected and compiled keep a markup file unless a script has its
path, and a script unless a markup file with its path has another text. So they keep all sources
exactly if no file of the page is named like the script of another one. -/
theorem sources_kept_iff {ω σ : Type} {site : Site ω} {retry : RetrySettings} {spelling : String}
    {components : List ComponentMetadata} {before after : ω} {dependencies : List String}
    {page : GeneratedPage}
    (hproject : (site.project retry spelling components).run.run before =
      (.ok ⟨dependencies, .success page⟩, after))
    {check : CancelCheck σ} {settings : CompilerSettings} {references : References}
    {world world' : σ} {artifact : Artifact}
    (hcompile : (page.compile check settings references).run.run world = (.ok artifact, world'))
    (hemit : settings.emitSymbols = true) (hembed : settings.embedMarkup = true)
    (hsize : ∀ bytes ∈ artifact.symbols, bytes.length < UInt32.size) :
    ∃ bytes symbols, artifact.symbols = some bytes ∧ DebugSymbols.decode bytes = .ok symbols ∧
      (∀ source ∈ page.generated, symbols.Keeps .generated source ↔
        ∀ file ∈ page.markup, file.path = source.path → file.text = source.text) ∧
      (∀ file ∈ page.markup, symbols.Keeps .markup file ↔
        ∀ other ∈ page.markup, Naming.generatedPath other.path ≠ file.path) ∧
      (page.KeptIn symbols ↔ ∀ file ∈ page.markup, ∀ other ∈ page.markup,
        Naming.generatedPath other.path ≠ file.path) := by
  obtain ⟨_, _, hmade⟩ := Projection.madeOf_of_project hproject
  have hpaired := hmade.paired
  have hembeds := hpaired.embeds hemit hembed references
  obtain ⟨module, hsymbols⟩ := symbols_of_compile hcompile hemit
  have hfree (path : String) : path ∉ page.generated.map SourceText.path ↔
      ∀ other ∈ page.markup, Naming.generatedPath other.path ≠ path := by
    rw [hpaired.mem_scripts_iff]
    simp only [not_exists, not_and, ne_eq]
  refine ⟨_, _, hsymbols, DebugSymbols.decode_encode _ (hsize _ hsymbols), ?_, ?_, ?_⟩
  · intro source hsource
    exact hembeds.keeps_generated_iff module hsource
  · intro file hfile
    rw [← hfree]
    exact hembeds.keeps_markup_iff module hfile
  · simp only [← hfree]
    exact hembeds.keeps_all_iff module

/-! ## A file with the name of a script -/

/-- A page that refers to a file with the name of the script of the page. -/
def shadowFiles : List SourceText :=
  [⟨"/home", "@page\ninclude home.g.kps"⟩, ⟨"/home.g.kps", "Welcome"⟩]

def shadowSite : Site Unit where
  read path := pure <| match shadowFiles.find? fun file ↦ file.path = path with
    | some file => .ok (Text.Utf8.encode file.text)
    | none => .error (.notFound path)
  cancelled := (pure false : StateM Unit Bool)
  pause _ := pure ()
  generate path text components := pure (LineMarkup.generate path text components)
  fileBound _ := shadowFiles.length

def shadowPage : GeneratedPage where
  path := "/home"
  className := "Page_home_2cc974af"
  generated := [
    ⟨"/home.g.kps", LineMarkup.script "/home" "Page_home_2cc974af"
      ["", "include Page_home_g_kps_b5aa3871;"]⟩,
    ⟨"/home.g.kps.g.kps", LineMarkup.script "/home.g.kps" "Page_home_g_kps_b5aa3871"
      ["write \"Welcome\";"]⟩]
  markup := shadowFiles

theorem project_shadow : (shadowSite.project {} "/home" []).run.run () =
    (.ok ⟨["/home", "/home.g.kps"], .success shadowPage⟩, ()) :=
  Prod.ext (by decide +kernel) rfl

def shadowReferences : References := [.ofTypes "web.ui" [("Page", { isComponent := false })]]

def shadowModule : BoundModule where
  classes := [
    { name := "Page_home_2cc974af", base := ⟨"web.ui", "Page"⟩, slotCount := 0, unit := 0
      body := [⟨.embed "Page_home_g_kps_b5aa3871", ⟨"/home", 2, 1⟩⟩] },
    { name := "Page_home_g_kps_b5aa3871", base := ⟨"web.ui", "Page"⟩, slotCount := 0, unit := 1
      body := [⟨.write "Welcome", ⟨"/home.g.kps", 1, 1⟩⟩] }]

theorem shadow_bound :
    ((shadowPage.input {} shadowReferences).parse.toOption.bind fun units ↦
      (Binding.bind units shadowReferences).toOption) = some shadowModule := by
  decide +kernel

theorem compile_shadow :
    (shadowPage.compile (pure false : StateM Unit Bool) {} shadowReferences).run.run () =
      (.ok {
        moduleName := Naming.moduleName shadowPage.className
        image := ((shadowPage.input {} shadowReferences).emit shadowModule).image
        symbols := ((shadowPage.input {} shadowReferences).emit shadowModule).symbols
        buildId := ((shadowPage.input {} shadowReferences).emit shadowModule).buildId
        warnings := ((shadowPage.input {} shadowReferences).emit shadowModule).warnings }, ()) :=
  run_bind_eq_ok.mpr ⟨_, (), compile_of_bound shadow_bound (), rfl⟩

theorem shadow_fit : Emission.Fit (Emission.streams shadowModule shadowPage.generated
    shadowPage.markup (shadowPage.input {} shadowReferences).options true) :=
  Emission.fit_of_lengths (by decide +kernel) (by decide +kernel)

/-- Neither the script of the page nor the file with its name is kept. -/
theorem shadow_sources_lost : ∃ artifact bytes symbols,
    (shadowSite.project {} "/home" []).run.run () =
      (.ok ⟨["/home", "/home.g.kps"], .success shadowPage⟩, ()) ∧
    (shadowPage.compile (pure false : StateM Unit Bool) {} shadowReferences).run.run () =
      (.ok artifact, ()) ∧
    artifact.symbols = some bytes ∧ DebugSymbols.decode bytes = .ok symbols ∧
    (∃ source ∈ shadowPage.generated, ¬symbols.Keeps .generated source) ∧
    ∃ file ∈ shadowPage.markup, ¬symbols.Keeps .markup file := by
  obtain ⟨bytes, symbols, hsymbols, hdecode, hgenerated, hmarkup, _⟩ :=
    sources_kept_iff project_shadow compile_shadow rfl rfl shadow_fit.symbols
  refine ⟨_, bytes, symbols, project_shadow, compile_shadow, hsymbols, hdecode, ?_, ?_⟩
  · refine ⟨_, List.mem_cons_self, ?_⟩
    rw [hgenerated _ List.mem_cons_self]
    decide +kernel
  · refine ⟨⟨"/home.g.kps", "Welcome"⟩, by decide, ?_⟩
    rw [hmarkup _ (by decide)]
    decide

end GeneratedPage

end PageScript
