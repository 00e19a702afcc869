import Mathlib.Data.List.Perm.Subperm
import PageScript.Proofs.Outcome
import PageScript.Proofs.Page.Ending

/-!
# Walks

What one file does to a walk, and what every walk keeps: the known files are those that were taken
and those in the queue, each once and in normal form, and in breadth-first order if the files hold
what the walk has found in them.
-/

namespace PageScript.Projection

/-! ## Discovering files -/

/-- A walk that has discovered more files. -/
structure Extends (walk : Walk) (source : String) (references : List String) (next : Walk) :
    Prop where
  grows : ∃ new, next.queue = walk.queue ++ new ∧ next.dependencies = walk.dependencies ++ new
  generated : next.generated = walk.generated
  markup : next.markup = walk.markup
  known : ∀ paths, walk.dependencies = paths.eraseDups →
    next.dependencies = (paths ++ targets source references).eraseDups

theorem extends_nil (walk : Walk) (source : String) : Extends walk source [] walk where
  grows := ⟨[], (List.append_nil _).symm, (List.append_nil _).symm⟩
  generated := rfl
  markup := rfl
  known paths hpaths := by rw [hpaths, targets, List.filterMap_nil, List.append_nil]

/-- A discovered path is known, and stands in the queue if it was not known before. -/
theorem discover_cases (walk : Walk) (path : String) :
    (path ∈ walk.dependencies ∧ walk.discover path = walk) ∨
      path ∉ walk.dependencies ∧ walk.discover path = { walk with
        queue := walk.queue ++ [path]
        dependencies := walk.dependencies ++ [path] } := by
  unfold Walk.discover
  by_cases hmem : path ∈ walk.dependencies
  · exact .inl ⟨hmem, if_pos (List.contains_iff_mem.mpr hmem)⟩
  · exact .inr ⟨hmem, if_neg (mt List.contains_iff_mem.mp hmem)⟩

/-- A file that is known already does not join the queue again. -/
theorem extends_discover {walk : Walk} {source path reference : String}
    (hresolve : Path.resolve source reference = .ok path) :
    Extends walk source [reference] (walk.discover path) := by
  have htargets : targets source [reference] = [path] := by
    simp [targets, hresolve, Except.toOption]
  obtain ⟨hmem, hwalk⟩ | ⟨hmem, hwalk⟩ := discover_cases walk path
  · rw [hwalk]
    refine ⟨⟨[], (List.append_nil _).symm, (List.append_nil _).symm⟩, rfl, rfl, ?_⟩
    intro paths hpaths
    rw [hpaths, List.mem_eraseDups] at hmem
    rw [htargets, eraseDups_concat, if_pos hmem, hpaths]
  · rw [hwalk]
    refine ⟨⟨[path], rfl, rfl⟩, rfl, rfl, ?_⟩
    intro paths hpaths
    rw [hpaths, List.mem_eraseDups] at hmem
    rw [htargets, eraseDups_concat, if_neg hmem, hpaths]

/-- References that are followed in two goes are as good as in one. -/
theorem Extends.trans {walk between next : Walk} {source : String}
    {references more : List String} (h : Extends walk source references between)
    (hmore : Extends between source more next) :
    Extends walk source (references ++ more) next := by
  obtain ⟨new, hqueue, hdependencies⟩ := h.grows
  obtain ⟨new', hqueue', hdependencies'⟩ := hmore.grows
  refine ⟨⟨new ++ new', ?_, ?_⟩, hmore.generated.trans h.generated,
    hmore.markup.trans h.markup, ?_⟩
  · rw [hqueue', hqueue, List.append_assoc]
  · rw [hdependencies', hdependencies, List.append_assoc]
  · intro paths hpaths
    rw [hmore.known _ (h.known paths hpaths), List.append_assoc, targets, targets, targets,
      List.filterMap_append]

/-- Either every reference leads to a path, or the first that does not is reported. -/
theorem discoverAll_cases (walk : Walk) (source : String) (references : List String) :
    (Resolves source references ∧ ∃ next, walk.discoverAll source references = .ok next ∧
      Extends walk source references next) ∨
    ∃ front reference after cause, references = front ++ reference :: after ∧
      Resolves source front ∧ Path.resolve source reference = .error cause ∧
      walk.discoverAll source references = .error (.file reference cause) := by
  induction references generalizing walk with
  | nil => exact .inl ⟨by simp [Resolves], walk, rfl, extends_nil walk source⟩
  | cons reference rest ih =>
    cases hresolve : Path.resolve source reference with
    | error cause =>
      refine .inr ⟨[], reference, rest, cause, rfl, by simp [Resolves], hresolve, ?_⟩
      rw [Walk.discoverAll, hresolve]
    | ok path =>
      have hstep : walk.discoverAll source (reference :: rest) =
          (walk.discover path).discoverAll source rest := by rw [Walk.discoverAll, hresolve]
      rw [hstep]
      obtain ⟨hrest, next, hnext, hextends⟩ |
        ⟨front, other, after, cause, hsplit, hfront, hcause, herror⟩ := ih (walk.discover path)
      · exact .inl ⟨List.forall_mem_cons.mpr ⟨⟨path, hresolve⟩, hrest⟩, next, hnext,
          (extends_discover hresolve).trans hextends⟩
      · refine .inr ⟨reference :: front, other, after, cause, by rw [hsplit, List.cons_append],
          List.forall_mem_cons.mpr ⟨⟨path, hresolve⟩, hfront⟩, hcause, herror⟩

/-! ## Visiting a file -/

/-- What one file does to a walk. -/
inductive Visited (root path content : String) (file : GeneratedFile) (walk : Walk) :
    Except PageError (Projection ⊕ Walk) → Prop
  | diagnostics (hfound : file.diagnostics ≠ []) : Visited root path content file walk
      (.ok (.inl ⟨walk.dependencies, .diagnostics file.diagnostics⟩))
  | unresolved {reference : String} {front after : List String} {cause : FileError}
      (hclean : file.diagnostics = []) (hsplit : file.dependencies = front ++ reference :: after)
      (hfront : Resolves path front) (hcause : Path.resolve path reference = .error cause) :
      Visited root path content file walk (.error (.file reference cause))
  | fatal {next : Walk} (hclean : file.diagnostics = [])
      (hresolves : Resolves path file.dependencies)
      (hnext : Extends walk path file.dependencies next)
      (hroot : path = root) (hdirective : file.hasDirective = false) :
      Visited root path content file walk
        (.ok (.inl ⟨next.dependencies, .fatal missingDirective⟩))
  | onward {next : Walk} (hclean : file.diagnostics = [])
      (hresolves : Resolves path file.dependencies)
      (hnext : Extends walk path file.dependencies next)
      (hdirective : path = root → file.hasDirective = true) :
      Visited root path content file walk (.ok (.inr (next.record path content file.source)))

/-- A visit ends in one of the ways of `Visited`, and nothing else comes of it. -/
theorem visited (root path content : String) (file : GeneratedFile) (walk : Walk) :
    Visited root path content file walk (visit root path content file walk) := by
  unfold visit
  by_cases hclean : file.diagnostics = []
  · rw [if_neg (by simp [hclean])]
    obtain ⟨hresolves, next, hnext, hextends⟩ |
      ⟨front, reference, after, cause, hsplit, hfront, hcause, herror⟩ :=
        discoverAll_cases walk path file.dependencies
    · rw [hnext, Outcome.ok_bind]
      by_cases hfatal : path = root ∧ file.hasDirective = false
      · rw [if_pos (by simp [hfatal])]
        exact .fatal hclean hresolves hextends hfatal.1 hfatal.2
      · rw [if_neg (by simpa using hfatal)]
        exact .onward hclean hresolves hextends (by simpa using hfatal)
    · rw [herror, Outcome.error_bind]
      exact .unresolved hclean hsplit hfront hcause
  · rw [if_pos (by simpa using hclean)]
    exact .diagnostics hclean

/-! ## The course of a walk -/

/-- Of the known files, `taken` have been taken from the queue, and all of them are served. -/
structure Course (served taken : List String) (walk : Walk) : Prop where
  split : walk.dependencies = taken ++ walk.queue
  known : ∃ paths : List String, walk.dependencies = paths.eraseDups ∧
    ∀ path ∈ paths, ∃ spelling, Path.normalize spelling = .ok path
  served : ∀ path ∈ taken, path ∈ served

/-- A reference that can be resolved leads to a path in normal form. -/
theorem normal_of_resolve {source reference path : String}
    (h : Path.resolve source reference = .ok path) :
    ∃ spelling, Path.normalize spelling = .ok path := by
  unfold Path.resolve at h
  simp only at h
  split at h
  · exact ⟨_, h⟩
  · exact ⟨_, h⟩

theorem normal_of_mem_targets {source path : String} {references : List String}
    (h : path ∈ targets source references) : ∃ spelling, Path.normalize spelling = .ok path := by
  obtain ⟨reference, _, hresolve⟩ := List.mem_filterMap.mp h
  cases hpath : Path.resolve source reference with
  | error cause => simp [hpath, Except.toOption] at hresolve
  | ok target =>
    obtain rfl : target = path := by simpa [hpath, Except.toOption] using hresolve
    exact normal_of_resolve hpath

variable {served taken : List String} {walk : Walk}

/-- No file is known twice. -/
theorem Course.nodup (h : Course served taken walk) : walk.dependencies.Nodup := by
  obtain ⟨paths, hpaths, _⟩ := h.known
  rw [hpaths]
  exact nodup_eraseDups paths

/-- A walk takes no more files than are served. -/
theorem Course.length_le (h : Course served taken walk) : taken.length ≤ served.length := by
  have hnodup := h.nodup
  rw [h.split] at hnodup
  exact ((List.nodup_append.mp hnodup).1.subperm h.served).length_le

/-- The next file of the queue is a new one, and its path is in normal form. -/
theorem Course.next (h : Course served taken walk) {path : String} {queue : List String}
    (hqueue : walk.queue = path :: queue) :
    path ∉ taken ∧ ∃ spelling, Path.normalize spelling = .ok path := by
  have hnodup := h.nodup
  rw [h.split, hqueue] at hnodup
  refine ⟨fun hmem ↦ ?_, ?_⟩
  · exact (List.nodup_append.mp hnodup).2.2 path hmem path List.mem_cons_self rfl
  · obtain ⟨paths, hpaths, hnormal⟩ := h.known
    refine hnormal path ?_
    rw [← List.mem_eraseDups, ← hpaths, h.split, hqueue]
    simp

/-- A file that a walk goes on by has been taken, and its references are known. -/
theorem Course.onward (h : Course served taken walk) {path : String}
    {queue references : List String} {next : Walk} (hqueue : walk.queue = path :: queue)
    (hserved : path ∈ served) (hnext : Extends { walk with queue } path references next)
    (content script : String) :
    Course served (taken ++ [path]) (next.record path content script) := by
  obtain ⟨paths, hpaths, hnormal⟩ := h.known
  obtain ⟨new, hgrown, hdependencies⟩ := hnext.grows
  refine ⟨?_, ⟨paths ++ targets path references, hnext.known paths hpaths, ?_⟩, ?_⟩
  · have hdone : next.dependencies = (taken ++ [path]) ++ next.queue := by
      rw [hdependencies, hgrown, h.split, hqueue]
      simp
    exact hdone
  · intro other hother
    rcases List.mem_append.mp hother with hother | hother
    · exact hnormal other hother
    · exact normal_of_mem_targets hother
  · intro other hother
    rcases List.mem_append.mp hother with hother | hother
    · exact h.served other hother
    · exact List.mem_singleton.mp hother ▸ hserved

/-! ## What a walk has seen -/

/-- The files that were taken stand in breadth-first order, the walk goes on by each of them, and
their scripts and texts are kept. -/
structure Walked (view : String → Except PageError String)
    (make : String → String → GeneratedFile) (root : String) (taken : List String) (walk : Walk) :
    Prop where
  order : BreadthFirst (refersTo view make) root taken
  known : walk.dependencies = discovered (refersTo view make) root taken
  passes : ∀ path ∈ taken, ∃ text, Passes view make root path text
  generated : walk.generated = taken.map fun path ↦
    ⟨Naming.generatedPath path, (make path (textOf view path)).source⟩
  markup : walk.markup = taken.map fun path ↦ ⟨path, textOf view path⟩

variable {view : String → Except PageError String} {make : String → String → GeneratedFile}
  {root : String}

theorem textOf_eq {path text : String} (h : view path = .ok text) : textOf view path = text := by
  rw [textOf, h]
  rfl

theorem refersTo_eq {path text : String} (h : view path = .ok text) :
    refersTo view make path = targets path (make path text).dependencies := by
  rw [refersTo, h]

/-- The files that are found by one more file come behind all that were found before. -/
theorem discovered_concat (refs : String → List String) (root path : String)
    (files : List String) :
    discovered refs root (files ++ [path]) =
      ((root :: files.flatMap refs) ++ refs path).eraseDups := by
  simp [discovered]

/-- The files that a walk knows are those that are found from the files it has taken. -/
theorem Walked.known_next (h : Walked view make root taken walk) {path text : String}
    {queue : List String} {next : Walk} (hread : view path = .ok text)
    (hnext : Extends { walk with queue } path (make path text).dependencies next) :
    next.dependencies = discovered (refersTo view make) root (taken ++ [path]) := by
  rw [hnext.known _ h.known, discovered_concat, refersTo_eq hread]

/-- The file at the head of the queue is the next one in breadth-first order. -/
theorem Walked.arrives (h : Walked view make root taken walk)
    (hcourse : Course served taken walk) {path : String} {queue : List String}
    (hqueue : walk.queue = path :: queue) : Arrives view make root taken path := by
  refine ⟨breadthFirst_concat_iff.mpr ⟨h.order, ?_⟩, h.passes⟩
  rw [← h.known, hcourse.split, hqueue]
  simp

/-- A walk that goes on by a file has taken this file as well. -/
theorem Walked.onward (h : Walked view make root taken walk) (hcourse : Course served taken walk)
    {path text : String} {queue : List String} {next : Walk}
    (hqueue : walk.queue = path :: queue) (hpasses : Passes view make root path text)
    (hnext : Extends { walk with queue } path (make path text).dependencies next) :
    Walked view make root (taken ++ [path]) (next.record path text (make path text).source) := by
  have htext := textOf_eq hpasses.read
  refine ⟨(h.arrives hcourse hqueue).order, (h.known_next hpasses.read hnext :), ?_, ?_, ?_⟩
  · intro other hother
    rcases List.mem_append.mp hother with hother | hother
    · exact h.passes other hother
    · rw [List.mem_singleton.mp hother]
      exact ⟨text, hpasses⟩
  · rw [Walk.record, hnext.generated, h.generated, List.map_append, List.map_singleton, htext]
  · rw [Walk.record, hnext.markup, h.markup, List.map_append, List.map_singleton, htext]

/-- A walk with nothing left in the queue has been a success. -/
theorem Walked.ends (h : Walked view make root taken walk) (hcourse : Course served taken walk)
    (hqueue : walk.queue = []) :
    Ends view make root (.ok ⟨walk.dependencies, .success (walk.page root)⟩) := by
  have hdone : walk.dependencies = taken := by rw [hcourse.split, hqueue, List.append_nil]
  rw [Walk.page, h.generated, h.markup, hdone]
  exact .success ⟨h.order, h.known.symm.trans hdone⟩ h.passes

end PageScript.Projection
