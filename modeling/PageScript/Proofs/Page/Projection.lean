import PageScript.Proofs.Page.Recording
import PageScript.Proofs.Page.Walk
import PageScript.Proofs.Table

/-!
# Projections

Whatever the files of a site hold, projecting a page ends as they demand. Every file is read with
success and generated at most once, so that a site that serves finitely many files brings every
walk to its end.
-/

namespace PageScript.Projection

open Site

/-! ## Ends of runs -/

section

variable {served taken : List String} {walk : Walk} {view : String → Except PageError String}
  {make : String → String → GeneratedFile} {root : String}
  {ω : Type} {site : Site ω} {calm : ω → Prop}
  {generator : String → String → List ComponentMetadata → GeneratedFile} {world : ω}

/-- A walk from where it has come ends as the files demand, and each of the files it still takes is
read with success and made into a script at most once. -/
structure Completes (retry : RetrySettings) (make : String → String → GeneratedFile)
    (root : String) (taken : List String) (walk : Walk) (outcome : Except PageError Projection)
    (requests : List Request) : Prop where
  once : Once taken requests
  enough : ∀ limit, outcome ≠ .error (.tooManyFiles limit)
  ends : ∀ view, Shows retry requests view → Walked view make root taken walk →
    Ends view make root outcome

/-- A walk that ends at the next file, which cannot be read. -/
theorem completes_unread {retry : RetrySettings} {path : String} {queue : List String}
    (hcourse : Course served taken walk) (hqueue : walk.queue = path :: queue)
    (failures : List FileError) {answer : Except FileError Bytes} {error : PageError}
    (hreading : reading retry path answer = .error error) :
    Completes retry make root taken walk (.error error) (tries path failures answer) where
  once := once_tries (hcourse.next hqueue).1 failures answer
  enough limit h := by
    cases h
    exact reading_ne_tooManyFiles retry path answer limit hreading
  ends view hshows hwalked := by
    rw [← List.append_nil (tries path failures answer)] at hshows
    have hread : view path = .error error := (hshows.view_eq (by simp)).trans hreading
    exact .stop (hwalked.arrives hcourse hqueue) (.unread hread)

/-- A walk that ends at the next file with what it holds. -/
theorem completes_stop {retry : RetrySettings} {path text : String} {queue : List String}
    (hcourse : Course served taken walk) (hqueue : walk.queue = path :: queue)
    (failures : List FileError) {answer : Except FileError Bytes}
    (hreading : reading retry path answer = .ok text) {outcome : Except PageError Projection}
    (henough : ∀ limit, outcome ≠ .error (.tooManyFiles limit))
    (hstops : ∀ view, view path = .ok text → Walked view make root taken walk →
      Stops view make root taken path outcome) :
    Completes retry make root taken walk outcome
      (tries path failures answer ++ [.generate path text]) where
  once := once_making (hcourse.next hqueue).1 failures answer text
  enough := henough
  ends view hshows hwalked := by
    have hread : view path = .ok text :=
      (hshows.view_eq (by simp [Request.answer?])).trans hreading
    exact .stop (hwalked.arrives hcourse hqueue) (hstops view hread hwalked)

/-- A walk that goes on by the next file. -/
theorem Completes.onward {retry : RetrySettings} {path text : String} {queue : List String}
    {next : Walk} {outcome : Except PageError Projection} {requests : List Request}
    (h : Completes retry make root (taken ++ [path]) next outcome requests)
    (hcourse : Course served taken walk) (hqueue : walk.queue = path :: queue)
    (failures : List FileError) {answer : Except FileError Bytes}
    (hreading : reading retry path answer = .ok text)
    (hnext : ∀ view, view path = .ok text → Walked view make root taken walk →
      Walked view make root (taken ++ [path]) next) :
    Completes retry make root taken walk outcome
      (tries path failures answer ++ [.generate path text] ++ requests) where
  once := by
    refine (once_making (hcourse.next hqueue).1 failures answer text).append ?_ h.once
    intro request hrequest
    rcases List.mem_append.mp hrequest with hrequest | hrequest
    · exact path_of_mem_tries hrequest
    · rw [List.mem_singleton.mp hrequest]
      rfl
  enough := h.enough
  ends view hshows hwalked := by
    -- Behind this file only others are asked for, so the answer here is its last one.
    have hread : view path = .ok text := by
      rw [List.append_assoc] at hshows
      refine (hshows.view_eq ?_).trans hreading
      simpa [Request.answer?] using h.once.answer_eq_none
    exact h.ends view hshows.of_append (hnext view hread hwalked)

/-! ## Steps -/

/-- What a walk does with the next file. -/
def take (site : Site ω) (retry : RetrySettings) (components : List ComponentMetadata)
    (root path : String) (walk : Walk) : Action ω (Projection ⊕ Walk) := do
  let content ← site.readMarkup retry path
  let file ← site.generate path content components
  visit root path content file walk

theorem walkOn_nil (site : Site ω) (retry : RetrySettings) (components : List ComponentMetadata)
    (root : String) (limit budget : Nat) (hqueue : walk.queue = []) :
    walkOn site retry components root limit budget walk =
      pure ⟨walk.dependencies, .success (walk.page root)⟩ := by
  rw [walkOn.eq_def]
  simp only [hqueue]

theorem walkOn_cons (site : Site ω) (retry : RetrySettings) (components : List ComponentMetadata)
    (root : String) (limit budget : Nat) {path : String} {queue : List String}
    (hqueue : walk.queue = path :: queue) :
    walkOn site retry components root limit (budget + 1) walk =
      take site retry components root path { walk with queue } >>=
        Sum.elim pure (walkOn site retry components root limit budget) := by
  rw [walkOn.eq_def]
  simp only [hqueue, take, bind_assoc]
  refine bind_congr fun content ↦ bind_congr fun file ↦ bind_congr fun result ↦ ?_
  cases result with
  | inl projection => rfl
  | inr walk => rfl

/-- A file ends a walk as the files demand, or leaves it to the files behind it to do so. -/
inductive Step (retry : RetrySettings) (make : String → String → GeneratedFile) (root : String)
    (served taken : List String) (path : String) (walk : Walk) :
    Except PageError (Projection ⊕ Walk) → List Request → Prop
  | failed {error : PageError} {requests : List Request}
      (h : Completes retry make root taken walk (.error error) requests) :
      Step retry make root served taken path walk (.error error) requests
  | ended {projection : Projection} {requests : List Request}
      (h : Completes retry make root taken walk (.ok projection) requests) :
      Step retry make root served taken path walk (.ok (.inl projection)) requests
  | onward {next : Walk} {requests : List Request}
      (hcourse : Course served (taken ++ [path]) next)
      (hrest : ∀ outcome more, Completes retry make root (taken ++ [path]) next outcome more →
        Completes retry make root taken walk outcome (requests ++ more)) :
      Step retry make root served taken path walk (.ok (.inr next)) requests

/-- A file that was read and made into a script. -/
theorem step_visit {retry : RetrySettings} {path text : String} {queue : List String}
    (hcourse : Course served taken walk) (hqueue : walk.queue = path :: queue)
    (failures : List FileError) {answer : Except FileError Bytes}
    (hreading : reading retry path answer = .ok text) (hserved : path ∈ served) :
    Step retry make root served taken path walk
      (visit root path text (make path text) { walk with queue })
      (tries path failures answer ++ [.generate path text]) := by
  have hvisited := visited root path text (make path text) { walk with queue }
  generalize visit root path text (make path text) { walk with queue } = result at hvisited ⊢
  cases hvisited with
  | diagnostics hfound =>
    refine .ended (completes_stop hcourse hqueue failures hreading (by simp) ?_)
    intro view hread hwalked
    rw [hwalked.known]
    exact .diagnostics hread hfound
  | unresolved hclean hsplit hfront hcause =>
    refine .failed (completes_stop hcourse hqueue failures hreading (by simp) ?_)
    intro view hread _
    exact .unresolved hread hclean hsplit hfront hcause
  | fatal hclean hresolves hnext hroot hdirective =>
    refine .ended (completes_stop hcourse hqueue failures hreading (by simp) ?_)
    intro view hread hwalked
    rw [hwalked.known_next hread hnext]
    exact .fatal hread hclean hresolves hroot hdirective
  | onward hclean hresolves hnext hdirective =>
    refine .onward (hcourse.onward hqueue hserved hnext _ _) fun outcome more hmore ↦ ?_
    refine hmore.onward hcourse hqueue failures hreading ?_
    intro view hread hwalked
    exact hwalked.onward hcourse hqueue ⟨hread, hclean, hresolves, hdirective⟩ hnext

theorem logs_take (h : site.Steady calm served generator) (hcalm : calm world)
    (retry : RetrySettings) (components : List ComponentMetadata) (root : String)
    {path : String} {queue : List String} (hcourse : Course served taken walk)
    (hqueue : walk.queue = path :: queue) :
    ∃ result requests next,
      Logs (take site retry components root path { walk with queue })
        (take site.recorded retry components root path { walk with queue }) world result requests
        next ∧ calm next ∧
      Step retry (fun path text ↦ generator path text components) root served taken path walk
        result requests := by
  obtain ⟨failures, answer, read, hread, hcalm, hserved⟩ := h.logs_readMarkup hcalm retry path
  cases hreading : reading retry path answer with
  | error error =>
    rw [hreading] at hread
    exact ⟨_, _, read, hread.bind_error _ _, hcalm,
      .failed (completes_unread hcourse hqueue failures hreading)⟩
  | ok text =>
    rw [hreading] at hread
    obtain ⟨made, hmake, hcalm⟩ := h.logs_generate hcalm path text components
    obtain ⟨spelling, hspelling⟩ := (hcourse.next hqueue).2
    obtain ⟨bytes, hbytes⟩ := ok_of_reading hreading
    exact ⟨_, _, made, hread.bind (hmake.bind (logs_except made _)), hcalm,
      step_visit hcourse hqueue failures hreading (hserved spelling bytes hspelling hbytes)⟩

/-- A walk on a site that serves no more files than the budget allows comes to its end. -/
theorem logs_walkOn (h : site.Steady calm served generator) (hcalm : calm world)
    (retry : RetrySettings) (components : List ComponentMetadata) (root : String) (limit : Nat)
    {budget : Nat} (hcourse : Course served taken walk)
    (hbudget : served.length < budget + taken.length) :
    ∃ outcome requests next,
      Logs (walkOn site retry components root limit budget walk)
        (walkOn site.recorded retry components root limit budget walk) world outcome requests
        next ∧
      Completes retry (fun path text ↦ generator path text components) root taken walk outcome
        requests := by
  -- Every file that is taken is a new one of those that are served, so the budget outlasts them.
  induction budget generalizing world taken walk with
  | zero =>
    have := hcourse.length_le
    omega
  | succ budget ih =>
    cases hqueue : walk.queue with
    | nil =>
      refine ⟨.ok ⟨walk.dependencies, .success (walk.page root)⟩, [], world, ?_, once_nil taken,
        by simp, fun view _ hwalked ↦ hwalked.ends hcourse hqueue⟩
      rw [walkOn_nil _ _ _ _ _ _ hqueue, walkOn_nil _ _ _ _ _ _ hqueue]
      exact logs_pure world _
    | cons path queue =>
      rw [walkOn_cons _ _ _ _ _ _ hqueue, walkOn_cons _ _ _ _ _ _ hqueue]
      obtain ⟨result, requests, between, htake, hcalm, hstep⟩ :=
        logs_take h hcalm retry components root hcourse hqueue
      cases hstep with
      | failed hcompletes => exact ⟨_, _, between, htake.bind_error _ _, hcompletes⟩
      | @ended projection _ hcompletes =>
        refine ⟨.ok projection, requests, between, ?_, hcompletes⟩
        rw [← List.append_nil requests]
        exact htake.bind (logs_pure between projection)
      | onward hnext hrest =>
        obtain ⟨outcome, more, next, hlogs, hcompletes⟩ :=
          ih hcalm hnext (by rw [List.length_append, List.length_singleton]; omega)
        exact ⟨outcome, _, next, htake.bind hlogs, hrest outcome more hcompletes⟩

/-! ## Projections -/

theorem course_start {spelling root : String} (h : Path.normalize spelling = .ok root) :
    Course served [] (.start root) where
  split := rfl
  known := ⟨[root], rfl, fun path hpath ↦ ⟨spelling, List.mem_singleton.mp hpath ▸ h⟩⟩
  served := by simp

theorem walked_start : Walked view make root [] (.start root) where
  order := breadthFirst_nil
  known := rfl
  passes := by simp
  generated := rfl
  markup := rfl

/-- On a site that serves finitely many files, projecting a page comes to its end. No file is read
with success or made into a script twice, and the end is the one that the files demand, whatever
the files that were not read may hold. -/
theorem project_exact (h : site.Steady calm served generator) (hcalm : calm world)
    (hserved : served.length ≤ site.fileBound world) (retry : RetrySettings) (spelling : String)
    (components : List ComponentMetadata) :
    ∃ outcome requests next,
      Logs (site.project retry spelling components)
        (site.recorded.project retry spelling components) world outcome requests next ∧
      (requests.filterMap Request.fetched?).Nodup ∧ (requests.filterMap Request.made?).Nodup ∧
      (∀ limit, outcome ≠ .error (.tooManyFiles limit)) ∧
      (∀ cause, Path.normalize spelling = .error cause →
        outcome = .error (.file spelling cause) ∧ requests = []) ∧
      ∀ root view, Path.normalize spelling = .ok root → Shows retry requests view →
        Exact view (fun path text ↦ generator path text components) root outcome := by
  unfold Site.project
  cases hroot : Path.normalize spelling with
  | error cause =>
    refine ⟨_, [], world, logs_throw world _, List.nodup_nil, List.nodup_nil, by simp, ?_, ?_⟩
    · rintro _ ⟨rfl⟩
      exact ⟨rfl, rfl⟩
    · rintro root _ ⟨⟩
  | ok root =>
    have hcourse : Course served [] (.start root) := course_start hroot
    obtain ⟨outcome, requests, next, hlogs, hcompletes⟩ :=
      logs_walkOn h hcalm retry components root (site.fileBound world) hcourse
        (Nat.lt_succ_of_le hserved)
    refine ⟨outcome, requests, next, ⟨hlogs.plain, hlogs.logged⟩, hcompletes.once.fetched,
      hcompletes.once.made, hcompletes.enough, ?_, ?_⟩
    · rintro _ ⟨⟩
    · rintro _ view ⟨rfl⟩ hshows
      exact (hcompletes.ends view hshows walked_start).exact

end

/-! ## A site with a ring of references -/

/-- Three files refer to each other and to themselves, in different spellings. -/
def ringFiles : List (String × GeneratedFile) :=
  [("/home", ⟨"home", true, ["menu", "~/parts/../menu", " /home "], []⟩),
    ("/menu", ⟨"menu", false, ["\\home", "parts/./end"], []⟩),
    ("/parts/end", ⟨"end", false, ["../menu", "end"], []⟩)]

def ringScript (path _text : String) (_components : List ComponentMetadata) : GeneratedFile :=
  (ringFiles.lookup path).getD default

/-- Every file holds a blank and a letter, and the second of all reads fails. -/
def ring : Site Nat where
  read path := fun reads ↦
    (if reads = 1 then .error (.io path "busy")
      else if (ringFiles.lookup path).isSome then .ok [32, 120]
      else .error (.notFound path), reads + 1)
  cancelled := fun reads ↦ (false, reads)
  pause _ := pure ()
  generate path text components := pure (ringScript path text components)
  fileBound _ := ringFiles.length

theorem steady_ring : ring.Steady (fun _ ↦ True) (ringFiles.map Prod.fst) ringScript where
  cancelled world _ := ⟨world, rfl, trivial⟩
  pause world _ _ := ⟨world, rfl, trivial⟩
  read world path _ := by
    refine ⟨_, _, rfl, trivial, fun spelling bytes _ hanswer ↦ ?_⟩
    split at hanswer
    · cases hanswer
    · split at hanswer
      · rename_i hsome
        obtain ⟨file, hfile⟩ := Option.isSome_iff_exists.mp hsome
        exact List.mem_map.mpr ⟨_, mem_of_lookup_eq_some hfile, rfl⟩
      · cases hanswer
  generate world _ _ _ _ := ⟨world, rfl, trivial⟩

def ringPage : Projection where
  dependencies := ["/home", "/menu", "/parts/end"]
  result := .success {
    path := "/home"
    className := "Page_home_2cc974af"
    generated := [⟨"/home.g.kps", "home"⟩, ⟨"/menu.g.kps", "menu"⟩, ⟨"/parts/end.g.kps", "end"⟩]
    markup := [⟨"/home", "x"⟩, ⟨"/menu", "x"⟩, ⟨"/parts/end", "x"⟩] }

theorem project_ring : ((ring.project {} "~\\home" []).run.run 0).1 = .ok ringPage := by
  decide +kernel

theorem project_exact_ring : ∃ requests next,
    Logs (ring.project {} "~\\home" []) (ring.recorded.project {} "~\\home" []) 0 (.ok ringPage)
      requests next ∧
    (requests.filterMap Request.fetched?).Nodup ∧ (requests.filterMap Request.made?).Nodup ∧
    Exact (seen {} requests) (fun path text ↦ ringScript path text []) "/home" (.ok ringPage) := by
  obtain ⟨outcome, requests, next, hlogs, hfetched, hmade, _, _, hexact⟩ :=
    project_exact steady_ring trivial (Nat.le_refl _) {} "~\\home" []
  obtain rfl : .ok ringPage = outcome := project_ring.symm.trans (congrArg Prod.fst hlogs.plain)
  exact ⟨requests, next, hlogs, hfetched, hmade,
    hexact "/home" _ (by decide +kernel) (shows_seen _ _)⟩

end PageScript.Projection
