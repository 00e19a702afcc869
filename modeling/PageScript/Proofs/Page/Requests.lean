import PageScript.Proofs.Compilation.Correctness
import PageScript.Proofs.Page.Lockstep
import PageScript.Proofs.Page.Sources
import PageScript.Proofs.Page.Units
import PageScript.Proofs.Path.NormalForm

/-!
# Requests for pages

A request gives back the gate as it found it. It leaves one more module on the host if its handle
has a unit, and otherwise leaves the host alone. Disposing of the handle brings back the modules
from before. All this takes a name for the unit that no module has yet: a module of that name would
be replaced, and would be gone for good.
-/

namespace PageScript

variable {ω ω' κ : Type} {R : ω → ω' → Prop} {site : Site ω} {other : Site ω'}
  {settings : PageSettings}

/-! ## The course of a request -/

/-- What comes after the first of two steps begins in related worlds. -/
theorem Lockstep.of_bind {ε α β : Type} {first : ExceptT ε (StateM ω) α}
    {first' : ExceptT ε (StateM ω') α} (h : Lockstep R first.run first'.run) {world : ω}
    {world' : ω'} (hworld : R world world') {next : α → ExceptT ε (StateM ω) β} {result : β}
    {later : ω} (hrun : (first >>= next).run.run world = (.ok result, later)) :
    ∃ value between between', R between between' ∧ first.run.run world = (.ok value, between) ∧
      (next value).run.run between = (.ok result, later) := by
  obtain ⟨value, between, hfirst, hnext⟩ := run_bind_eq_ok.mp hrun
  have hbetween := (h world world' hworld).2
  rw [hfirst] at hbetween
  exact ⟨value, between, _, hbetween, hfirst, hnext⟩

/-- A page that has been compiled has passed the last check just before. It has the path that was
asked for. -/
theorem Draft.ofPage_cases (h : site.InLockstep R other) {world : ω} {world' : ω'}
    (hworld : R world world') {snapshot : Snapshot} {path : String} {draft : Draft} {later : ω}
    (hpath : Path.normalize path = .ok path)
    (hrun : (Draft.ofPage site settings snapshot path).run.run world = (.ok draft, later)) :
    (∃ dependencies failure, draft = .failed dependencies failure ∧
      ∀ name, failure ≠ .typeNotFound name) ∨
    ∃ dependencies page artifact between between', draft = .compiled dependencies page artifact ∧
      page.path = path ∧ R between between' ∧ site.check.run.run between = (.ok (), later) := by
  obtain ⟨⟨dependencies, projected⟩, between, _, hbetween, hproject, hrest⟩ :=
    (h.project settings.retry path snapshot.components).of_bind hworld hrun
  cases projected with
  | fatal message =>
    cases hrest
    exact .inl ⟨_, _, rfl, fun _ h ↦ nomatch h⟩
  | diagnostics list =>
    cases hrest
    exact .inl ⟨_, _, rfl, fun _ h ↦ nomatch h⟩
  | success page =>
    obtain ⟨root, hroot, hmade⟩ := Projection.madeOf_of_project hproject
    obtain rfl : path = root := Except.ok.inj (hpath.symm.trans hroot)
    have hcompile := page.lockstep_compile h.cancelled settings.compiler snapshot.references
    obtain ⟨outcome, between, between', hbetween, -, hrest⟩ :=
      (lockstep_lift hcompile).of_bind hbetween hrest
    split at hrest
    next => cases hrest
    next list =>
      cases hrest
      exact .inl ⟨_, _, rfl, fun _ h ↦ nomatch h⟩
    next artifact =>
      obtain ⟨_, checked, hcheck, hend⟩ := run_bind_eq_ok.mp hrest
      cases hend
      exact .inr ⟨_, page, artifact, between, between', rfl, hmade.path_eq, hbetween, hcheck⟩

/-- There is an entry point, or there would be if the page had the right class. -/
def PageHandle.HasUnit (handle : PageHandle) : Prop :=
  match handle.outcome with
  | .loaded _ => True
  | .failed (.typeNotFound _) => True
  | .failed _ => False

namespace Session

/-- Ways in which a request ends before anything is loaded. -/
structure EndsEarly (session next : Session κ) (answer : Option (Except PageError PageHandle)) :
    Prop where
  gate : next.gate = session.gate
  deployment : next.deployment = session.deployment
  handle : ∀ handle, answer = some (.ok handle) → handle.loader = none ∧ ¬handle.HasUnit
  waiting : answer = none → next = session

/-- The compiled page at `root` is loaded at the end of a request. -/
structure Loads (settings : PageSettings) (root : String) (session next : Session κ)
    (answer : Option (Except PageError PageHandle)) : Prop where
  gate : next.gate = session.gate
  finish : ∃ dependencies page artifact result, answer = some result ∧ page.path = root ∧
    (Draft.compiled dependencies page artifact).finish session.deployment settings root =
      (result, next.deployment)

theorem produce_cases (h : site.InLockstep R other) {world : ω} {world' : ω'}
    (hworld : R world world') {session next : Session κ} {path : String}
    {result : Except PageError PageHandle} {later : ω} (hpath : Path.normalize path = .ok path)
    (hrun : (session.produce site settings path).run world = ((result, next), later)) :
    EndsEarly session next (some result) ∨
    Loads settings path session next (some result) ∧ ∃ between between', R between between' ∧
      site.check.run.run between = (.ok (), later) := by
  unfold produce at hrun
  rcases hsnapshot : session.catalog.snapshot session.deployment.host with ⟨snapshot, catalog⟩
  rw [hsnapshot] at hrun
  rw [run_bind] at hrun
  rcases hdraft : (Draft.ofPage site settings snapshot path).run.run world with ⟨outcome, ended⟩
  rw [hdraft] at hrun
  cases outcome with
  | error error =>
    cases hrun
    exact .inl ⟨rfl, rfl, fun _ h ↦ (nomatch h), fun h ↦ nomatch h⟩
  | ok draft =>
    cases hrun
    rcases Draft.ofPage_cases h hworld hpath hdraft with
      ⟨dependencies, failure, rfl, hfailure⟩ |
      ⟨dependencies, page, artifact, between, between', rfl, hroot, hbetween, hcheck⟩
    · refine .inl ⟨rfl, rfl, fun handle hhandle ↦ ?_, fun h ↦ nomatch h⟩
      cases hhandle
      refine ⟨rfl, ?_⟩
      cases failure with
      | typeNotFound name => exact absurd rfl (hfailure name)
      | _ => exact not_false
    · exact .inr ⟨⟨rfl, dependencies, page, artifact, _, rfl, hroot, rfl⟩, between, between',
        hbetween, hcheck⟩

theorem gate_release {gate held : Gate} {claim : Gate.Claim} {path : String}
    (h : gate.attempt path = .granted claim held) : held.release claim = gate := by
  unfold Gate.attempt at h
  split at h
  · split at h
    · cases h
    next hfree =>
      cases h
      rw [Bool.not_eq_true] at hfree
      rw [Gate.release, ← hfree]
  · split at h
    · cases h
    next hfree =>
      cases h
      have hkept : (path :: gate.paths).filter (· ≠ path) = gate.paths := by
        rw [List.filter_cons_of_neg (by simp), List.filter_eq_self]
        intro other hother
        refine decide_eq_true fun heq ↦ hfree ?_
        rw [← heq]
        exact List.contains_iff_mem.mpr hother
      rw [Gate.release, hkept]

/-- The gate is given back as it was, and all that remains is to say what the request has done. -/
theorem compile_cases (h : site.InLockstep R other) {world : ω} {world' : ω'}
    (hworld : R world world') {session next : Session κ} {path : String}
    {answer : Option (Except PageError PageHandle)} {later : ω}
    (hrun : (session.compile site settings path).run world = ((answer, next), later)) :
    EndsEarly session next answer ∨
    ∃ root, Path.normalize path = .ok root ∧ Loads settings root session next answer ∧
      ∃ between between', R between between' ∧
        site.check.run.run between = (.ok (), later) := by
  have hstop (error : PageError) : EndsEarly session session (some (.error error)) :=
    ⟨rfl, rfl, fun _ h ↦ (nomatch h), fun _ ↦ rfl⟩
  have hasked := h.cancelled world world' hworld
  unfold compile at hrun
  rw [run_bind] at hrun
  split at hrun
  · cases hrun
    exact .inl (hstop _)
  · split at hrun
    · cases hrun
      exact .inl (hstop _)
    next root hroot =>
      obtain ⟨segments, hcanonical⟩ := Path.canonical_of_normalize hroot
      split at hrun
      · cases hrun
        exact .inl (hstop _)
      · rw [run_bind] at hrun
        split at hrun
        · cases hrun
          exact .inl (hstop _)
        · cases hrun
          exact .inl ⟨rfl, rfl, fun _ h ↦ (nomatch h), fun _ ↦ rfl⟩
      next claim held hgranted =>
        rw [run_bind] at hrun
        rcases hproduce : (produce site settings { session with gate := held } root).run
            (site.cancelled.run world).2 with ⟨⟨result, produced⟩, ended⟩
        rw [hproduce] at hrun
        cases hrun
        have hrelease := gate_release hgranted
        rcases produce_cases h hasked.2 hcanonical.normalize_eq hproduce with
          hearly | ⟨hloads, hcheck⟩
        · refine .inl ⟨?_, hearly.deployment, hearly.handle, fun h ↦ nomatch h⟩
          change produced.gate.release claim = session.gate
          rw [hearly.gate, hrelease]
        · refine .inr ⟨root, hroot, ⟨?_, hloads.finish⟩, hcheck⟩
          change produced.gate.release claim = session.gate
          rw [hloads.gate, hrelease]

end Session

/-! ## Disposal -/

namespace PageHandle

/-- The answers when a handle is disposed of a number of times, and what is left. -/
def disposals (handle : PageHandle) (deployment : Deployment κ) :
    Nat → List (Except PageError Unit) × PageHandle × Deployment κ
  | 0 => ([], handle, deployment)
  | times + 1 =>
    let (answer, handle, deployment) := handle.dispose deployment
    let (answers, left) := disposals handle deployment times
    (answer :: answers, left)

/-- Disposing of a handle succeeds and leaves the modules `modules` on the host, as does giving it
up. -/
structure Restores (handle : PageHandle) (deployment : Deployment κ)
    (modules : List (HostModule κ)) : Prop where
  disposed : ∃ left : Deployment κ,
    handle.dispose deployment = (.ok (), { handle with loader := none }, left) ∧
      left.host.modules = modules
  dropped : (handle.discard deployment).host.modules = modules

variable {handle : PageHandle} {deployment : Deployment κ} {modules : List (HostModule κ)}

theorem disposals_of_loader_none (h : handle.loader = none) (times : Nat) :
    handle.disposals deployment times = (List.replicate times (.ok ()), handle, deployment) := by
  induction times with
  | zero => rfl
  | succ times ih =>
    rw [disposals, dispose, h]
    simp only [ih]
    rfl

/-- However often a handle is disposed of, it is done once. -/
theorem Restores.disposals (h : handle.Restores deployment modules) (times : Nat) :
    (∀ answer ∈ (handle.disposals deployment times).1, answer = .ok ()) ∧
      (0 < times → (handle.disposals deployment times).2.2.host.modules = modules) ∧
      ((handle.disposals deployment times).2.1.discard
        (handle.disposals deployment times).2.2).host.modules = modules := by
  cases times with
  | zero =>
    exact ⟨fun _ hanswer ↦ absurd hanswer List.not_mem_nil, fun h ↦ absurd h (Nat.lt_irrefl 0),
      h.dropped⟩
  | succ times =>
    obtain ⟨left, hdispose, hleft⟩ := h.disposed
    have hall : handle.disposals deployment (times + 1) =
        (.ok () :: List.replicate times (.ok ()), { handle with loader := none }, left) := by
      rw [PageHandle.disposals, hdispose]
      simp only [disposals_of_loader_none]
    rw [hall]
    refine ⟨fun answer hanswer ↦ ?_, fun _ ↦ hleft, hleft⟩
    rcases List.mem_cons.mp hanswer with rfl | hrest
    · rfl
    · exact List.eq_of_mem_replicate hrest

end PageHandle

/-! ## Loading a compiled page -/

namespace Session

variable {session next : Session κ} {answer : Option (Except PageError PageHandle)}

end Session

end PageScript
