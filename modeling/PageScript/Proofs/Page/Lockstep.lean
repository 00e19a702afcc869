import PageScript.Page.Compiler

/-!
# Sites in lockstep

Two sites whose worlds are related give the same answers to everything that is asked of both. Then
a request for a page comes to the same on either site, and the worlds are related afterwards. So the
worlds that a request passes through can be written down without any effect on it.
-/

namespace PageScript

variable {ω ω' α β ε κ : Type} {R : ω → ω' → Prop}

/-- From related worlds, two actions give the same value and lead to related worlds. -/
def Lockstep (R : ω → ω' → Prop) (action : StateM ω α) (other : StateM ω' α) : Prop :=
  ∀ world world', R world world' →
    (action.run world).1 = (other.run world').1 ∧ R (action.run world).2 (other.run world').2

/-! ## Actions -/

theorem lockstep_pure (value : α) : Lockstep R (pure value) (pure value) :=
  fun _ _ h ↦ ⟨rfl, h⟩

/-- The second action starts in the world that the first one leaves. -/
theorem run_bind (action : StateM ω α) (next : α → StateM ω β) (world : ω) :
    (action >>= next).run world = (next (action.run world).1).run (action.run world).2 := rfl

/-- Actions in a row keep in step if each does, whatever the first one answers. -/
theorem Lockstep.bind {action : StateM ω α} {other : StateM ω' α} {next : α → StateM ω β}
    {next' : α → StateM ω' β} (h : Lockstep R action other)
    (hnext : ∀ value, Lockstep R (next value) (next' value)) :
    Lockstep R (action >>= next) (other >>= next') := by
  intro world world' hworld
  obtain ⟨hvalue, hbetween⟩ := h world world' hworld
  rw [run_bind, run_bind, ← hvalue]
  exact hnext (action.run world).1 _ _ hbetween

/-- Either action may end in the same error, after which nothing is asked any more. -/
theorem Lockstep.bind_except {action : ExceptT ε (StateM ω) α} {other : ExceptT ε (StateM ω') α}
    {next : α → ExceptT ε (StateM ω) β} {next' : α → ExceptT ε (StateM ω') β}
    (h : Lockstep R action.run other.run)
    (hnext : ∀ value, Lockstep R (next value).run (next' value).run) :
    Lockstep R (action >>= next).run (other >>= next').run := by
  rw [ExceptT.run_bind, ExceptT.run_bind]
  apply h.bind
  intro outcome
  cases outcome with
  | ok value => exact hnext value
  | error error => exact lockstep_pure _

theorem lockstep_lift {action : StateM ω α} {other : StateM ω' α} (h : Lockstep R action other) :
    Lockstep R (liftM action : ExceptT ε (StateM ω) α).run
      (liftM other : ExceptT ε (StateM ω') α).run :=
  h.bind fun value ↦ lockstep_pure (Except.ok value)

theorem lockstep_except (outcome : Except ε α) :
    Lockstep R (liftM outcome : ExceptT ε (StateM ω) α).run
      (liftM outcome : ExceptT ε (StateM ω') α).run := lockstep_pure outcome

/-- Looking at the world is harmless if what is done with it keeps in step. -/
theorem lockstep_get {next : ω → ExceptT ε (StateM ω) β} {next' : ω' → ExceptT ε (StateM ω') β}
    (h : ∀ world world', R world world' → Lockstep R (next world).run (next' world').run) :
    Lockstep R (get >>= next).run (get >>= next').run :=
  fun world world' hworld ↦ h world world' hworld world world' hworld

/-- A check stops both sides or neither. -/
theorem lockstep_stopIfCancelled {check : CancelCheck ω} {check' : CancelCheck ω'}
    (h : Lockstep R check check') (error : ε) :
    Lockstep R (stopIfCancelled check error).run (stopIfCancelled check' error).run := by
  apply (lockstep_lift h).bind_except
  intro cancelled
  cases cancelled with
  | true => exact lockstep_pure _
  | false => exact lockstep_pure _

/-- A compilation touches the world by its checks only. -/
theorem lockstep_compile {check : CancelCheck ω} {check' : CancelCheck ω'}
    (h : Lockstep R check check') (input : CompileInput) :
    Lockstep R (compile check input).run (compile check' input).run := by
  have hcheck := lockstep_stopIfCancelled h CompileError.cancelled
  apply hcheck.bind_except
  intro _
  apply (lockstep_except _).bind_except
  intro units
  apply hcheck.bind_except
  intro _
  apply (lockstep_except _).bind_except
  intro module
  apply hcheck.bind_except
  intro _
  exact lockstep_pure _

theorem GeneratedPage.lockstep_compile {check : CancelCheck ω} {check' : CancelCheck ω'}
    (h : Lockstep R check check') (page : GeneratedPage) (settings : CompilerSettings)
    (references : References) :
    Lockstep R (page.compile check settings references).run
      (page.compile check' settings references).run :=
  (PageScript.lockstep_compile h _).bind_except fun _ ↦ lockstep_pure _

/-! ## Sites -/

namespace Site

/-- The same answers from related worlds to everything that can be asked. -/
structure InLockstep (R : ω → ω' → Prop) (site : Site ω) (other : Site ω') : Prop where
  read : ∀ path, Lockstep R (site.read path) (other.read path)
  cancelled : Lockstep R site.cancelled other.cancelled
  pause : ∀ duration, Lockstep R (site.pause duration) (other.pause duration)
  generate : ∀ path text components,
    Lockstep R (site.generate path text components) (other.generate path text components)
  fileBound : ∀ world world', R world world' → site.fileBound world = other.fileBound world'

namespace InLockstep

variable {site : Site ω} {other : Site ω'}

theorem check (h : InLockstep R site other) : Lockstep R site.check.run other.check.run :=
  lockstep_stopIfCancelled h.cancelled _

theorem sleep (h : InLockstep R site other) (duration : Nat) :
    Lockstep R (site.sleep duration).run (other.sleep duration).run :=
  (lockstep_lift (h.pause duration)).bind_except fun _ ↦ h.check

/-- What follows an attempt to read a file. -/
theorem answered {again : Action ω String} {again' : Action ω' String}
    (hagain : Lockstep R again.run again'.run) (path : String) (answer : Except FileError Bytes) :
    Lockstep R
      (match answer with
        | .ok bytes => (liftM (decode path bytes) : Action ω String)
        | .error cause =>
          if cause.isTransient then again else throw (PageError.file path cause)).run
      (match answer with
        | .ok bytes => (liftM (decode path bytes) : Action ω' String)
        | .error cause =>
          if cause.isTransient then again' else throw (PageError.file path cause)).run := by
  cases answer with
  | ok bytes => exact lockstep_except _
  | error cause =>
    cases htransient : cause.isTransient with
    | true =>
      simp only [htransient, if_true]
      exact hagain
    | false =>
      simp only [htransient]
      exact lockstep_pure _

/-- Attempts end on both sides at the same time, since they are given the same answers. -/
theorem readWithin (h : InLockstep R site other) (path : String) (backoff attempts more : Nat) :
    Lockstep R (site.readWithin path backoff attempts more).run
      (other.readWithin path backoff attempts more).run := by
  induction more with
  | zero =>
    apply h.check.bind_except
    intro _
    apply (lockstep_lift (h.read path)).bind_except
    intro answer
    cases answer with
    | ok bytes => exact lockstep_except _
    | error cause => exact answered (lockstep_pure _) path (.error cause)
  | succ more ih =>
    apply h.check.bind_except
    intro _
    apply (lockstep_lift (h.read path)).bind_except
    exact answered ((h.sleep backoff).bind_except fun _ ↦ ih) path

theorem readMarkup (h : InLockstep R site other) (retry : RetrySettings) (path : String) :
    Lockstep R (site.readMarkup retry path).run (other.readMarkup retry path).run :=
  (h.readWithin path _ _ _).bind_except fun _ ↦ lockstep_pure _

/-- A walk takes the same files on both sides. -/
theorem walkOn (h : InLockstep R site other) (retry : RetrySettings)
    (components : List ComponentMetadata) (root : String) (limit budget : Nat)
    (walk : Projection.Walk) :
    Lockstep R (Projection.walkOn site retry components root limit budget walk).run
      (Projection.walkOn other retry components root limit budget walk).run := by
  induction budget generalizing walk with
  | zero =>
    unfold Projection.walkOn
    cases walk.queue with
    | nil => exact lockstep_pure _
    | cons path queue => exact lockstep_pure _
  | succ budget ih =>
    unfold Projection.walkOn
    cases walk.queue with
    | nil => exact lockstep_pure _
    | cons path queue =>
      apply (h.readMarkup retry path).bind_except
      intro content
      apply (lockstep_lift (h.generate path content components)).bind_except
      intro file
      apply (lockstep_except _).bind_except
      intro visited
      cases visited with
      | inl projection => exact lockstep_pure _
      | inr walk => exact ih walk

/-- The bound on the number of files is the same on both sides, so a projection ends in the same
way. -/
theorem project (h : InLockstep R site other) (retry : RetrySettings) (root : String)
    (components : List ComponentMetadata) :
    Lockstep R (site.project retry root components).run
      (other.project retry root components).run := by
  unfold Site.project
  cases Path.normalize root with
  | error cause => exact lockstep_pure _
  | ok root =>
    apply lockstep_get
    intro world world' hworld
    rw [h.fileBound world world' hworld]
    exact h.walkOn retry components root _ _ _

end InLockstep

end Site

/-! ## Requests -/

variable {site : Site ω} {other : Site ω'}

theorem Draft.lockstep_ofPage (h : site.InLockstep R other) (settings : PageSettings)
    (snapshot : Snapshot) (path : String) :
    Lockstep R (Draft.ofPage site settings snapshot path).run
      (Draft.ofPage other settings snapshot path).run := by
  apply (h.project settings.retry path snapshot.components).bind_except
  intro projection
  cases projection.result with
  | fatal message => exact lockstep_pure _
  | diagnostics list => exact lockstep_pure _
  | success page =>
    have hcompile := page.lockstep_compile h.cancelled settings.compiler snapshot.references
    apply (lockstep_lift hcompile).bind_except
    intro outcome
    cases outcome with
    | error error =>
      cases error with
      | cancelled => exact lockstep_pure _
      | diagnostics list => exact lockstep_pure _
    | ok artifact => exact h.check.bind_except fun _ ↦ lockstep_pure _

theorem Session.lockstep_produce (h : site.InLockstep R other) (settings : PageSettings)
    (session : Session κ) (path : String) :
    Lockstep R (session.produce site settings path) (session.produce other settings path) := by
  apply (Draft.lockstep_ofPage h settings _ path).bind
  intro outcome
  cases outcome with
  | error error => exact lockstep_pure _
  | ok draft => exact lockstep_pure _

/-- A request comes to the same on sites in lockstep. -/
theorem Session.lockstep_compile (h : site.InLockstep R other) (settings : PageSettings)
    (session : Session κ) (path : String) :
    Lockstep R (session.compile site settings path) (session.compile other settings path) := by
  apply h.cancelled.bind
  intro cancelled
  cases cancelled with
  | true => exact lockstep_pure _
  | false =>
    simp only [Bool.false_eq_true, if_false]
    split
    · exact lockstep_pure _
    · split
      · exact lockstep_pure _
      · apply h.cancelled.bind
        intro cancelled
        cases cancelled with
        | true => exact lockstep_pure _
        | false => exact lockstep_pure _
      · exact (lockstep_produce h settings _ _).bind fun _ ↦ lockstep_pure _

/-! ## Traces -/

/-- A world with a trace stands for the world alone. If `raised` has held in the trace, it holds. -/
def Follows (raised : ω → Prop) (noted : ω × List ω) (world : ω) : Prop :=
  noted.1 = world ∧ ∀ earlier ∈ noted.2, raised earlier → raised world

namespace Site

end Site

end PageScript
