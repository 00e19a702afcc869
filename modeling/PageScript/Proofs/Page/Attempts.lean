import PageScript.Proofs.Page.Lockstep
import PageScript.Proofs.Page.Recording

/-!
# Attempts to read a file

A file is asked for until a call settles the matter: one that succeeds, that fails for good, that is
the last one allowed, or after which the request is cancelled. Which of these it is decides what
reading the file comes to. A success counts even if the request is cancelled meanwhile, and so does
a failure for good or on the last attempt.
-/

namespace PageScript

namespace Site

/-- What happens while a file is read. Calls of the provider are numbered from one. -/
structure Attempts where
  answer : Nat → Except FileError Bytes
  /-- Whether the request was cancelled beforehand. -/
  cancelledFirst : Bool
  /-- Whether the request is cancelled during a call. -/
  cancelledDuring : Nat → Bool
  /-- Whether the request is cancelled in the pause behind a call. -/
  cancelledBehind : Nat → Bool

namespace Attempts

/-- The calls so far, by the paths asked for, and whether the request has been cancelled. -/
structure Stage where
  calls : List String
  cancelled : Bool

def start (attempts : Attempts) : Stage := ⟨[], attempts.cancelledFirst⟩

/-- The site on which all this happens. Nothing takes a cancellation back. -/
def site (attempts : Attempts) : Site Stage where
  read path := fun stage ↦
    let call := stage.calls.length + 1
    (attempts.answer call,
      ⟨stage.calls ++ [path], stage.cancelled || attempts.cancelledDuring call⟩)
  cancelled := fun stage ↦ (stage.cancelled, stage)
  pause _ := fun stage ↦
    ((), { stage with
      cancelled := stage.cancelled || attempts.cancelledBehind stage.calls.length })
  generate _ _ _ := pure default
  fileBound _ := 1

variable (attempts : Attempts) (limit call : Nat)

/-- The request is cancelled at the latest in the pause behind a call. -/
def CancelledBy : Prop :=
  attempts.cancelledFirst = true ∨ ∃ earlier, 1 ≤ earlier ∧ earlier ≤ call ∧
    (attempts.cancelledDuring earlier = true ∨ attempts.cancelledBehind earlier = true)

/-- After this call the file is not asked for again, if `limit` calls are allowed. -/
inductive Stops : Prop
  | answered {bytes : Bytes} (h : attempts.answer call = .ok bytes)
  | refused {cause : FileError} (h : attempts.answer call = .error cause)
      (hcause : cause.isTransient = false)
  | last (h : call = limit)
  | cancelled (h : attempts.CancelledBy call)

/-- What reading a file comes to if this call is the last one made. -/
inductive Settles (path : String) : Except PageError String → Prop
  | text {text : String} (h : attempts.answer call = .ok (Text.Utf8.encode text)) :
      Settles path (.ok text)
  | encoding {bytes : Bytes} (h : attempts.answer call = .ok bytes)
      (hbytes : ∀ text, Text.Utf8.encode text ≠ bytes) :
      Settles path (.error (.invalidEncoding path))
  | file {cause : FileError} (h : attempts.answer call = .error cause)
      (hcause : cause.isTransient = false) : Settles path (.error (.file path cause))
  | unavailable {cause : FileError} (h : attempts.answer call = .error cause)
      (hcause : cause.isTransient = true) (hlast : call = limit) :
      Settles path (.error (.fileUnavailable path limit cause))
  | cancelled {cause : FileError} (h : attempts.answer call = .error cause)
      (hcause : cause.isTransient = true) (hlast : call ≠ limit) :
      Settles path (.error .cancelled)

/-- Reading the file ends with this call, the first one that stops it. -/
structure EndsWith (path : String) (result : Except PageError String × Stage) : Prop where
  pos : 1 ≤ call
  le : call ≤ limit
  stops : attempts.Stops limit call
  first : ∀ earlier, 1 ≤ earlier → earlier < call → ¬attempts.Stops limit earlier
  settles : attempts.Settles limit call path result.1
  calls : result.2.calls = List.replicate call path

/-- The file has been asked for so many times, and the pause behind the last call is over. -/
structure Behind (path : String) (stage : Stage) : Prop where
  calls : stage.calls = List.replicate call path
  cancelled : stage.cancelled = true ↔ attempts.CancelledBy call

variable {attempts limit call}

/-! ## Cancellation -/

theorem cancelledBy_zero : attempts.CancelledBy 0 ↔ attempts.cancelledFirst = true := by
  constructor
  · intro h
    obtain h | ⟨earlier, hfirst, hlast, _⟩ := h
    · exact h
    · omega
  · exact .inl

/-- A token that is cancelled stays so. -/
theorem cancelledBy_succ : attempts.CancelledBy (call + 1) ↔ attempts.CancelledBy call ∨
    attempts.cancelledDuring (call + 1) = true ∨ attempts.cancelledBehind (call + 1) = true := by
  constructor
  · intro h
    obtain h | ⟨earlier, hfirst, hlast, hcancelled⟩ := h
    · exact .inl (.inl h)
    · obtain hlt | rfl := Nat.lt_or_eq_of_le hlast
      · exact .inl (.inr ⟨earlier, hfirst, Nat.le_of_lt_succ hlt, hcancelled⟩)
      · exact .inr hcancelled
  · intro h
    obtain (h | ⟨earlier, hfirst, hlast, hcancelled⟩) | hcancelled := h
    · exact .inl h
    · exact .inr ⟨earlier, hfirst, Nat.le_succ_of_le hlast, hcancelled⟩
    · exact .inr ⟨call + 1, Nat.le_add_left 1 call, Nat.le_refl _, hcancelled⟩

theorem behind_start (path : String) : attempts.Behind 0 path attempts.start :=
  ⟨rfl, cancelledBy_zero.symm⟩

/-! ## One call -/

variable {path : String} {stage : Stage}

/-- The stage behind one more call. -/
def asked (attempts : Attempts) (path : String) (stage : Stage) : Stage :=
  ((attempts.site.read path).run stage).2

/-- The stage behind one more call and the pause behind it. -/
def rested (attempts : Attempts) (path : String) (stage : Stage) : Stage :=
  ((attempts.site.pause 0).run (attempts.asked path stage)).2

/-- Every call asks for the same file. -/
theorem Behind.calls_asked (h : attempts.Behind call path stage) :
    (attempts.asked path stage).calls = List.replicate (call + 1) path := by
  rw [List.replicate_succ', ← h.calls]
  rfl

theorem Behind.length_calls (h : attempts.Behind call path stage) : stage.calls.length = call := by
  rw [h.calls, List.length_replicate]

theorem cancelled_rested : (attempts.rested path stage).cancelled = (stage.cancelled ||
    attempts.cancelledDuring (stage.calls.length + 1) ||
      attempts.cancelledBehind (stage.calls.length + 1)) := by
  change (stage.cancelled || attempts.cancelledDuring (stage.calls.length + 1) ||
    attempts.cancelledBehind (stage.calls ++ [path]).length) = _
  rw [List.length_append, List.length_singleton]

theorem Behind.rested (h : attempts.Behind call path stage) :
    attempts.Behind (call + 1) path (attempts.rested path stage) where
  calls := h.calls_asked
  cancelled := by
    rw [cancelled_rested, cancelledBy_succ, h.length_calls, Bool.or_eq_true, Bool.or_eq_true,
      h.cancelled, or_assoc]

/-! ## The loop -/

variable {backoff more : Nat}

theorem run_check (stage : Stage) : attempts.site.check.run.run stage =
    (if stage.cancelled then .error .cancelled else .ok (), stage) := by
  rcases stage with ⟨calls, cancelled⟩
  cases cancelled with
  | true => rfl
  | false => rfl

/-- What comes behind a check is left out if the request has been cancelled. -/
theorem run_check_bind {α : Type} (next : Unit → Action Stage α) (stage : Stage) :
    (attempts.site.check >>= next).run.run stage =
      if stage.cancelled then (.error .cancelled, stage) else (next ()).run.run stage := by
  rw [ExceptT.run_bind, StateT.run_bind, run_check]
  cases stage.cancelled with
  | true => rfl
  | false => rfl

/-- Once the token is cancelled, no more calls are made. -/
theorem run_of_cancelled (h : stage.cancelled = true) :
    (attempts.site.readWithin path backoff limit more).run.run stage =
      (.error .cancelled, stage) := by
  cases more
  all_goals rw [readWithin, run_check_bind, if_pos h]

/-- What comes behind a call goes on with its answer. -/
theorem run_read_bind (hbehind : attempts.Behind call path stage) {α : Type}
    (next : Except FileError Bytes → Action Stage α) :
    ((liftM (attempts.site.read path) : Action Stage _) >>= next).run.run stage =
      (next (attempts.answer (call + 1))).run.run (attempts.asked path stage) := by
  rw [← hbehind.length_calls]
  rfl

variable {cause : FileError}

/-- The call succeeds or fails for good. -/
def Final (attempts : Attempts) (call : Nat) : Prop :=
  ∀ cause, attempts.answer call = .error cause → cause.isTransient = false

/-- An answer is final, or it is a failure that may pass. -/
theorem final_or_transient (attempts : Attempts) (call : Nat) : attempts.Final call ∨
    ∃ cause, attempts.answer call = .error cause ∧ cause.isTransient = true := by
  by_cases h : attempts.Final call
  · exact .inl h
  · simp only [Final, not_forall, Bool.not_eq_false] at h
    obtain ⟨cause, hanswer, hcause⟩ := h
    exact .inr ⟨cause, hanswer, hcause⟩

/-- A success or a failure for good ends the attempts, however many are left. -/
theorem run_settled (hbehind : attempts.Behind call path stage) (h : stage.cancelled = false)
    (hanswer : attempts.Final (call + 1)) :
    (attempts.site.readWithin path backoff limit more).run.run stage =
      (settle limit path (attempts.answer (call + 1)), attempts.asked path stage) := by
  have hgo : ¬stage.cancelled = true := Bool.eq_false_iff.mp h
  cases more
  all_goals
    rw [readWithin, run_check_bind, if_neg hgo, run_read_bind hbehind]
    cases hcall : attempts.answer (call + 1) with
    | ok bytes => rfl
    | error cause =>
      simp only [settle, hanswer cause hcall]
      rfl

/-- After the last attempt, a failure that may pass is reported with the number of attempts. -/
theorem run_last (hbehind : attempts.Behind call path stage) (h : stage.cancelled = false)
    (hanswer : attempts.answer (call + 1) = .error cause) (hcause : cause.isTransient = true) :
    (attempts.site.readWithin path backoff limit 0).run.run stage =
      (.error (.fileUnavailable path limit cause), attempts.asked path stage) := by
  rw [readWithin, run_check_bind, if_neg (Bool.eq_false_iff.mp h), run_read_bind hbehind,
    hanswer]
  simp only [hcause, if_true]
  rfl

/-- A cancellation in the pause is noticed there, or else before the next call. -/
theorem run_again (hbehind : attempts.Behind call path stage) (h : stage.cancelled = false)
    (hanswer : attempts.answer (call + 1) = .error cause) (hcause : cause.isTransient = true) :
    (attempts.site.readWithin path backoff limit (more + 1)).run.run stage =
      (attempts.site.readWithin path backoff limit more).run.run (attempts.rested path stage) := by
  have hsleep (next : Unit → Action Stage String) :
      (attempts.site.sleep backoff >>= next).run.run (attempts.asked path stage) =
        (attempts.site.check >>= next).run.run (attempts.rested path stage) := by
    rw [sleep, bind_assoc]
    rfl
  rw [readWithin, run_check_bind, if_neg (Bool.eq_false_iff.mp h), run_read_bind hbehind,
    hanswer]
  simp only [hcause, if_true]
  rw [hsleep, run_check_bind]
  split
  · next hcancelled => rw [run_of_cancelled hcancelled]
  · rfl

/-- A call that succeeds or fails for good settles the matter by what it answers. -/
theorem settles_settle (hanswer : attempts.Final call) (path : String) :
    attempts.Settles limit call path (settle limit path (attempts.answer call)) := by
  cases hcall : attempts.answer call with
  | ok bytes =>
    cases hdecode : Text.Utf8.decode? bytes with
    | some text =>
      simp only [settle, decode, hdecode]
      apply Settles.text
      rw [Text.Utf8.decode?_eq_some_iff.mp hdecode, hcall]
    | none =>
      simp only [settle, decode, hdecode]
      apply Settles.encoding hcall
      intro text htext
      rw [Text.Utf8.decode?_eq_some_iff.mpr htext] at hdecode
      contradiction
  | error cause =>
    simp only [settle, hanswer cause hcall]
    exact .file hcall (hanswer cause hcall)

theorem Final.stops (hanswer : attempts.Final call) : attempts.Stops limit call := by
  cases hcall : attempts.answer call with
  | ok bytes => exact .answered hcall
  | error cause => exact .refused hcall (hanswer cause hcall)

theorem not_stops {cause : FileError} (hanswer : attempts.answer call = .error cause)
    (hcause : cause.isTransient = true) (hlast : call ≠ limit)
    (hcancelled : ¬attempts.CancelledBy call) : ¬attempts.Stops limit call := by
  intro h
  cases h with
  | answered hcall =>
    rw [hanswer] at hcall
    contradiction
  | refused hcall hfalse =>
    rw [hanswer, Except.error.injEq] at hcall
    rw [← hcall, hcause] at hfalse
    contradiction
  | last hcall => exact hlast hcall
  | cancelled hcall => exact hcancelled hcall

/-- No call up to this one stops the reading. -/
def GoesOn (attempts : Attempts) (limit call : Nat) : Prop :=
  ∀ earlier, 1 ≤ earlier → earlier ≤ call → ¬attempts.Stops limit earlier

theorem GoesOn.succ (h : attempts.GoesOn limit call) (hcall : ¬attempts.Stops limit (call + 1)) :
    attempts.GoesOn limit (call + 1) := by
  intro earlier hpos hle
  obtain hlt | rfl := Nat.lt_or_eq_of_le hle
  · exact h earlier hpos (Nat.le_of_lt_succ hlt)
  · exact hcall

/-- The first call that stops the loop settles the result. -/
theorem GoesOn.endsWith (h : attempts.GoesOn limit call) (hlimit : call < limit)
    (hstops : attempts.Stops limit (call + 1)) {result : Except PageError String × Stage}
    (hsettles : attempts.Settles limit (call + 1) path result.1)
    (hcalls : result.2.calls = List.replicate (call + 1) path) :
    attempts.EndsWith limit (call + 1) path result where
  pos := Nat.le_add_left 1 call
  le := hlimit
  stops := hstops
  first earlier hpos hlt := h earlier hpos (Nat.le_of_lt_succ hlt)
  settles := hsettles
  calls := hcalls

theorem endsWith_settled (h : attempts.GoesOn limit call) (hlimit : call < limit)
    (hbehind : attempts.Behind call path stage) (hgo : stage.cancelled = false)
    (hanswer : attempts.Final (call + 1)) (backoff more : Nat) :
    attempts.EndsWith limit (call + 1) path
      ((attempts.site.readWithin path backoff limit more).run.run stage) := by
  rw [run_settled hbehind hgo hanswer]
  exact h.endsWith hlimit hanswer.stops (settles_settle hanswer path) hbehind.calls_asked

/-- Reading a file goes on to the first call that stops it. The induction is on the attempts that
are left behind the next one, and none of the calls so far has stopped the reading. -/
theorem endsWith_readWithin (h : attempts.GoesOn limit call)
    (hbehind : attempts.Behind call path stage) (hgo : stage.cancelled = false)
    (hlimit : call + more + 1 = limit) (backoff : Nat) :
    ∃ last, attempts.EndsWith limit last path
      ((attempts.site.readWithin path backoff limit more).run.run stage) := by
  induction more generalizing call stage with
  | zero =>
    obtain hanswer | ⟨cause, hanswer, hcause⟩ := attempts.final_or_transient (call + 1)
    · exact ⟨_, endsWith_settled h (by omega) hbehind hgo hanswer backoff 0⟩
    · rw [run_last hbehind hgo hanswer hcause]
      exact ⟨_, h.endsWith (by omega) (.last hlimit) (.unavailable hanswer hcause hlimit)
        hbehind.calls_asked⟩
  | succ more ih =>
    obtain hanswer | ⟨cause, hanswer, hcause⟩ := attempts.final_or_transient (call + 1)
    · exact ⟨_, endsWith_settled h (by omega) hbehind hgo hanswer backoff (more + 1)⟩
    · have hrested := hbehind.rested
      have hlast : call + 1 ≠ limit := by omega
      rw [run_again hbehind hgo hanswer hcause]
      cases hcancelled : (attempts.rested path stage).cancelled with
      | true =>
        rw [run_of_cancelled hcancelled]
        exact ⟨_, h.endsWith (by omega) (.cancelled (hrested.cancelled.mp hcancelled))
          (.cancelled hanswer hcause hlast) hrested.calls⟩
      | false =>
        have hnot : ¬attempts.CancelledBy (call + 1) := by
          rw [← hrested.cancelled, hcancelled]
          exact Bool.false_ne_true
        exact ih (h.succ (not_stops hanswer hcause hlast hnot)) hrested hcancelled (by omega)

/-- Without a cancellation beforehand, a file is asked for until a call settles the matter, which
then decides the outcome; with one, it is never asked for. It is asked for no more than
`maxAttempts` times, or once if this is zero. -/
theorem readText_attempts (attempts : Attempts) (retry : RetrySettings) (path : String) :
    (attempts.cancelledFirst = true →
      (attempts.site.readText retry path).run.run attempts.start =
        (.error .cancelled, ⟨[], true⟩)) ∧
    (attempts.cancelledFirst = false → ∃ last, attempts.EndsWith (max 1 retry.maxAttempts) last path
      ((attempts.site.readText retry path).run.run attempts.start)) ∧
    ((attempts.site.readText retry path).run.run attempts.start).2.calls.length ≤
      max 1 retry.maxAttempts := by
  have hfirst : attempts.cancelledFirst = true →
      (attempts.site.readText retry path).run.run attempts.start =
        (.error .cancelled, ⟨[], true⟩) := by
    intro h
    have hstart : attempts.start = ⟨[], true⟩ := congrArg (Stage.mk []) h
    rw [readText, hstart]
    exact run_of_cancelled rfl
  have hends : attempts.cancelledFirst = false →
      ∃ last, attempts.EndsWith (max 1 retry.maxAttempts) last path
        ((attempts.site.readText retry path).run.run attempts.start) := by
    intro h
    have hnone : attempts.GoesOn (max 1 retry.maxAttempts) 0 := by
      intro earlier hpos hle
      omega
    exact endsWith_readWithin hnone (behind_start path) h (by omega) retry.backoff
  refine ⟨hfirst, hends, ?_⟩
  cases hcancelled : attempts.cancelledFirst with
  | true =>
    rw [hfirst hcancelled]
    exact Nat.zero_le _
  | false =>
    obtain ⟨last, hlast⟩ := hends hcancelled
    rw [hlast.calls, List.length_replicate]
    exact hlast.le

/-- A cancellation during the last attempt comes too late to be reported. -/
example :
    let busy : Attempts := ⟨fun _ ↦ .error (.io "/home" "busy"), false, (· = 2), fun _ ↦ false⟩
    (busy.site.readText ⟨2, 0⟩ "/home").run.run busy.start =
      (.error (.fileUnavailable "/home" 2 (.io "/home" "busy")), ⟨["/home", "/home"], true⟩) := rfl

end Attempts

end Site

end PageScript
