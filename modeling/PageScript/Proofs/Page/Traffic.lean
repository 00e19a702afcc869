import Mathlib.Data.List.Nodup
import PageScript.Cancellation
import PageScript.Page.Error
import PageScript.Page.Gate
import PageScript.Proofs.Table

/-!
# Traffic at a gate

Any number of callers ask for pages, wait, are cancelled and give up what they hold, in any order. A
look at the gate is one step and giving up a claim is one, so that nobody sees the gate in between.
At every time the gate has noted exactly the claims that are held, and a caller is let through
exactly if nobody holds what it asks for.
-/

namespace PageScript

/-! ## A look at the gate -/

namespace Gate

/-- What a gate has noted as held. -/
def claims (gate : Gate) : List Claim :=
  (if gate.isHeld then [.all] else []) ++ gate.paths.map .path

/-- A look of a caller at the gate: its answer, if it gets one, and the gate behind it. A caller
without an answer waits and looks again. -/
def look (gate : Gate) (path : String) (isCancelled : Bool) :
    Option (Except PageError Claim) × Gate :=
  match gate.attempt path with
  | .granted claim next => (some (.ok claim), next)
  | .refused => (some (.error .compilationInProgress), gate)
  | .wait => (if isCancelled then some (.error .cancelled) else none, gate)

/-- What a caller asks for. -/
def wanted (gate : Gate) (path : String) : Claim :=
  match gate.policy with
  | .exclusive => .all
  | .perPath => .path path

/-- What a caller is told that cannot have what it asks for. -/
def refusal (gate : Gate) (isCancelled : Bool) : Option (Except PageError Claim) :=
  match gate.policy with
  | .exclusive => some (.error .compilationInProgress)
  | .perPath => if isCancelled then some (.error .cancelled) else none

/-- The part of a gate that its policy has no use for is as in the beginning. -/
def Fitting (gate : Gate) : Prop :=
  match gate.policy with
  | .exclusive => gate.paths = []
  | .perPath => gate.isHeld = false

variable {gate : Gate} {path : String} {claim : Claim}

theorem wanted_of_exclusive (h : gate.policy = .exclusive) (path : String) :
    gate.wanted path = .all := by
  rw [wanted, h]

theorem wanted_of_perPath (h : gate.policy = .perPath) (path : String) :
    gate.wanted path = .path path := by
  rw [wanted, h]

theorem mem_claims_path : .path path ∈ gate.claims ↔ path ∈ gate.paths := by
  cases hheld : gate.isHeld <;> simp [claims, hheld]

theorem mem_claims_all : .all ∈ gate.claims ↔ gate.isHeld = true := by
  cases hheld : gate.isHeld <;> simp [claims, hheld]

/-- A gate is busy as long as there is any claim. -/
theorem isBusy_iff : gate.isBusy = true ↔ gate.claims ≠ [] := by
  cases hheld : gate.isHeld <;> simp [isBusy, claims, hheld]

/-- All claims are of the kind that the policy asks for. -/
theorem Fitting.eq_wanted (h : gate.Fitting) (hclaim : claim ∈ gate.claims) :
    ∃ path, claim = gate.wanted path := by
  cases hpolicy : gate.policy with
  | exclusive =>
    have hpaths : gate.paths = [] := by simpa [Fitting, hpolicy] using h
    cases claim with
    | all => exact ⟨"", (wanted_of_exclusive hpolicy _).symm⟩
    | path path =>
      rw [mem_claims_path, hpaths] at hclaim
      contradiction
  | perPath =>
    have hheld : gate.isHeld = false := by simpa [Fitting, hpolicy] using h
    cases claim with
    | all =>
      rw [mem_claims_all, hheld] at hclaim
      contradiction
    | path path => exact ⟨path, (wanted_of_perPath hpolicy path).symm⟩

/-- A caller is not let through if what it asks for is held, and then the gate does not change. -/
theorem look_of_mem (h : gate.wanted path ∈ gate.claims) (isCancelled : Bool) :
    gate.look path isCancelled = (gate.refusal isCancelled, gate) := by
  cases hpolicy : gate.policy with
  | exclusive =>
    rw [wanted_of_exclusive hpolicy, mem_claims_all] at h
    simp [look, attempt, refusal, hpolicy, h]
  | perPath =>
    rw [wanted_of_perPath hpolicy, mem_claims_path] at h
    simp [look, attempt, refusal, hpolicy, h]

/-- A caller is let through if what it asks for is not held. -/
theorem look_of_not_mem (hfit : gate.Fitting) (h : gate.wanted path ∉ gate.claims)
    (isCancelled : Bool) :
    ∃ next, gate.look path isCancelled = (some (.ok (gate.wanted path)), next) ∧
      next.claims = gate.wanted path :: gate.claims ∧ next.policy = gate.policy ∧
      next.Fitting := by
  cases hpolicy : gate.policy with
  | exclusive =>
    rw [wanted_of_exclusive hpolicy, mem_claims_all, Bool.not_eq_true] at h
    have hpaths : gate.paths = [] := by simpa [Fitting, hpolicy] using hfit
    refine ⟨{ gate with isHeld := true }, ?_, ?_, hpolicy, ?_⟩
    · simp [look, attempt, wanted, hpolicy, h]
    · simp [claims, wanted, hpolicy, h]
    · simpa [Fitting, hpolicy] using hpaths
  | perPath =>
    rw [wanted_of_perPath hpolicy, mem_claims_path] at h
    have hheld : gate.isHeld = false := by simpa [Fitting, hpolicy] using hfit
    refine ⟨{ gate with paths := path :: gate.paths }, ?_, ?_, hpolicy, ?_⟩
    · simp [look, attempt, wanted, hpolicy, h]
    · simp [claims, wanted, hpolicy, hheld]
    · simpa [Fitting, hpolicy] using hheld

/-! ### Giving up a claim -/

/-- Giving up a claim takes away this claim and no other. -/
theorem claims_release (gate : Gate) (claim : Claim) :
    (gate.release claim).claims = gate.claims.filter (· ≠ claim) := by
  cases claim with
  | all =>
    have hpaths : (gate.paths.map Claim.path).filter (· ≠ .all) = gate.paths.map .path := by
      apply List.filter_eq_self.mpr
      simp
    cases hheld : gate.isHeld <;> simp only [release, claims, hheld, List.filter_append, hpaths] <;>
      rfl
  | path path =>
    cases hheld : gate.isHeld <;> simp [release, claims, hheld, List.filter_map, Function.comp_def]

theorem policy_release (gate : Gate) (claim : Claim) :
    (gate.release claim).policy = gate.policy := by
  cases claim <;> rfl

theorem Fitting.release (h : gate.Fitting) (claim : Claim) : (gate.release claim).Fitting := by
  unfold Fitting at h ⊢
  rw [policy_release]
  cases hpolicy : gate.policy with
  | exclusive =>
    have hpaths : gate.paths = [] := by simpa [hpolicy] using h
    cases claim with
    | all => exact hpaths
    | path path => simp [Gate.release, hpaths]
  | perPath =>
    have hheld : gate.isHeld = false := by simpa [hpolicy] using h
    cases claim with
    | all => rfl
    | path path => exact hheld

end Gate

/-! ## Callers -/

/-- A call that waits at the gate. -/
structure Waiter where
  number : Nat
  path : String
  token : Nat

/-- A gate with those who hold something and those who wait. Calls are numbered, and a guard has the
number of the call that was let through. -/
structure Traffic where
  gate : Gate
  tokens : CancelTokens
  calls : Nat := 0
  guards : List (Nat × Gate.Claim) := []
  waiting : List Waiter := []

namespace Traffic

inductive Event where
  /-- Somebody asks for a page, with a token that can cancel this. -/
  | enter (path : String) (token : Nat)
  /-- Somebody who waits looks again. -/
  | wake (number : Nat)
  | cancel (token : Nat)
  /-- A guard is dropped. -/
  | drop (number : Nat)

/-- A gate at which nobody has been yet. -/
def start (policy : Concurrency) (tokens : CancelTokens) : Traffic where
  gate := .ofPolicy policy
  tokens

/-- A caller looks at the gate: it gets a guard, goes away with an error, or waits. -/
def look (traffic : Traffic) (caller : Waiter) : Traffic :=
  match traffic.gate.look caller.path (traffic.tokens.isCancelled caller.token) with
  | (some (.ok claim), gate) =>
    { traffic with gate, guards := traffic.guards ++ [(caller.number, claim)] }
  | (some (.error _), gate) => { traffic with gate }
  | (none, gate) => { traffic with gate, waiting := traffic.waiting ++ [caller] }

/-- One step. Nothing happens if there is no call or guard of this number. -/
def step (traffic : Traffic) : Event → Traffic
  | .enter path token =>
    { traffic with calls := traffic.calls + 1 }.look ⟨traffic.calls, path, token⟩
  | .wake number =>
    match traffic.waiting.find? fun caller ↦ caller.number = number with
    | none => traffic
    | some caller =>
      { traffic with
        waiting := traffic.waiting.filter fun other ↦ other.number ≠ number }.look caller
  | .cancel token => { traffic with tokens := traffic.tokens.cancel token }
  | .drop number =>
    match traffic.guards.find? fun guard ↦ guard.1 = number with
    | none => traffic
    | some guard =>
      { traffic with
        gate := traffic.gate.release guard.2
        guards := traffic.guards.filter fun other ↦ other.1 ≠ number }

def run (traffic : Traffic) (events : List Event) : Traffic := events.foldl step traffic

/-- Somebody holds a claim. -/
def Held (traffic : Traffic) (claim : Gate.Claim) : Prop :=
  ∃ number, (number, claim) ∈ traffic.guards

/-- The numbers of all calls that are not over. -/
def numbers (traffic : Traffic) : List Nat :=
  traffic.guards.map Prod.fst ++ traffic.waiting.map Waiter.number

/-! ## What every step keeps -/

/-- The gate has noted what is held, once each, and calls have numbers of their own. -/
structure Tallies (policy : Concurrency) (traffic : Traffic) : Prop where
  policy_eq : traffic.gate.policy = policy
  fitting : traffic.gate.Fitting
  claims : traffic.gate.claims.Perm (traffic.guards.map Prod.snd)
  claims_nodup : traffic.gate.claims.Nodup
  numbers_nodup : traffic.numbers.Nodup
  numbers_lt : ∀ number ∈ traffic.numbers, number < traffic.calls

variable {policy : Concurrency} {traffic : Traffic}

theorem tallies_start (policy : Concurrency) (tokens : CancelTokens) :
    (start policy tokens).Tallies policy where
  policy_eq := rfl
  fitting := by cases policy <;> rfl
  claims := List.Perm.refl _
  claims_nodup := List.nodup_nil
  numbers_nodup := List.nodup_nil
  numbers_lt := by simp [numbers, start]

/-- The claims of the gate are those of the guards. -/
theorem Tallies.mem_claims (h : traffic.Tallies policy) {claim : Gate.Claim} :
    claim ∈ traffic.gate.claims ↔ traffic.Held claim := by
  rw [h.claims.mem_iff, List.mem_map]
  constructor
  · rintro ⟨⟨number, _⟩, hguard, rfl⟩
    exact ⟨number, hguard⟩
  · rintro ⟨number, hguard⟩
    exact ⟨_, hguard, rfl⟩

/-- What a look does: it takes what is free, and otherwise it changes nothing but that the caller
may wait. -/
theorem Tallies.look_cases (h : traffic.Tallies policy) (caller : Waiter) :
    (¬ traffic.Held (traffic.gate.wanted caller.path) ∧
      ∃ gate, gate.claims = traffic.gate.wanted caller.path :: traffic.gate.claims ∧
        gate.policy = policy ∧ gate.Fitting ∧ traffic.look caller = { traffic with
          gate
          guards := traffic.guards ++ [(caller.number, traffic.gate.wanted caller.path)] }) ∨
    (traffic.Held (traffic.gate.wanted caller.path) ∧
      (traffic.look caller = traffic ∨
        traffic.look caller = { traffic with waiting := traffic.waiting ++ [caller] } ∧
          policy = .perPath ∧ traffic.tokens.isCancelled caller.token = false)) := by
  by_cases hmem : traffic.gate.wanted caller.path ∈ traffic.gate.claims
  · refine .inr ⟨h.mem_claims.mp hmem, ?_⟩
    have hlook := Gate.look_of_mem hmem (traffic.tokens.isCancelled caller.token)
    unfold look
    rw [hlook, Gate.refusal, h.policy_eq]
    cases policy with
    | exclusive => exact .inl rfl
    | perPath =>
      cases traffic.tokens.isCancelled caller.token with
      | true => exact .inl rfl
      | false => exact .inr ⟨rfl, rfl, rfl⟩
  · obtain ⟨gate, hlook, hclaims, hpolicy, hfit⟩ :=
      Gate.look_of_not_mem h.fitting hmem (traffic.tokens.isCancelled caller.token)
    refine .inl ⟨mt h.mem_claims.mpr hmem, gate, hclaims, hpolicy.trans h.policy_eq, hfit, ?_⟩
    unfold look
    rw [hlook]

/-- A caller that looks at the gate gets a guard, waits or is turned away, and the tallies go on to
agree. -/
theorem Tallies.look (h : traffic.Tallies policy) {caller : Waiter}
    (hnew : caller.number ∉ traffic.numbers) (hlt : caller.number < traffic.calls) :
    (traffic.look caller).Tallies policy := by
  have hnumbers : (caller.number :: traffic.numbers).Nodup :=
    List.nodup_cons.mpr ⟨hnew, h.numbers_nodup⟩
  have hbelow : ∀ number ∈ caller.number :: traffic.numbers, number < traffic.calls :=
    List.forall_mem_cons.mpr ⟨hlt, h.numbers_lt⟩
  obtain ⟨hfree, gate, hclaims, hpolicy, hfit, hlook⟩ | ⟨_, hsame | ⟨hwaits, _, _⟩⟩ :=
    h.look_cases caller
  · rw [hlook]
    have hperm : (caller.number :: traffic.numbers).Perm
        ((traffic.guards ++ [(caller.number, traffic.gate.wanted caller.path)]).map Prod.fst ++
          traffic.waiting.map Waiter.number) := by
      rw [List.map_append, List.map_singleton, List.append_assoc]
      exact List.perm_middle.symm
    refine ⟨hpolicy, hfit, ?_, ?_, hperm.nodup hnumbers, ?_⟩
    · rw [List.map_append, List.map_singleton, hclaims]
      exact (h.claims.cons _).trans (List.perm_append_singleton _ _).symm
    · rw [hclaims]
      exact List.nodup_cons.mpr ⟨mt h.mem_claims.mp hfree, h.claims_nodup⟩
    · intro number hnumber
      exact hbelow number (hperm.mem_iff.mpr hnumber)
  · rw [hsame]
    exact h
  · rw [hwaits]
    have hperm : (caller.number :: traffic.numbers).Perm
        (traffic.guards.map Prod.fst ++ (traffic.waiting ++ [caller]).map Waiter.number) := by
      rw [List.map_append, List.map_singleton, ← List.append_assoc]
      exact (List.perm_append_singleton _ _).symm
    refine ⟨h.policy_eq, h.fitting, h.claims, h.claims_nodup, hperm.nodup hnumbers, ?_⟩
    intro number hnumber
    exact hbelow number (hperm.mem_iff.mpr hnumber)

theorem Tallies.count (h : traffic.Tallies policy) :
    ({ traffic with calls := traffic.calls + 1 } : Traffic).Tallies policy :=
  { h with numbers_lt := fun number hnumber ↦ Nat.lt_succ_of_lt (h.numbers_lt number hnumber) }

/-- A caller that leaves those who wait is not counted any more. -/
theorem Tallies.leave (h : traffic.Tallies policy) {caller : Waiter}
    (hcaller : caller ∈ traffic.waiting) :
    ({ traffic with
        waiting := traffic.waiting.filter fun other ↦ other.number ≠ caller.number } :
        Traffic).Tallies policy ∧
      caller.number ∉ traffic.guards.map Prod.fst ++
        (traffic.waiting.filter fun other ↦ other.number ≠ caller.number).map Waiter.number := by
  have hsublist : (traffic.guards.map Prod.fst ++ (traffic.waiting.filter
      fun other ↦ other.number ≠ caller.number).map Waiter.number).Sublist traffic.numbers :=
    (List.Sublist.refl _).append (List.filter_sublist.map _)
  refine ⟨{ h with
    numbers_nodup := h.numbers_nodup.sublist hsublist
    numbers_lt := fun number hnumber ↦ h.numbers_lt number (hsublist.subset hnumber) }, ?_⟩
  intro hmem
  rcases List.mem_append.mp hmem with hguard | hwaits
  · exact (List.nodup_append.mp h.numbers_nodup).2.2 _ hguard _ (List.mem_map_of_mem hcaller) rfl
  · obtain ⟨other, hother, hnumber⟩ := List.mem_map.mp hwaits
    exact absurd hnumber (by simpa using (List.mem_filter.mp hother).2)

/-- Among the guards, one has a given number exactly if it has the claim that goes with it. -/
theorem Tallies.filter_guards (h : traffic.Tallies policy) {guard : Nat × Gate.Claim}
    (hguard : guard ∈ traffic.guards) :
    (traffic.guards.filter fun other ↦ other.1 ≠ guard.1) = traffic.guards.filter (· ≠ guard) ∧
      (traffic.guards.map Prod.snd).filter (· ≠ guard.2) =
        (traffic.guards.filter (· ≠ guard)).map Prod.snd := by
  have hfirst : (traffic.guards.map Prod.fst).Nodup := (List.nodup_append.mp h.numbers_nodup).1
  have hsecond : (traffic.guards.map Prod.snd).Nodup := h.claims.nodup h.claims_nodup
  constructor
  · apply List.filter_congr
    intro other hother
    rw [decide_eq_decide, not_iff_not]
    exact ⟨List.inj_on_of_nodup_map hfirst hother hguard, congrArg Prod.fst⟩
  · rw [List.filter_map]
    congr 1
    apply List.filter_congr
    intro other hother
    rw [Function.comp_apply, decide_eq_decide, not_iff_not]
    exact ⟨List.inj_on_of_nodup_map hsecond hother hguard, congrArg Prod.snd⟩

/-- Dropping a guard. -/
theorem Tallies.step_drop (h : traffic.Tallies policy) {guard : Nat × Gate.Claim}
    (hguard : guard ∈ traffic.guards) :
    traffic.step (.drop guard.1) = { traffic with
      gate := traffic.gate.release guard.2
      guards := traffic.guards.filter (· ≠ guard) } := by
  have hfirst : (traffic.guards.map Prod.fst).Nodup := (List.nodup_append.mp h.numbers_nodup).1
  have hfound : (traffic.guards.find? fun other ↦ other.1 = guard.1) = some guard :=
    (find?_eq_some_iff_of_nodup hfirst).mpr ⟨hguard, rfl⟩
  rw [step, hfound, ← (h.filter_guards hguard).1]

theorem Tallies.drop (h : traffic.Tallies policy) {guard : Nat × Gate.Claim}
    (hguard : guard ∈ traffic.guards) : (traffic.step (.drop guard.1)).Tallies policy := by
  rw [h.step_drop hguard]
  have hsublist : ((traffic.guards.filter (· ≠ guard)).map Prod.fst ++
      traffic.waiting.map Waiter.number).Sublist traffic.numbers :=
    (List.filter_sublist.map _).append (List.Sublist.refl _)
  refine ⟨(Gate.policy_release _ _).trans h.policy_eq, h.fitting.release _, ?_, ?_,
    h.numbers_nodup.sublist hsublist, fun number hnumber ↦
      h.numbers_lt number (hsublist.subset hnumber)⟩
  · rw [Gate.claims_release, ← (h.filter_guards hguard).2]
    exact h.claims.filter _
  · rw [Gate.claims_release]
    exact h.claims_nodup.filter _

theorem Tallies.step (h : traffic.Tallies policy) (event : Event) :
    (traffic.step event).Tallies policy := by
  cases event with
  | enter path token =>
    have hnew : traffic.calls ∉ traffic.numbers := fun hmem ↦
      Nat.lt_irrefl _ (h.numbers_lt _ hmem)
    exact h.count.look hnew (Nat.lt_succ_self _)
  | wake number =>
    rw [Traffic.step]
    cases hfound : traffic.waiting.find? fun caller ↦ caller.number = number with
    | none => exact h
    | some caller =>
      have hcaller := List.mem_of_find?_eq_some hfound
      obtain rfl : caller.number = number := by simpa using List.find?_some hfound
      obtain ⟨hleft, hnew⟩ := h.leave hcaller
      have hlt : caller.number < traffic.calls := h.numbers_lt _
        (List.mem_append_right _ (List.mem_map_of_mem hcaller))
      exact hleft.look hnew hlt
  | cancel token => exact { h with }
  | drop number =>
    cases hfound : traffic.guards.find? fun guard ↦ guard.1 = number with
    | none =>
      rw [Traffic.step, hfound]
      exact h
    | some guard =>
      obtain rfl : guard.1 = number := by simpa using List.find?_some hfound
      exact h.drop (List.mem_of_find?_eq_some hfound)

theorem Tallies.run (h : traffic.Tallies policy) (events : List Event) :
    (traffic.run events).Tallies policy := by
  induction events generalizing traffic with
  | nil => exact h
  | cons event rest ih => exact ih (h.step event)

/-! ## What holds at every time -/

/-- The gate lets callers through as its policy says, and nothing that was given up stays locked. -/
structure Safe (policy : Concurrency) (traffic : Traffic) : Prop where
  isBusy_iff : traffic.gate.isBusy = true ↔ traffic.guards ≠ []
  exclusive_single : policy = .exclusive → traffic.guards.length ≤ 1
  exclusive_look : policy = .exclusive → ∀ path isCancelled,
    (traffic.guards = [] → (traffic.gate.look path isCancelled).1 = some (.ok .all)) ∧
    (traffic.guards ≠ [] → traffic.gate.look path isCancelled =
      (some (.error .compilationInProgress), traffic.gate))
  perPath_paths : policy = .perPath →
    ∀ path, path ∈ traffic.gate.paths ↔ traffic.Held (.path path)
  perPath_single : policy = .perPath → (traffic.guards.map Prod.snd).Nodup ∧
    ∀ guard ∈ traffic.guards, ∃ path, guard.2 = .path path
  perPath_look : policy = .perPath → ∀ path isCancelled,
    (¬ traffic.Held (.path path) →
      (traffic.gate.look path isCancelled).1 = some (.ok (.path path))) ∧
    (traffic.Held (.path path) → traffic.gate.look path isCancelled =
      (if isCancelled then some (.error .cancelled) else none, traffic.gate))
  /-- Whoever waits after a step waited before and did not look, or has found its page held. -/
  waits : ∀ event, ∀ caller ∈ (traffic.step event).waiting,
    (caller ∈ traffic.waiting ∧ event ≠ .wake caller.number) ∨
    (traffic.Held (.path caller.path) ∧ traffic.tokens.isCancelled caller.token = false ∧
      (traffic.step event).gate = traffic.gate)
  /-- Whoever waits gets through at its next look if nobody holds its page by then. -/
  passes : policy = .perPath → ∀ caller ∈ traffic.waiting, ¬ traffic.Held (.path caller.path) →
    (traffic.step (.wake caller.number)).guards =
      traffic.guards ++ [(caller.number, .path caller.path)]
  /-- Dropping a guard takes away this guard and its claim, and nothing else. -/
  drops : ∀ guard ∈ traffic.guards,
    (traffic.step (.drop guard.1)).guards = traffic.guards.filter (· ≠ guard) ∧
    (traffic.step (.drop guard.1)).gate.claims = traffic.gate.claims.filter (· ≠ guard.2) ∧
    (traffic.step (.drop guard.1)).waiting = traffic.waiting

theorem Tallies.claims_eq_nil (h : traffic.Tallies policy) :
    traffic.gate.claims = [] ↔ traffic.guards = [] := by
  constructor
  · intro hnone
    have hguards := h.claims
    rw [hnone] at hguards
    exact List.map_eq_nil_iff.mp hguards.nil_eq.symm
  · intro hnone
    have hclaims := h.claims
    rw [hnone] at hclaims
    exact hclaims.eq_nil

/-- Under the exclusive policy a claim is held exactly if there is a guard. -/
theorem Tallies.held_all_iff (h : traffic.Tallies .exclusive) :
    traffic.Held .all ↔ traffic.guards ≠ [] := by
  constructor
  · rintro ⟨number, hguard⟩ hnone
    rw [hnone] at hguard
    contradiction
  · intro hsome
    obtain ⟨guard, hguard⟩ := List.exists_mem_of_ne_nil _ hsome
    have hclaim : guard.2 ∈ traffic.gate.claims := h.mem_claims.mpr ⟨guard.1, hguard⟩
    obtain ⟨path, hwanted⟩ := h.fitting.eq_wanted hclaim
    rw [Gate.wanted_of_exclusive h.policy_eq] at hwanted
    exact ⟨guard.1, hwanted ▸ hguard⟩

theorem Tallies.step_wake (h : traffic.Tallies policy) {caller : Waiter}
    (hcaller : caller ∈ traffic.waiting) :
    traffic.step (.wake caller.number) = { traffic with
      waiting := traffic.waiting.filter fun other ↦ other.number ≠ caller.number }.look
        caller := by
  have hsecond : (traffic.waiting.map Waiter.number).Nodup :=
    (List.nodup_append.mp h.numbers_nodup).2.1
  have hfound : (traffic.waiting.find? fun other ↦ other.number = caller.number) = some caller :=
    (find?_eq_some_iff_of_nodup hsecond).mpr ⟨hcaller, rfl⟩
  rw [Traffic.step, hfound]

/-- Whoever waits after a look waited before it, or is the caller who looked. -/
theorem Tallies.waits_look (h : traffic.Tallies policy) {caller other : Waiter}
    (hother : other ∈ (traffic.look caller).waiting) :
    other ∈ traffic.waiting ∨
      (traffic.Held (.path other.path) ∧ traffic.tokens.isCancelled other.token = false ∧
        (traffic.look caller).gate = traffic.gate) := by
  obtain ⟨_, gate, _, _, _, hlook⟩ | ⟨hheld, hsame | ⟨hwaits, hpolicy, hcancelled⟩⟩ :=
    h.look_cases caller
  · rw [hlook] at hother
    exact .inl hother
  · rw [hsame] at hother
    exact .inl hother
  · rw [hwaits] at hother
    rcases List.mem_append.mp hother with hold | hnew
    · exact .inl hold
    · rw [List.mem_singleton.mp hnew, hwaits]
      rw [Gate.wanted_of_perPath (h.policy_eq.trans hpolicy)] at hheld
      exact .inr ⟨hheld, hcancelled, rfl⟩

/-- A caller goes on waiting, or was just told to wait by a gate that is held. -/
theorem Tallies.waits_step (h : traffic.Tallies policy) (event : Event) {caller : Waiter}
    (hcaller : caller ∈ (traffic.step event).waiting) :
    (caller ∈ traffic.waiting ∧ event ≠ .wake caller.number) ∨
      (traffic.Held (.path caller.path) ∧ traffic.tokens.isCancelled caller.token = false ∧
        (traffic.step event).gate = traffic.gate) := by
  cases event with
  | enter path token =>
    rcases h.count.waits_look hcaller with hold | hfound
    · exact .inl ⟨hold, nofun⟩
    · exact .inr hfound
  | wake number =>
    by_cases hwaiter : ∃ other ∈ traffic.waiting, other.number = number
    · obtain ⟨other, hother, rfl⟩ := hwaiter
      rw [h.step_wake hother] at hcaller ⊢
      rcases (h.leave hother).1.waits_look hcaller with hold | hfound
      · obtain ⟨hmem, hnumber⟩ := List.mem_filter.mp hold
        refine .inl ⟨hmem, fun hevent ↦ ?_⟩
        have hsame : other.number = caller.number := Event.wake.inj hevent
        simp [hsame] at hnumber
      · exact .inr hfound
    · have hnone : (traffic.waiting.find? fun other ↦ other.number = number) = none :=
        List.find?_eq_none.mpr fun other hother ↦ by
          simpa using fun hnumber ↦ hwaiter ⟨other, hother, hnumber⟩
      rw [Traffic.step, hnone] at hcaller
      refine .inl ⟨hcaller, fun hevent ↦ hwaiter ⟨caller, hcaller, ?_⟩⟩
      exact (Event.wake.inj hevent).symm
  | cancel token => exact .inl ⟨hcaller, nofun⟩
  | drop number =>
    refine .inl ⟨?_, nofun⟩
    rw [Traffic.step] at hcaller
    split at hcaller
    · exact hcaller
    · exact hcaller

theorem Tallies.safe (h : traffic.Tallies policy) : traffic.Safe policy where
  isBusy_iff := by
    rw [Gate.isBusy_iff, ne_eq, h.claims_eq_nil]
  exclusive_single := by
    rintro rfl
    have hpaths : traffic.gate.paths = [] := by
      simpa [Gate.Fitting, h.policy_eq] using h.fitting
    rw [← List.length_map Prod.snd, ← h.claims.length_eq, Gate.claims, hpaths]
    cases traffic.gate.isHeld <;> decide
  exclusive_look := by
    rintro rfl path isCancelled
    have hwanted := Gate.wanted_of_exclusive h.policy_eq path
    constructor
    · intro hnone
      have hfree : traffic.gate.wanted path ∉ traffic.gate.claims := by
        rw [h.claims_eq_nil.mpr hnone]
        exact List.not_mem_nil
      obtain ⟨gate, hlook, _⟩ := Gate.look_of_not_mem h.fitting hfree isCancelled
      rw [hlook, hwanted]
    · intro hsome
      have hmem : traffic.gate.wanted path ∈ traffic.gate.claims :=
        hwanted ▸ h.mem_claims.mpr (h.held_all_iff.mpr hsome)
      rw [Gate.look_of_mem hmem, Gate.refusal, h.policy_eq]
  perPath_paths := by
    rintro rfl path
    rw [← h.mem_claims, Gate.mem_claims_path]
  perPath_single := by
    rintro rfl
    refine ⟨h.claims.nodup h.claims_nodup, fun guard hguard ↦ ?_⟩
    obtain ⟨path, hwanted⟩ := h.fitting.eq_wanted (h.mem_claims.mpr ⟨guard.1, hguard⟩)
    exact ⟨path, hwanted.trans (Gate.wanted_of_perPath h.policy_eq path)⟩
  perPath_look := by
    rintro rfl path isCancelled
    have hwanted := Gate.wanted_of_perPath h.policy_eq path
    constructor
    · intro hfree
      rw [← h.mem_claims, ← hwanted] at hfree
      obtain ⟨gate, hlook, _⟩ := Gate.look_of_not_mem h.fitting hfree isCancelled
      rw [hlook, hwanted]
    · intro hheld
      rw [← h.mem_claims, ← hwanted] at hheld
      rw [Gate.look_of_mem hheld, Gate.refusal, h.policy_eq]
  waits event _ hcaller := h.waits_step event hcaller
  passes := by
    rintro rfl caller hcaller hfree
    have hwanted := Gate.wanted_of_perPath h.policy_eq caller.path
    rw [h.step_wake hcaller]
    obtain ⟨_, gate, _, _, _, hlook⟩ | ⟨hheld, _⟩ := (h.leave hcaller).1.look_cases caller
    · rw [hlook, hwanted]
    · exact absurd (hwanted ▸ hheld) hfree
  drops := by
    intro guard hguard
    rw [h.step_drop hguard]
    exact ⟨rfl, Gate.claims_release _ _, rfl⟩

/-- However callers come, wait, are cancelled and go, the gate is safe. -/
theorem safe_after (policy : Concurrency) (tokens : CancelTokens) (events : List Event) :
    ((start policy tokens).run events).Safe policy :=
  ((tallies_start policy tokens).run events).safe

/-- The second caller for a page waits until the first is done; one for another page does not. -/
example : ((start .perPath {}).run
    [.enter "/a" 0, .enter "/a" 0, .enter "/b" 0, .drop 0, .wake 1]).guards =
      [(2, .path "/b"), (1, .path "/a")] := by decide

end Traffic

end PageScript
