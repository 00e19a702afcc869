import Mathlib.Data.List.Nodup
import PageScript.Page.Site
import PageScript.Path

/-!
# Recorded sites

A site can be given a log of what it is asked, without any change to what it answers. As long as
nobody cancels, reading a file asks for it until there is an answer that settles the matter, which
is the last one in the log.
-/

namespace PageScript

namespace Site

variable {ω α β : Type}

/-- What a site is asked, with its answer where it is a file. -/
inductive Request where
  | read (path : String) (answer : Except FileError Bytes)
  | generate (path text : String)

/-- The site with a log of what it is asked. -/
def recorded (site : Site ω) : Site (ω × List Request) where
  read path := fun (world, log) ↦
    let (answer, world) := (site.read path).run world
    (answer, world, log ++ [.read path answer])
  cancelled := fun (world, log) ↦
    let (answer, world) := site.cancelled.run world
    (answer, world, log)
  pause duration := fun (world, log) ↦
    let (answer, world) := (site.pause duration).run world
    (answer, world, log)
  generate path text components := fun (world, log) ↦
    let (file, world) := (site.generate path text components).run world
    (file, world, log ++ [.generate path text])
  fileBound := fun (world, _) ↦ site.fileBound world

/-- An action ends in the same way with and without a log, and the log tells the requests. -/
structure Logs (plain : Action ω α) (logged : Action (ω × List Request) α) (world : ω)
    (outcome : Except PageError α) (requests : List Request) (next : ω) : Prop where
  plain : plain.run.run world = (outcome, next)
  logged : ∀ log, logged.run.run (world, log) = (outcome, next, log ++ requests)

theorem logs_pure (world : ω) (value : α) :
    Logs (pure value : Action ω α) (pure value) world (.ok value) [] world :=
  ⟨rfl, fun log ↦ by rw [List.append_nil]; rfl⟩

theorem logs_throw (world : ω) (error : PageError) :
    Logs (throw error : Action ω α) (throw error) world (.error error) [] world :=
  ⟨rfl, fun log ↦ by rw [List.append_nil]; rfl⟩

theorem logs_except (world : ω) (outcome : Except PageError α) :
    Logs (liftM outcome : Action ω α) (liftM outcome) world outcome [] world :=
  ⟨rfl, fun log ↦ by rw [List.append_nil]; rfl⟩

theorem logs_lift {plain : StateM ω α} {logged : StateM (ω × List Request) α} {world next : ω}
    {value : α} {requests : List Request} (hplain : plain.run world = (value, next))
    (hlogged : ∀ log, logged.run (world, log) = (value, next, log ++ requests)) :
    Logs (liftM plain) (liftM logged) world (.ok value) requests next := by
  constructor
  · exact congrArg (fun result : α × ω ↦ (Except.ok result.1, result.2)) hplain
  · intro log
    exact congrArg (fun result : α × ω × List Request ↦ (Except.ok result.1, result.2))
      (hlogged log)

/-- Requests of two actions stand in the log in the order in which they are made. -/
theorem Logs.bind {first : Action ω α} {first' : Action (ω × List Request) α}
    {then' : α → Action (ω × List Request) β} {after : α → Action ω β} {world between next : ω}
    {value : α} {outcome : Except PageError β} {requests more : List Request}
    (hfirst : Logs first first' world (.ok value) requests between)
    (hafter : Logs (after value) (then' value) between outcome more next) :
    Logs (first >>= after) (first' >>= then') world outcome (requests ++ more) next := by
  constructor
  · rw [ExceptT.run_bind, StateT.run_bind, hfirst.plain]
    exact hafter.plain
  · intro log
    rw [ExceptT.run_bind, StateT.run_bind, hfirst.logged, ← List.append_assoc]
    exact hafter.logged _

/-- An action that fails is the last one to make requests. -/
theorem Logs.bind_error {first : Action ω α} {first' : Action (ω × List Request) α}
    {world next : ω} {error : PageError} {requests : List Request}
    (h : Logs first first' world (.error error) requests next) (after : α → Action ω β)
    (then' : α → Action (ω × List Request) β) :
    Logs (first >>= after) (first' >>= then') world (.error error) requests next := by
  constructor
  · rw [ExceptT.run_bind, StateT.run_bind, h.plain]
    rfl
  · intro log
    rw [ExceptT.run_bind, StateT.run_bind, h.logged]
    rfl

/-- While `calm` holds of the world, nobody cancels, of the paths in normal form only those in
`served` can be read, and what is made of a file depends on its path and text alone. -/
structure Steady (site : Site ω) (calm : ω → Prop) (served : List String)
    (generator : String → String → List ComponentMetadata → GeneratedFile) : Prop where
  cancelled : ∀ world, calm world → ∃ next, site.cancelled.run world = (false, next) ∧ calm next
  pause : ∀ world duration, calm world →
    ∃ next, (site.pause duration).run world = ((), next) ∧ calm next
  read : ∀ world path, calm world → ∃ answer next, (site.read path).run world = (answer, next) ∧
    calm next ∧ ∀ spelling bytes, Path.normalize spelling = .ok path → answer = .ok bytes →
      path ∈ served
  generate : ∀ world path text components, calm world →
    ∃ next, (site.generate path text components).run world =
      (generator path text components, next) ∧ calm next

variable {site : Site ω} {calm : ω → Prop} {served : List String}
  {generator : String → String → List ComponentMetadata → GeneratedFile} {world : ω}

/-- In calm, nothing is cancelled, and a check asks for nothing. -/
theorem Steady.logs_check (h : site.Steady calm served generator) (hcalm : calm world) :
    ∃ next, Logs site.check site.recorded.check world (.ok ()) [] next ∧ calm next := by
  obtain ⟨next, hrun, hnext⟩ := h.cancelled world hcalm
  have hlogged : ∀ log, site.recorded.cancelled.run (world, log) = (false, next, log ++ []) := by
    intro log
    rw [List.append_nil]
    exact congrArg (fun result : Bool × ω ↦ (result.1, result.2, log)) hrun
  exact ⟨next, (logs_lift hrun hlogged).bind (logs_pure next ()), hnext⟩

theorem Steady.logs_sleep (h : site.Steady calm served generator) (hcalm : calm world)
    (duration : Nat) :
    ∃ next, Logs (site.sleep duration) (site.recorded.sleep duration) world (.ok ()) [] next ∧
      calm next := by
  obtain ⟨between, hrun, hbetween⟩ := h.pause world duration hcalm
  have hlogs : Logs (liftM (site.pause duration)) (liftM (site.recorded.pause duration)) world
      (.ok ()) [] between := by
    refine logs_lift hrun fun log ↦ ?_
    rw [List.append_nil]
    exact congrArg (fun result : Unit × ω ↦ (result.1, result.2, log)) hrun
  obtain ⟨next, hcheck, hnext⟩ := h.logs_check hbetween
  exact ⟨next, hlogs.bind hcheck, hnext⟩

/-- A file that can be read is one of those served. -/
theorem Steady.logs_read (h : site.Steady calm served generator) (hcalm : calm world)
    (path : String) :
    ∃ answer next, Logs (liftM (site.read path)) (liftM (site.recorded.read path)) world
        (.ok answer) [.read path answer] next ∧ calm next ∧
      ∀ spelling bytes, Path.normalize spelling = .ok path → answer = .ok bytes →
        path ∈ served := by
  obtain ⟨answer, next, hrun, hnext, hserved⟩ := h.read world path hcalm
  refine ⟨answer, next, logs_lift hrun fun log ↦ ?_, hnext, hserved⟩
  exact congrArg (fun result : Except FileError Bytes × ω ↦
    (result.1, result.2, log ++ [Request.read path result.1])) hrun

theorem Steady.logs_generate (h : site.Steady calm served generator) (hcalm : calm world)
    (path text : String) (components : List ComponentMetadata) :
    ∃ next, Logs (liftM (site.generate path text components))
        (liftM (site.recorded.generate path text components)) world
        (.ok (generator path text components)) [.generate path text] next ∧ calm next := by
  obtain ⟨next, hrun, hnext⟩ := h.generate world path text components hcalm
  refine ⟨next, logs_lift hrun fun log ↦ ?_, hnext⟩
  exact congrArg (fun result : GeneratedFile × ω ↦
    (result.1, result.2, log ++ [Request.generate path text])) hrun

/-! ## Reading a file -/

/-- The requests for one file: attempts that fail, and the last one. -/
def tries (path : String) (failures : List FileError) (answer : Except FileError Bytes) :
    List Request :=
  (failures.map fun cause ↦ .read path (.error cause)) ++ [.read path answer]

/-- What reading a file comes to with the last answer, of `attempts` at most. -/
def settle (attempts : Nat) (path : String) : Except FileError Bytes → Except PageError String
  | .ok bytes => decode path bytes
  | .error cause =>
    if cause.isTransient then .error (.fileUnavailable path attempts cause)
    else .error (.file path cause)

/-- Reading a file asks for it again after some failures, and the last answer settles it. -/
theorem Steady.logs_readWithin (h : site.Steady calm served generator) (hcalm : calm world)
    (path : String) (backoff attempts more : Nat) :
    ∃ (failures : List FileError) (answer : Except FileError Bytes) (next : ω),
      Logs (site.readWithin path backoff attempts more)
        (site.recorded.readWithin path backoff attempts more) world (settle attempts path answer)
        (tries path failures answer) next ∧ calm next ∧
      ∀ spelling bytes, Path.normalize spelling = .ok path → answer = .ok bytes →
        path ∈ served := by
  induction more generalizing world with
  | zero =>
    obtain ⟨checked, hcheck, hchecked⟩ := h.logs_check hcalm
    obtain ⟨answer, next, hread, hnext, hserved⟩ := h.logs_read hchecked path
    refine ⟨[], answer, next, hcheck.bind (hread.bind ?_), hnext, hserved⟩
    cases answer with
    | ok bytes => exact logs_except next _
    | error cause =>
      cases htransient : cause.isTransient with
      | true =>
        simp only [settle, htransient, if_true]
        exact logs_throw next _
      | false =>
        simp only [settle, htransient]
        exact logs_throw next _
  | succ more ih =>
    obtain ⟨checked, hcheck, hchecked⟩ := h.logs_check hcalm
    obtain ⟨answer, between, hread, hbetween, hserved⟩ := h.logs_read hchecked path
    cases answer with
    | ok bytes =>
      exact ⟨[], .ok bytes, between, hcheck.bind (hread.bind (logs_except between _)), hbetween,
        hserved⟩
    | error cause =>
      cases htransient : cause.isTransient with
      | true =>
        obtain ⟨slept, hsleep, hslept⟩ := h.logs_sleep hbetween backoff
        obtain ⟨failures, answer, next, hagain, hnext, hserved⟩ := ih hslept
        refine ⟨cause :: failures, answer, next, hcheck.bind (hread.bind ?_), hnext, hserved⟩
        simp only [htransient, if_true]
        exact hsleep.bind hagain
      | false =>
        refine ⟨[], .error cause, between, hcheck.bind (hread.bind ?_), hbetween, hserved⟩
        simp only [settle, htransient]
        exact logs_throw between _

/-- What the reading of a markup file comes to with the last answer. -/
def reading (retry : RetrySettings) (path : String) (answer : Except FileError Bytes) :
    Except PageError String :=
  (settle (max 1 retry.maxAttempts) path answer).map Text.trimmed

/-- Markup is read in attempts that fail, and one whose answer stands. -/
theorem Steady.logs_readMarkup (h : site.Steady calm served generator) (hcalm : calm world)
    (retry : RetrySettings) (path : String) :
    ∃ (failures : List FileError) (answer : Except FileError Bytes) (next : ω),
      Logs (site.readMarkup retry path) (site.recorded.readMarkup retry path) world
        (reading retry path answer)
        (tries path failures answer) next ∧ calm next ∧
      ∀ spelling bytes, Path.normalize spelling = .ok path → answer = .ok bytes →
        path ∈ served := by
  obtain ⟨failures, answer, next, hread, hnext, hserved⟩ :=
    h.logs_readWithin hcalm path retry.backoff (max 1 retry.maxAttempts)
      (max 1 retry.maxAttempts - 1)
  refine ⟨failures, answer, next, ?_, hnext, hserved⟩
  rw [reading]
  cases hsettle : settle (max 1 retry.maxAttempts) path answer with
  | ok text =>
    rw [hsettle] at hread
    have hdone : Logs (site.readMarkup retry path) (site.recorded.readMarkup retry path) world
        (.ok (Text.trimmed text)) _ next := hread.bind (logs_pure next (Text.trimmed text))
    rwa [List.append_nil] at hdone
  | error error =>
    rw [hsettle] at hread
    exact hread.bind_error _ _

/-- A text comes from an attempt that gave bytes. -/
theorem ok_of_reading {retry : RetrySettings} {path text : String}
    {answer : Except FileError Bytes} (h : reading retry path answer = .ok text) :
    ∃ bytes, answer = .ok bytes := by
  cases answer with
  | ok bytes => exact ⟨bytes, rfl⟩
  | error cause =>
    simp only [reading, settle] at h
    split at h <;> cases h

/-- Reading one file never fails for the number of files. -/
theorem reading_ne_tooManyFiles (retry : RetrySettings) (path : String)
    (answer : Except FileError Bytes) (limit : Nat) :
    reading retry path answer ≠ .error (.tooManyFiles limit) := by
  intro h
  cases answer with
  | ok bytes =>
    simp only [reading, settle, decode] at h
    split at h <;> cases h
  | error cause =>
    simp only [reading, settle] at h
    split at h <;> cases h

/-! ## What a log tells -/

namespace Request

def path : Request → String
  | read path _ => path
  | generate path _ => path

/-- The file that a request has read with success. -/
def fetched? : Request → Option String
  | read path (.ok _) => some path
  | _ => none

/-- The file that a request has made a script of. -/
def made? : Request → Option String
  | generate path _ => some path
  | _ => none

/-- What a request has got for a file. -/
def answer? (path : String) : Request → Option (Except FileError Bytes)
  | read other answer => if other = path then some answer else none
  | generate _ _ => none

theorem path_of_fetched {request : Request} {path : String}
    (h : request.fetched? = some path) : request.path = path := by
  cases request with
  | read other answer =>
    cases answer with
    | ok bytes => exact Option.some.inj h
    | error cause => cases h
  | generate other text => cases h

theorem path_of_made {request : Request} {path : String} (h : request.made? = some path) :
    request.path = path := by
  cases request with
  | read other answer => cases h
  | generate other text => exact Option.some.inj h

theorem path_of_answer {request : Request} {path : String} {answer : Except FileError Bytes}
    (h : request.answer? path = some answer) : request.path = path := by
  cases request with
  | read other answer =>
    simp only [answer?] at h
    split at h
    · assumption
    · cases h
  | generate other text => cases h

end Request

/-- All attempts to read a file ask for this file. -/
theorem path_of_mem_tries {path : String} {failures : List FileError}
    {answer : Except FileError Bytes} {request : Request}
    (h : request ∈ tries path failures answer) : request.path = path := by
  rcases List.mem_append.mp h with h | h
  · obtain ⟨cause, _, rfl⟩ := List.mem_map.mp h
    rfl
  · rw [List.mem_singleton.mp h]
    rfl

/-- Apart from files that were taken before, a log has each file read with success and made into
a script at most once. -/
structure Once (taken : List String) (requests : List Request) : Prop where
  fresh : ∀ request ∈ requests, request.path ∉ taken
  fetched : (requests.filterMap Request.fetched?).Nodup
  made : (requests.filterMap Request.made?).Nodup

theorem once_nil (taken : List String) : Once taken [] :=
  ⟨by simp, List.nodup_nil, List.nodup_nil⟩

theorem nodup_filterMap_append {pick : Request → Option String}
    (hpick : ∀ {request path}, pick request = some path → request.path = path)
    {own rest : List Request} {path : String} (hpath : ∀ request ∈ own, request.path = path)
    (hfresh : ∀ request ∈ rest, request.path ≠ path) (hown : (own.filterMap pick).Nodup)
    (hrest : (rest.filterMap pick).Nodup) : ((own ++ rest).filterMap pick).Nodup := by
  rw [List.filterMap_append, List.nodup_append]
  refine ⟨hown, hrest, ?_⟩
  rintro first hfirst _ hsecond rfl
  obtain ⟨request, hrequest, hfound⟩ := List.mem_filterMap.mp hfirst
  obtain ⟨request', hrequest', hfound'⟩ := List.mem_filterMap.mp hsecond
  refine hfresh request' hrequest' ?_
  rw [hpick hfound', ← hpick hfound, hpath request hrequest]

/-- A log that is about one new file goes in front of one about files that come behind it. -/
theorem Once.append {taken : List String} {own rest : List Request} {path : String}
    (hown : Once taken own) (hpath : ∀ request ∈ own, request.path = path)
    (hrest : Once (taken ++ [path]) rest) : Once taken (own ++ rest) := by
  have hfresh : ∀ request ∈ rest, request.path ∉ taken ∧ request.path ≠ path := by
    intro request hrequest
    simpa using hrest.fresh request hrequest
  refine ⟨?_, ?_, ?_⟩
  · intro request hrequest
    rcases List.mem_append.mp hrequest with hrequest | hrequest
    · exact hown.fresh request hrequest
    · exact (hfresh request hrequest).1
  · exact nodup_filterMap_append Request.path_of_fetched hpath
      (fun request hrequest ↦ (hfresh request hrequest).2) hown.fetched hrest.fetched
  · exact nodup_filterMap_append Request.path_of_made hpath
      (fun request hrequest ↦ (hfresh request hrequest).2) hown.made hrest.made

/-- Once a file is taken, nothing more is heard of it. -/
theorem Once.answer_eq_none {taken : List String} {requests : List Request} {path : String}
    (h : Once (taken ++ [path]) requests) :
    ∀ request ∈ requests, request.answer? path = none := by
  intro request hrequest
  rw [Option.eq_none_iff_forall_ne_some]
  intro answer hanswer
  refine h.fresh request hrequest ?_
  rw [Request.path_of_answer hanswer]
  simp

/-- Of the tries to read a file, only the last can be a success. -/
theorem fetched_tries (path : String) (failures : List FileError)
    (answer : Except FileError Bytes) :
    (tries path failures answer).filterMap Request.fetched? =
      (Request.read path answer).fetched?.toList := by
  have hfailures : (failures.map fun cause ↦ Request.read path (.error cause)).filterMap
      Request.fetched? = [] :=
    List.filterMap_eq_nil_iff.mpr (by simp [Request.fetched?])
  rw [tries, List.filterMap_append, hfailures, List.nil_append]
  cases answer with
  | ok bytes => rfl
  | error cause => rfl

/-- Reading a file makes no script. -/
theorem made_tries (path : String) (failures : List FileError)
    (answer : Except FileError Bytes) :
    (tries path failures answer).filterMap Request.made? = [] :=
  List.filterMap_eq_nil_iff.mpr (by simp [tries, or_imp, forall_and, Request.made?])

/-- The requests for a new file are its only ones. -/
theorem once_tries {taken : List String} {path : String} (h : path ∉ taken)
    (failures : List FileError) (answer : Except FileError Bytes) :
    Once taken (tries path failures answer) where
  fresh request hrequest := path_of_mem_tries hrequest ▸ h
  fetched := by
    rw [fetched_tries]
    exact Option.toList_nodup _
  made := by
    rw [made_tries]
    exact List.nodup_nil

/-- A file that is new is read successfully once and made a script of once. -/
theorem once_making {taken : List String} {path : String} (h : path ∉ taken)
    (failures : List FileError) (answer : Except FileError Bytes) (text : String) :
    Once taken (tries path failures answer ++ [.generate path text]) where
  fresh request hrequest := by
    rcases List.mem_append.mp hrequest with hrequest | hrequest
    · exact path_of_mem_tries hrequest ▸ h
    · rwa [List.mem_singleton.mp hrequest]
  fetched := by
    rw [List.filterMap_append, fetched_tries]
    exact (List.append_nil _).symm ▸ Option.toList_nodup _
  made := by
    rw [List.filterMap_append, made_tries]
    exact List.nodup_singleton path

/-- The last answer for a file. -/
def lastAnswer (requests : List Request) (path : String) : Option (Except FileError Bytes) :=
  (requests.filterMap (Request.answer? path)).getLast?

/-- Reading files gives what their last answers in a log come to. -/
def Shows (retry : RetrySettings) (requests : List Request)
    (view : String → Except PageError String) : Prop :=
  ∀ path answer, lastAnswer requests path = some answer → view path = reading retry path answer

/-- What a log tells of the files, where those that it does not mention are missing. -/
def seen (retry : RetrySettings) (requests : List Request) (path : String) :
    Except PageError String :=
  match lastAnswer requests path with
  | some answer => reading retry path answer
  | none => .error (.file path (.notFound path))

/-- What was seen of the files is itself a way of looking at them that the log shows. -/
theorem shows_seen (retry : RetrySettings) (requests : List Request) :
    Shows retry requests (seen retry requests) := by
  intro path answer hlast
  rw [seen, hlast]

theorem lastAnswer_append (front rest : List Request) (path : String) :
    lastAnswer (front ++ rest) path = (lastAnswer rest path).or (lastAnswer front path) := by
  rw [lastAnswer, List.filterMap_append, List.getLast?_append]
  rfl

/-- What shows in a whole log shows in its end. -/
theorem Shows.of_append {retry : RetrySettings} {front rest : List Request}
    {view : String → Except PageError String} (h : Shows retry (front ++ rest) view) :
    Shows retry rest view := by
  intro path answer hlast
  refine h path answer ?_
  rw [lastAnswer_append, hlast, Option.some_or]

/-- The last try settles what a file holds, if there is no answer for it behind that. -/
theorem Shows.view_eq {retry : RetrySettings} {path : String} {failures : List FileError}
    {answer : Except FileError Bytes} {rest : List Request}
    {view : String → Except PageError String}
    (h : Shows retry (tries path failures answer ++ rest) view)
    (hrest : ∀ request ∈ rest, request.answer? path = none) :
    view path = reading retry path answer := by
  refine h path answer ?_
  have hnone : lastAnswer rest path = none := by
    rw [lastAnswer, List.filterMap_eq_nil_iff.mpr hrest, List.getLast?_nil]
  rw [lastAnswer_append, hnone, Option.none_or, tries, lastAnswer_append]
  simp [lastAnswer, Request.answer?]

end Site

end PageScript
