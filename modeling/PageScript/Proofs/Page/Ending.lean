import PageScript.Page.Projection
import PageScript.Proofs.Page.Discovery

/-!
# Ends of walks

The contents of the files decide how a walk from a page has to end: in success with all files that
can be reached, in breadth-first order, or at the first file in that order by which it cannot go on.
Of all these ends, never more than one is possible.
-/

namespace PageScript.Projection

section

variable (view : String → Except PageError String) (make : String → String → GeneratedFile)
  (root : String)

/-- The paths to which references in a file lead, where they lead to one. -/
def targets (path : String) (references : List String) : List String :=
  references.filterMap fun reference ↦ (Path.resolve path reference).toOption

/-- Every reference in a file leads to a path. -/
def Resolves (path : String) (references : List String) : Prop :=
  ∀ reference ∈ references, ∃ target, Path.resolve path reference = .ok target

/-- What a file refers to, if it can be read. -/
def refersTo (path : String) : List String :=
  match view path with
  | .ok text => targets path (make path text).dependencies
  | .error _ => []

/-- A file by which a walk goes on. -/
structure Passes (path text : String) : Prop where
  read : view path = .ok text
  clean : (make path text).diagnostics = []
  resolves : Resolves path (make path text).dependencies
  directive : path = root → (make path text).hasDirective = true

/-- How a walk ends at a file that it reaches behind the files `before`. -/
inductive Stops (before : List String) (path : String) : Except PageError Projection → Prop
  | unread {error : PageError} (hread : view path = .error error) :
      Stops before path (.error error)
  | diagnostics {text : String} (hread : view path = .ok text)
      (hfound : (make path text).diagnostics ≠ []) :
      Stops before path (.ok ⟨discovered (refersTo view make) root before,
        .diagnostics (make path text).diagnostics⟩)
  | unresolved {text reference : String} {front after : List String} {cause : FileError}
      (hread : view path = .ok text) (hclean : (make path text).diagnostics = [])
      (hsplit : (make path text).dependencies = front ++ reference :: after)
      (hfront : Resolves path front) (hcause : Path.resolve path reference = .error cause) :
      Stops before path (.error (.file reference cause))
  | fatal {text : String} (hread : view path = .ok text)
      (hclean : (make path text).diagnostics = [])
      (hresolves : Resolves path (make path text).dependencies) (hroot : path = root)
      (hdirective : (make path text).hasDirective = false) :
      Stops before path (.ok ⟨discovered (refersTo view make) root (before ++ [path]),
        .fatal missingDirective⟩)

/-- A walk comes to a file behind the files `before`, by which it goes on. -/
structure Arrives (before : List String) (path : String) : Prop where
  order : BreadthFirst (refersTo view make) root (before ++ [path])
  passed : ∀ file ∈ before, ∃ text, Passes view make root file text

/-- The text of a file, if it can be read. -/
def textOf (path : String) : String := (view path).toOption.getD ""

/-- The page that consists of some files. -/
def pageOf (files : List String) : GeneratedPage where
  path := root
  className := Naming.className root
  generated := files.map fun path ↦
    ⟨Naming.generatedPath path, (make path (textOf view path)).source⟩
  markup := files.map fun path ↦ ⟨path, textOf view path⟩

/-- How a walk from the page at `root` ends, if reading the files gives `view`. -/
inductive Ends : Except PageError Projection → Prop
  | success {files : List String} (hfiles : Exhausts (refersTo view make) root files)
      (hpasses : ∀ path ∈ files, ∃ text, Passes view make root path text) :
      Ends (.ok ⟨files, .success (pageOf view make root files)⟩)
  | stop {before : List String} {path : String} {outcome : Except PageError Projection}
      (harrives : Arrives view make root before path)
      (hstop : Stops view make root before path outcome) : Ends outcome

/-- The one end that the contents of the files leave to a walk. -/
structure Exact (outcome : Except PageError Projection) : Prop where
  success : ∀ files page, outcome = .ok ⟨files, .success page⟩ ↔
    Exhausts (refersTo view make) root files ∧
      (∀ path ∈ files, ∃ text, Passes view make root path text) ∧
      page = pageOf view make root files
  /-- The files of a success are those that can be reached, the page itself first. -/
  closure : ∀ files page, outcome = .ok ⟨files, .success page⟩ →
    files.head? = some root ∧ files.Nodup ∧
      ∀ path, path ∈ files ↔ Relation.ReflTransGen (Refers (refersTo view make)) root path
  /-- No file of a success stands in front of a nearer one. -/
  nearest : ∀ files page, outcome = .ok ⟨files, .success page⟩ →
    ∀ steps earlier later (_ : earlier ≤ later) (_ : later < files.length),
      Within (refersTo view make) root steps files[later] →
      Within (refersTo view make) root steps files[earlier]
  diagnostics : ∀ files found, outcome = .ok ⟨files, .diagnostics found⟩ ↔
    ∃ before path text, Arrives view make root before path ∧ view path = .ok text ∧
      (make path text).diagnostics = found ∧ found ≠ [] ∧
      files = discovered (refersTo view make) root before
  fatal : ∀ files message, outcome = .ok ⟨files, .fatal message⟩ ↔
    ∃ text, view root = .ok text ∧ (make root text).diagnostics = [] ∧
      Resolves root (make root text).dependencies ∧ (make root text).hasDirective = false ∧
      files = discovered (refersTo view make) root [root] ∧ message = missingDirective
  error : ∀ error, outcome = .error error ↔
    ∃ before path, Arrives view make root before path ∧ (view path = .error error ∨
      ∃ text front reference after cause, view path = .ok text ∧
        (make path text).diagnostics = [] ∧
        (make path text).dependencies = front ++ reference :: after ∧ Resolves path front ∧
        Path.resolve path reference = .error cause ∧ error = .file reference cause)

end

variable {view : String → Except PageError String} {make : String → String → GeneratedFile}
  {root : String}

/-- The first reference that leads nowhere is found in one way only. -/
theorem eq_of_unresolved {path reference other : String} {front front' after after' : List String}
    {cause cause' : FileError} (h : front ++ reference :: after = front' ++ other :: after')
    (hfront : Resolves path front) (hfront' : Resolves path front')
    (hcause : Path.resolve path reference = .error cause)
    (hcause' : Path.resolve path other = .error cause') : reference = other := by
  rcases List.append_eq_append_iff.mp h with ⟨more, rfl, hmore⟩ | ⟨more, rfl, hmore⟩
  · cases more with
    | nil => exact (List.cons.inj hmore).1
    | cons first more =>
      obtain ⟨rfl, _⟩ := List.cons.inj hmore
      obtain ⟨target, htarget⟩ := hfront' reference (by simp)
      cases hcause.symm.trans htarget
  · cases more with
    | nil => exact (List.cons.inj hmore).1.symm
    | cons first more =>
      obtain ⟨rfl, _⟩ := List.cons.inj hmore
      obtain ⟨target, htarget⟩ := hfront other (by simp)
      cases hcause'.symm.trans htarget

theorem not_resolves {path reference : String} {front after : List String} {cause : FileError}
    (hcause : Path.resolve path reference = .error cause) :
    ¬Resolves path (front ++ reference :: after) := by
  intro h
  obtain ⟨target, htarget⟩ := h reference (by simp)
  cases hcause.symm.trans htarget

/-- A walk goes on by a file or ends there, not both. -/
theorem Stops.not_passes {before : List String} {path text : String}
    {outcome : Except PageError Projection} (h : Stops view make root before path outcome) :
    ¬Passes view make root path text := by
  intro hpasses
  cases h with
  | unread hread => cases hread.symm.trans hpasses.read
  | diagnostics hread hfound =>
    cases hread.symm.trans hpasses.read
    exact hfound hpasses.clean
  | unresolved hread hclean hsplit hfront hcause =>
    cases hread.symm.trans hpasses.read
    exact not_resolves hcause (hsplit ▸ hpasses.resolves)
  | fatal hread hclean hresolves hroot hdirective =>
    cases hread.symm.trans hpasses.read
    rw [hpasses.directive hroot] at hdirective
    contradiction

theorem Stops.unique {before : List String} {path : String}
    {outcome other : Except PageError Projection} (h : Stops view make root before path outcome)
    (hother : Stops view make root before path other) : outcome = other := by
  cases h with
  | unread hread =>
    cases hother with
    | unread hread' =>
      cases hread.symm.trans hread'
      rfl
    | diagnostics hread' _ => cases hread.symm.trans hread'
    | unresolved hread' _ _ _ _ => cases hread.symm.trans hread'
    | fatal hread' _ _ _ _ => cases hread.symm.trans hread'
  | diagnostics hread hfound =>
    cases hother with
    | unread hread' => cases hread.symm.trans hread'
    | diagnostics hread' _ =>
      cases hread.symm.trans hread'
      rfl
    | unresolved hread' hclean _ _ _ =>
      cases hread.symm.trans hread'
      exact absurd hclean hfound
    | fatal hread' hclean _ _ _ =>
      cases hread.symm.trans hread'
      exact absurd hclean hfound
  | unresolved hread hclean hsplit hfront hcause =>
    cases hother with
    | unread hread' => cases hread.symm.trans hread'
    | diagnostics hread' hfound =>
      cases hread.symm.trans hread'
      exact absurd hclean hfound
    | unresolved hread' _ hsplit' hfront' hcause' =>
      cases hread.symm.trans hread'
      obtain rfl := eq_of_unresolved (hsplit.symm.trans hsplit') hfront hfront' hcause hcause'
      cases hcause.symm.trans hcause'
      rfl
    | fatal hread' _ hresolves _ _ =>
      cases hread.symm.trans hread'
      exact absurd (hsplit ▸ hresolves) (not_resolves hcause)
  | fatal hread hclean hresolves hroot hdirective =>
    cases hother with
    | unread hread' => cases hread.symm.trans hread'
    | diagnostics hread' hfound =>
      cases hread.symm.trans hread'
      exact absurd hclean hfound
    | unresolved hread' _ hsplit _ hcause =>
      cases hread.symm.trans hread'
      exact absurd (hsplit ▸ hresolves) (not_resolves hcause)
    | fatal _ _ _ _ _ => rfl

/-- A walk does not go on behind a file at which it ends. -/
theorem not_shorter {before before' : List String} {path path' : String}
    {outcome : Except PageError Projection} (h : Arrives view make root before path)
    (h' : Arrives view make root before' path') (hlt : before.length < before'.length)
    (hstop : Stops view make root before path outcome) : False := by
  have hinitial : before ++ [path] <+: before' :=
    h.order.prefix_of_length_le (breadthFirst_concat_iff.mp h'.order).1
      (by rw [List.length_append, List.length_singleton]; exact hlt)
  obtain ⟨text, htext⟩ := h'.passed path (hinitial.subset (by simp))
  exact hstop.not_passes htext

/-- A walk that ends at a file does not get to the end of the order. -/
theorem not_exhausts {before files : List String} {path : String}
    {outcome : Except PageError Projection} (h : Arrives view make root before path)
    (hstop : Stops view make root before path outcome)
    (hfiles : Exhausts (refersTo view make) root files)
    (hpasses : ∀ path ∈ files, ∃ text, Passes view make root path text) : False := by
  have hmem := (hfiles.isPrefix h.order).subset (List.mem_append_right _ List.mem_cons_self)
  obtain ⟨text, htext⟩ := hpasses path hmem
  exact hstop.not_passes htext

/-- The contents of the files leave only one way in which a walk can end. -/
theorem Ends.unique {outcome other : Except PageError Projection} (h : Ends view make root outcome)
    (hother : Ends view make root other) : outcome = other := by
  cases h with
  | @success files hfiles hpasses =>
    cases hother with
    | @success files' hfiles' hpasses' =>
      obtain rfl : files = files' :=
        (hfiles'.isPrefix hfiles.order).eq_of_length_le (hfiles.isPrefix hfiles'.order).length_le
      rfl
    | stop harrives hstop => exact (not_exhausts harrives hstop hfiles hpasses).elim
  | @stop before path _ harrives hstop =>
    cases hother with
    | success hfiles hpasses => exact (not_exhausts harrives hstop hfiles hpasses).elim
    | @stop before' path' _ harrives' hstop' =>
      -- There is one order only, so two ends differ if one of them comes earlier in it.
      rcases Nat.lt_trichotomy before.length before'.length with hlt | heq | hlt
      · exact (not_shorter harrives harrives' hlt hstop).elim
      · have hinitial := harrives.order.prefix_of_length_le harrives'.order (by simp [heq])
        have hsame := hinitial.eq_of_length (by simp [heq])
        obtain ⟨rfl, hpath⟩ := List.append_inj hsame heq
        obtain rfl := (List.cons.inj hpath).1
        exact hstop.unique hstop'
      · exact (not_shorter harrives' harrives hlt hstop').elim

/-! ## The end -/

theorem arrives_root : Arrives view make root [] root where
  order := breadthFirst_concat_iff.mpr ⟨breadthFirst_nil, getElem?_zero_discovered⟩
  passed := by simp

/-- A walk comes back to the page only at its start. -/
theorem Arrives.eq_nil {before : List String} (h : Arrives view make root before root) :
    before = [] := by
  have hinitial := arrives_root.order.prefix_of_length_le h.order (by simp)
  have hnodup := h.order.nodup
  cases before with
  | nil => rfl
  | cons file before =>
    obtain ⟨more, hmore⟩ := hinitial
    obtain ⟨rfl, _⟩ := List.cons.inj hmore
    simp at hnodup

theorem Ends.exhausts {files : List String} {page : GeneratedPage}
    (h : Ends view make root (.ok ⟨files, .success page⟩)) :
    Exhausts (refersTo view make) root files := by
  cases h with
  | success hfiles hpasses => exact hfiles
  | stop _ hstop => cases hstop

theorem Ends.exact {outcome : Except PageError Projection} (h : Ends view make root outcome) :
    Exact view make root outcome where
  success files page := by
    constructor
    · rintro rfl
      cases h with
      | success hfiles hpasses => exact ⟨hfiles, hpasses, rfl⟩
      | stop _ hstop => cases hstop
    · rintro ⟨hfiles, hpasses, rfl⟩
      exact h.unique (.success hfiles hpasses)
  closure files page := by
    rintro rfl
    exact ⟨h.exhausts.head?_eq, h.exhausts.order.nodup, fun path ↦ h.exhausts.mem_iff⟩
  nearest files page := by
    rintro rfl steps earlier later hle hlater hwithin
    exact h.exhausts.within_of_le hle hlater hwithin
  diagnostics files found := by
    constructor
    · rintro rfl
      cases h with
      | stop harrives hstop =>
        cases hstop with
        | diagnostics hread hfound => exact ⟨_, _, _, harrives, hread, rfl, hfound, rfl⟩
    · rintro ⟨before, path, text, harrives, hread, rfl, hfound, rfl⟩
      exact h.unique (.stop harrives (.diagnostics hread hfound))
  fatal files message := by
    constructor
    · rintro rfl
      cases h with
      | stop harrives hstop =>
        cases hstop with
        | fatal hread hclean hresolves hroot hdirective =>
          subst hroot
          obtain rfl := harrives.eq_nil
          exact ⟨_, hread, hclean, hresolves, hdirective, rfl, rfl⟩
    · rintro ⟨text, hread, hclean, hresolves, hdirective, rfl, rfl⟩
      exact h.unique (.stop arrives_root (.fatal hread hclean hresolves rfl hdirective))
  error error := by
    constructor
    · rintro rfl
      cases h with
      | stop harrives hstop =>
        refine ⟨_, _, harrives, ?_⟩
        cases hstop with
        | unread hread => exact .inl hread
        | unresolved hread hclean hsplit hfront hcause =>
          exact .inr ⟨_, _, _, _, _, hread, hclean, hsplit, hfront, hcause, rfl⟩
    · rintro ⟨before, path, harrives, hread | ⟨text, front, reference, after, cause, hread, hclean,
        hsplit, hfront, hcause, rfl⟩⟩
      · exact h.unique (.stop harrives (.unread hread))
      · exact h.unique (.stop harrives (.unresolved hread hclean hsplit hfront hcause))

end PageScript.Projection
