import Mathlib.Data.List.Basic
import Mathlib.Data.List.TakeWhile
import PageScript.Proofs.Path.NormalForm

/-!
# Paths below a directory

On disk a path is taken apart at its slashes, and a name pushed onto it becomes its last component,
unless the name is itself rooted: then it takes the place of the whole path. The segments of a path
in normal form hold no slash, so that pushing one after the other only ever goes further down.
-/

namespace PageScript.Path

/-! ## Paths on disk -/

/-- A name pushed onto a path. A rooted name replaces the path. -/
def push (directory name : List Char) : List Char :=
  if name.head? = some '/' then name
  else
    match directory.getLast? with
    | none | some '/' => directory ++ name
    | some _ => directory ++ '/' :: name

/-- What a path on disk is made of. -/
inductive Component where
  | root
  | current
  | parent
  | name (name : Segment)
  deriving DecidableEq, Repr

/-- Whether the path is rooted, or begins with a dot of its own. -/
def leading (path : List Char) : List Component :=
  if path.head? = some '/' then [.root]
  else if path.takeWhile (· ≠ '/') = ['.'] then [.current]
  else []

def component? (segment : Segment) : Option Component :=
  if segment = [] ∨ segment = ['.'] then none
  else if segment = ['.', '.'] then some .parent
  else some (.name segment)

/-- The components of a path; a dot is one only where the path begins. -/
def components (path : List Char) : List Component :=
  leading path ++ (path.splitOn '/').filterMap component?

/-! ## Pushing a name -/

variable {directory name : List Char}

theorem component?_of_ordinary (h : Ordinary name) : component? name = some (.name name) := by
  unfold component?
  simp only [h.ne_nil, h.ne_dot, h.ne_dots, or_self, if_false]

theorem head?_ne_slash (h : '/' ∉ name) : name.head? ≠ some '/' :=
  fun hhead ↦ h (List.mem_of_mem_head? hhead)

theorem push_of_getLast? (h : '/' ∉ name) {c : Char} (hc : c ≠ '/')
    (hlast : directory.getLast? = some c) : push directory name = directory ++ '/' :: name := by
  rw [push, if_neg (head?_ne_slash h), hlast]
  simp

theorem leading_append (h : directory ≠ []) (rest : List Char) :
    leading (directory ++ '/' :: rest) = leading directory := by
  have hslash : decide ('/' ≠ '/') = false := rfl
  rw [leading, leading, List.head?_append_of_ne_nil _ h,
    takeWhile_append_cons (p := (· ≠ '/')) hslash]

theorem leading_append_slash (front rest : List Char) :
    leading (front ++ '/' :: rest) = leading (front ++ ['/']) := by
  cases front with
  | nil => rfl
  | cons c front =>
    rw [leading_append (List.cons_ne_nil c front), leading_append (List.cons_ne_nil c front)]

/-- An ordinary name is one component on disk. -/
theorem components_of_ordinary (hname : Ordinary name) (hslash : '/' ∉ name) :
    components name = [.name name] := by
  have hdot : name.takeWhile (· ≠ '/') = name := by
    apply List.takeWhile_eq_self_iff.mpr
    intro c hc
    exact decide_eq_true fun (h : c = '/') ↦ hslash (h ▸ hc)
  rw [components, leading, if_neg (head?_ne_slash hslash), hdot, if_neg hname.ne_dot,
    List.splitOn_eq_singleton hslash]
  simp only [List.filterMap_cons, component?_of_ordinary hname, List.filterMap_nil, List.nil_append]

/-- Nothing of a path is lost behind a slash, and what stands there adds its own components. -/
theorem components_append_slash (h : '/' ∉ name) (front : List Char) :
    components (front ++ '/' :: name) =
      leading (front ++ ['/']) ++ (front.splitOn '/').filterMap component? ++
        (component? name).toList := by
  rw [components, leading_append_slash, List.splitOn_append_cons_self, List.filterMap_append,
    List.splitOn_eq_singleton h, List.append_assoc]
  cases hcomponent : component? name with
  | none => simp only [List.filterMap_cons, hcomponent, List.filterMap_nil, Option.toList_none]
  | some component =>
    simp only [List.filterMap_cons, hcomponent, List.filterMap_nil, Option.toList_some]

theorem push_nil (h : '/' ∉ name) : push [] name = name := by
  rw [push, if_neg (head?_ne_slash h)]
  rfl

/-- Behind a slash, no second one is put. -/
theorem push_append_slash (h : '/' ∉ name) (front : List Char) :
    push (front ++ ['/']) name = front ++ '/' :: name := by
  rw [push, if_neg (head?_ne_slash h), List.getLast?_concat]
  simp

/-- Whatever a directory is called, a name pushed onto it is one more component. -/
theorem components_push (hname : Ordinary name) (hslash : '/' ∉ name) (directory : List Char) :
    components (push directory name) = components directory ++ [.name name] := by
  cases directory using List.reverseRecOn with
  | nil =>
    rw [push_nil hslash, components_of_ordinary hname hslash]
    rfl
  | append_singleton front c =>
    by_cases hc : c = '/'
    · subst hc
      rw [push_append_slash hslash, components_append_slash hslash,
        components_append_slash List.not_mem_nil, component?_of_ordinary hname]
      simp [component?]
    · have hne : front ++ [c] ≠ [] := List.append_ne_nil_of_right_ne_nil front (by simp)
      calc components (push (front ++ [c]) name)
          = components (front ++ [c] ++ '/' :: name) := by
            rw [push_of_getLast? hslash hc List.getLast?_concat]
        _ = components (front ++ [c]) ++ [.name name] := by
            rw [components_append_slash hslash, leading_append hne, component?_of_ordinary hname]
            rfl

/-! ## Pushing one name after the other -/

/-- Names that can be pushed without leaving a directory. -/
def Descends (names : List Segment) : Prop := ∀ name ∈ names, Ordinary name ∧ '/' ∉ name

/-- Names that are pushed one after the other are the last components, in order. -/
theorem components_foldl_push {names : List Segment} (h : Descends names) (directory : List Char) :
    components (names.foldl push directory) = components directory ++ names.map .name := by
  induction names generalizing directory with
  | nil => rw [List.foldl_nil, List.map_nil, List.append_nil]
  | cons name rest ih =>
    have hrest := List.forall_mem_cons.mp h
    calc components ((name :: rest).foldl push directory)
        = components (push directory name) ++ rest.map .name := ih hrest.2 _
      _ = components directory ++ [.name name] ++ rest.map .name := by
          rw [components_push hrest.1.1 hrest.1.2]
      _ = components directory ++ (name :: rest).map .name := by
          rw [List.append_assoc, List.map_cons, List.singleton_append]

theorem below_of_getLast? {c : Char} (hc : c ≠ '/') (hlast : directory.getLast? = some c)
    (names : List Segment) : below directory names = directory ++ join names := by
  cases names with
  | nil => exact (List.append_nil directory).symm
  | cons name rest =>
    rw [below, hlast]
    simp

theorem exists_push_eq_append (h : '/' ∉ name) (directory : List Char) :
    ∃ front, push directory name = front ++ name := by
  cases directory using List.reverseRecOn with
  | nil => exact ⟨[], push_nil h⟩
  | append_singleton front c =>
    by_cases hc : c = '/'
    · subst hc
      rw [push_append_slash h]
      exact ⟨front ++ ['/'], by simp⟩
    · rw [push_of_getLast? h hc List.getLast?_concat]
      exact ⟨front ++ [c] ++ ['/'], by simp⟩

/-- A path that a name has been pushed onto does not end in a slash. -/
theorem exists_getLast?_push (hname : Ordinary name) (hslash : '/' ∉ name)
    (directory : List Char) : ∃ c, c ≠ '/' ∧ (push directory name).getLast? = some c := by
  obtain ⟨front, hpush⟩ := exists_push_eq_append hslash directory
  obtain ⟨init, c, hconcat⟩ := (List.eq_nil_or_concat name).resolve_left hname.ne_nil
  rw [List.concat_eq_append] at hconcat
  subst hconcat
  refine ⟨c, fun hc ↦ hslash (by simp [hc]), ?_⟩
  rw [hpush, ← List.append_assoc, List.getLast?_concat]

/-- The path below a directory goes through its first name. -/
theorem below_cons {name : Segment} (hname : Ordinary name) (hslash : '/' ∉ name)
    (directory : List Char) (rest : List Segment) :
    below directory (name :: rest) = below (push directory name) rest := by
  obtain ⟨c, hc, hlast⟩ := exists_getLast?_push hname hslash directory
  rw [below_of_getLast? hc hlast]
  cases directory using List.reverseRecOn with
  | nil =>
    rw [push_nil hslash]
    rfl
  | append_singleton front c =>
    by_cases hc : c = '/'
    · subst hc
      rw [push_append_slash hslash, below, List.getLast?_concat]
      simp
    · rw [below_of_getLast? hc List.getLast?_concat,
        push_of_getLast? hslash hc List.getLast?_concat]
      exact (List.append_assoc _ ('/' :: name) (join rest)).symm

/-- A path below a directory is what pushing its names gives. -/
theorem below_eq_foldl_push {names : List Segment} (h : Descends names) (directory : List Char) :
    below directory names = names.foldl push directory := by
  induction names generalizing directory with
  | nil => rfl
  | cons name rest ih =>
    have hrest := List.forall_mem_cons.mp h
    calc below directory (name :: rest) = below (push directory name) rest :=
          below_cons hrest.1.1 hrest.1.2 directory rest
      _ = (name :: rest).foldl push directory := ih hrest.2 _

/-! ## Virtual paths on disk -/

/-- A path in normal form has no name that could lead up or back to the root. -/
theorem Canonical.descends {path : String} {names : List Segment} (h : Canonical path names) :
    Descends names :=
  fun name hname ↦ ⟨h.ordinary name hname, (h.plain name hname).1⟩

theorem Canonical.segments_eq {path : String} {names : List Segment} (h : Canonical path names) :
    segments path = names := by
  have hkeep : names.filter (· ≠ []) = names :=
    List.filter_eq_self.mpr fun name hname ↦ decide_eq_true (h.ordinary name hname).ne_nil
  calc segments path = (path.toList.splitOn '/').filter (· ≠ []) := by
        rw [segments, cut_eq_splitOn]
    _ = ([] :: names).filter (· ≠ []) := by
        rw [h.eq_rooted, rooted_eq_join h.ne_nil, String.toList_ofList, h.plain.splitOn_join_eq]
    _ = names := by rw [List.filter_cons_of_neg (by decide), hkeep]

/-- A virtual path lies where the segments of its normal form lead from the root. -/
theorem physical_eq_ok_iff {root path place : String} : physical root path = .ok place ↔
    ∃ normal names, normalize path = .ok normal ∧ Canonical normal names ∧
      place = String.ofList (names.foldl push root.toList) := by
  rw [physical, Outcome.bind_eq_ok]
  constructor
  · intro h
    obtain ⟨normal, hnormal, hplace⟩ := h
    obtain ⟨names, hnames⟩ := canonical_of_normalize hnormal
    rw [hnames.segments_eq, below_eq_foldl_push hnames.descends, Outcome.pure_eq,
      Except.ok.injEq] at hplace
    exact ⟨normal, names, hnormal, hnames, hplace.symm⟩
  · intro h
    obtain ⟨normal, names, hnormal, hnames, rfl⟩ := h
    refine ⟨normal, hnormal, ?_⟩
    rw [hnames.segments_eq, below_eq_foldl_push hnames.descends, Outcome.pure_eq]

/-- A path has a place on disk exactly if it has a normal form. -/
theorem physical_eq_ok_iff_normalize {root path : String} :
    (∃ place, physical root path = .ok place) ↔ ∃ normal, normalize path = .ok normal := by
  constructor
  · intro h
    obtain ⟨place, hplace⟩ := h
    obtain ⟨normal, names, hnormal, _⟩ := physical_eq_ok_iff.mp hplace
    exact ⟨normal, hnormal⟩
  · intro h
    obtain ⟨normal, hnormal⟩ := h
    obtain ⟨names, hnames⟩ := canonical_of_normalize hnormal
    exact ⟨_, physical_eq_ok_iff.mpr ⟨normal, names, hnormal, hnames, rfl⟩⟩

/-- Every place on disk is the root and some names below it. -/
theorem exists_names_of_physical {root path place : String} (h : physical root path = .ok place) :
    ∃ normal names, normalize path = .ok normal ∧ Canonical normal names ∧
      place = String.ofList (names.foldl push root.toList) ∧
      components place.toList = components root.toList ++ names.map .name := by
  obtain ⟨normal, names, hnormal, hnames, rfl⟩ := physical_eq_ok_iff.mp h
  rw [String.toList_ofList, components_foldl_push hnames.descends]
  exact ⟨normal, names, hnormal, hnames, rfl, rfl⟩

/-- Places tell normal forms apart, even if only their components are looked at. -/
theorem normalize_eq_of_components_eq {root path other place place' : String}
    (h : physical root path = .ok place) (h' : physical root other = .ok place')
    (heq : components place.toList = components place'.toList) :
    normalize path = normalize other := by
  obtain ⟨normal, names, hnormal, hnames, _, hplace⟩ := exists_names_of_physical h
  obtain ⟨normal', names', hnormal', hnames', _, hplace'⟩ := exists_names_of_physical h'
  have hinjective : Function.Injective Component.name := fun _ _ hname ↦ Component.name.inj hname
  rw [hplace, hplace', List.append_right_inj] at heq
  have hsame : names = names' := List.map_injective_iff.mpr hinjective heq
  rw [hnormal, hnormal', hnames.eq_rooted, hnames'.eq_rooted, hsame]

/-- Spellings with one normal form have one place. -/
theorem physical_congr {path other : String} (h : normalize path = normalize other)
    (root : String) : physical root path = physical root other := by
  rw [physical, physical, h]

/-- A path that leaves the root is refused, whatever the root is. -/
theorem physical_of_climbs {path : String} (h : Climbs (written path)) (root : String) :
    physical root path = .error (.invalidPath path "escapes the provider root") := by
  have hnormal : normalize path = .error (.invalidPath path "escapes the provider root") :=
    normalize_eq_iff.mpr (.escape h)
  rw [physical, hnormal]
  rfl

/-- The end of a chain of references is in normal form, whatever file the chain starts in. -/
theorem canonical_of_foldlM_resolve {source last : String} {references : List String}
    (hne : references ≠ []) (h : references.foldlM resolve source = .ok last) :
    ∃ segments, Canonical last segments := by
  cases references using List.reverseRecOn with
  | nil => contradiction
  | append_singleton front reference =>
    rw [List.foldlM_append, Outcome.bind_eq_ok] at h
    obtain ⟨file, _, hlast⟩ := h
    rw [List.foldlM_cons, Outcome.bind_eq_ok] at hlast
    obtain ⟨place, hplace, hlast⟩ := hlast
    cases hlast
    exact canonical_of_resolve hplace

/-- A virtual path lies below the root, by one or more names, or nowhere at all. -/
theorem physical_below_root (root : String) :
    (∀ path place, physical root path = .ok place → ∃ names, names ≠ [] ∧ Descends names ∧
      place = String.ofList (names.foldl push root.toList) ∧
      components place.toList = components root.toList ++ names.map .name) ∧
    (∀ path, (∃ place, physical root path = .ok place) ↔ ∃ normal, normalize path = .ok normal) ∧
    (∀ path other place place', physical root path = .ok place →
      physical root other = .ok place' →
      (place = place' ↔ normalize path = normalize other) ∧
      (components place.toList = components place'.toList ↔ normalize path = normalize other)) ∧
    (∀ path, Climbs (written path) →
      physical root path = .error (.invalidPath path "escapes the provider root")) ∧
    (∀ source references last, references ≠ [] → references.foldlM resolve source = .ok last →
      ∃ place, physical root last = .ok place) := by
  refine ⟨?_, fun path ↦ physical_eq_ok_iff_normalize, ?_, fun path h ↦ physical_of_climbs h root,
    ?_⟩
  · intro path place h
    obtain ⟨normal, names, _, hnames, hplace⟩ := exists_names_of_physical h
    exact ⟨names, hnames.ne_nil, hnames.descends, hplace⟩
  · intro path other place place' h h'
    have hcongr (heq : normalize path = normalize other) : place = place' := by
      rw [physical_congr heq, h', Except.ok.injEq] at h
      exact h.symm
    have hcomponents := normalize_eq_of_components_eq h h'
    exact ⟨⟨fun heq ↦ hcomponents (heq ▸ rfl), hcongr⟩,
      ⟨hcomponents, fun heq ↦ hcongr heq ▸ rfl⟩⟩
  · intro source references last hne h
    obtain ⟨names, hnames⟩ := canonical_of_foldlM_resolve hne h
    exact physical_eq_ok_iff_normalize.mpr ⟨last, hnames.normalize_eq⟩

theorem physical_below_root_site :
    physical "/srv/site/" "~\\pages/./a.kpage" = .ok "/srv/site/pages/a.kpage" ∧
    physical "/srv/site/" "pages//a.kpage" = .ok "/srv/site/pages/a.kpage" ∧
    normalize "~\\pages/./a.kpage" = normalize "pages//a.kpage" ∧
    Climbs (written "/../etc/passwd") ∧
    physical "/srv/site/" "/../etc/passwd" =
      .error (.invalidPath "/../etc/passwd" "escapes the provider root") := by
  have hpath : physical "/srv/site/" "~\\pages/./a.kpage" = .ok "/srv/site/pages/a.kpage" := by
    decide
  have hother : physical "/srv/site/" "pages//a.kpage" = .ok "/srv/site/pages/a.kpage" := by decide
  have hclimbs : Climbs (written "/../etc/passwd") :=
    ⟨[[]], ["etc".toList, "passwd".toList], by decide, Leaves.start.skip (.inl rfl)⟩
  obtain ⟨_, _, hsame, hescape, _⟩ := physical_below_root "/srv/site/"
  exact ⟨hpath, hother, (hsame _ _ _ _ hpath hother).1.mp rfl, hclimbs, hescape _ hclimbs⟩

end PageScript.Path
