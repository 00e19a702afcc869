import PageScript.Proofs.Rendering.Bound

/-!
# Build modes

A module may be emitted for debugging or for release. The two images differ in code, pools and
symbols, yet they are loaded or refused alike, and every class of them renders alike, down to the
place that an error reports.
-/

namespace PageScript.Emission

/-- Behind the last class there is no code, and nothing is rendered. -/
theorem render_of_length_le {κ : Type} [Component κ] {loaded : LoadedModule} {index : Nat}
    (hindex : loaded.classCount ≤ index) (host : Host κ) (limits : LimitSettings) :
    render loaded host limits index = .ok "" := by
  have hcode : loaded.instructions index = [] := by
    rw [LoadedModule.instructions, List.getD_eq_getElem?_getD, List.getElem?_eq_none hindex]
    rfl
  unfold render
  cases limits.maxIncludeDepth with
  | zero => rw [Rendering.run, hcode, Rendering.execute_nil]
  | succ budget => rw [Rendering.run, hcode, Rendering.execute_nil]

/-- Streams that are refused for the same reason, or are loaded to modules in which every class
renders alike. -/
def Alike (streams others : Bytes × Option Bytes) : Prop :=
  (∃ error, LoadedModule.ofBytes streams.1 streams.2 = .error error ∧
    LoadedModule.ofBytes others.1 others.2 = .error error) ∨
  ∃ loaded other, LoadedModule.ofBytes streams.1 streams.2 = .ok loaded ∧
    LoadedModule.ofBytes others.1 others.2 = .ok other ∧ loaded.classCount = other.classCount ∧
    ∀ {κ : Type} [Component κ] (host : Host κ) (limits : LimitSettings) (index : Nat),
      render loaded host limits index = render other host limits index

/-- The build mode changes neither whether a module is loaded nor what its classes render. -/
theorem alike_debug_release (module : BoundModule) (generated markup : List SourceText)
    (options : Options) (attach : Bool) (hnodup : module.classNames.Nodup)
    (hdebug : Fit (streams module generated markup { options with buildMode := .debug } attach))
    (hrelease :
      Fit (streams module generated markup { options with buildMode := .release } attach)) :
    Alike (streams module generated markup { options with buildMode := .debug } attach)
      (streams module generated markup { options with buildMode := .release } attach) := by
  cases hcheck : module.check with
  | error error =>
    obtain ⟨_, _, hload⟩ := ofBytes_streams _ _ _ _ _ hdebug
    obtain ⟨_, _, hother⟩ := ofBytes_streams _ _ _ _ _ hrelease
    rw [hcheck, Outcome.error_bind] at hload hother
    exact .inl ⟨error, hload, hother⟩
  | ok _ =>
    obtain ⟨loaded, hload, hcount, _, hrender⟩ := render_streams hdebug hnodup hcheck
    obtain ⟨other, hother, hcount', _, hrender'⟩ := render_streams hrelease hnodup hcheck
    refine .inr ⟨loaded, other, hload, hother, hcount.trans hcount'.symm, ?_⟩
    intro κ _ host limits index
    cases hcurrent : module.classes[index]? with
    | some current =>
      rw [hrender host limits index current hcurrent, hrender' host limits index current hcurrent]
    | none =>
      rw [List.getElem?_eq_none_iff] at hcurrent
      rw [render_of_length_le (by omega), render_of_length_le (by omega)]

theorem alike_debug_release_greeting :
    greeting.classNames.Nodup ∧
      Alike (streams greeting [⟨"main.kps", "page"⟩] [] ⟨"site", .debug, true, true⟩ true)
        (streams greeting [⟨"main.kps", "page"⟩] [] ⟨"site", .release, true, true⟩ true) := by
  have hnodup : greeting.classNames.Nodup := by decide
  refine ⟨hnodup, alike_debug_release greeting [⟨"main.kps", "page"⟩] []
    ⟨"site", .debug, true, true⟩ true hnodup ?_ ?_⟩
  · exact fit_of_lengths (by decide +kernel) (by decide +kernel)
  · exact fit_of_lengths (by decide +kernel) (by decide +kernel)

end PageScript.Emission
