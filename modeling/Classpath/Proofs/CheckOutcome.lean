import Classpath.Proofs.ClosureVerdict

/-!
# How a check can end

A check ends in one of three ways, and each says what is reachable: everything
reachable resolves, or the first path to an unresolved class ends at a class that a
source fails on, or at one that all sources lack.
-/

namespace Classpath

variable {sources : List ClassSource} {filter : PlatformFilter} {entry : ClassName}

theorem check_cases (sources : List ClassSource) (filter : PlatformFilter) (entry : ClassName) :
    (∃ resolved, (check sources filter entry).result = .ok (.satisfied resolved) ∧
      (∀ name, name ∈ resolved.map (·.name) ↔ Reachable sources filter entry name) ∧
      ∀ item ∈ resolved, ∃ model,
        (resolveFirst sources item.name).1 = .found item.source model) ∨
    ∃ path name, FirstUnresolvedPath sources filter entry path name ∧
      ((∃ error, (check sources filter entry).result = .error error ∧
          (resolveFirst sources name).1 = .failed error) ∨
        (check sources filter entry).result = .ok (.missing name path) ∧
          (resolveFirst sources name).1 = .absent) := by
  obtain ⟨last, actions, hinv, hlast⟩ := exists_last_of_check sources filter entry
  rcases Walk.step_eq_stop hlast with ⟨hworklist, hresult, _⟩ | ⟨name, rest, hworklist, hstop⟩
  · exact .inl ⟨_, hresult, fun name => hinv.mem_resolvedNames_iff hworklist, hinv.found⟩
  · refine .inr ⟨last.chain name, name, ?_⟩
    rcases hstop with ⟨error, hfailed, hresult, _⟩ | ⟨habsent, hresult, _⟩
    · have hname : Unresolved sources name := unresolved_iff.2 (.inl ⟨error, hfailed⟩)
      exact ⟨hinv.firstUnresolvedPath hworklist hname, .inl ⟨error, hresult, hfailed⟩⟩
    · have hname : Unresolved sources name := unresolved_iff.2 (.inr habsent)
      exact ⟨hinv.firstUnresolvedPath hworklist hname, .inr ⟨hresult, habsent⟩⟩

/-- A satisfied check lists the reachable classes, each with the source that it
resolves to. -/
theorem of_check_satisfied {resolved : List ResolvedClass}
    (h : (check sources filter entry).result = .ok (.satisfied resolved)) :
    (∀ name, name ∈ resolved.map (·.name) ↔ Reachable sources filter entry name) ∧
      ∀ item ∈ resolved, ∃ model,
        (resolveFirst sources item.name).1 = .found item.source model := by
  rcases check_cases sources filter entry with
    ⟨found, hresult, hrest⟩ | ⟨_, _, _, ⟨error, hresult, _⟩ | ⟨hresult, _⟩⟩
  · obtain rfl : found = resolved := by simpa [hresult] using h
    exact hrest
  · simp [hresult] at h
  · simp [hresult] at h

/-- Nothing reachable is left unresolved by a satisfied check. -/
theorem resolved_of_check_satisfied {resolved : List ResolvedClass}
    (h : (check sources filter entry).result = .ok (.satisfied resolved)) {name : ClassName}
    (hname : Reachable sources filter entry name) : ¬ Unresolved sources name := by
  obtain ⟨hlisted, hfound⟩ := of_check_satisfied h
  obtain ⟨item, hitem, rfl⟩ := List.mem_map.1 ((hlisted name).2 hname)
  obtain ⟨model, hmodel⟩ := hfound item hitem
  simp [Unresolved, modelOf?, hmodel, Resolution.model?]

/-- The end of the first path to an unresolved class decides how a check ends. -/
theorem FirstUnresolvedPath.check_cases {path : List ClassName} {name : ClassName}
    (h : FirstUnresolvedPath sources filter entry path name) :
    (∃ error, (check sources filter entry).result = .error error ∧
      (resolveFirst sources name).1 = .failed error) ∨
    (check sources filter entry).result = .ok (.missing name path) ∧
      (resolveFirst sources name).1 = .absent := by
  rcases Classpath.check_cases sources filter entry with
    ⟨resolved, hresult, _⟩ | ⟨other, last, hfirst, hend⟩
  · have hreachable := reachable_iff_exists_path.2 ⟨path, h.leads⟩
    exact absurd h.unresolved (resolved_of_check_satisfied hresult hreachable)
  · -- There is only one first path to an unresolved class.
    obtain ⟨rfl, rfl⟩ := hfirst.unique h
    exact hend

/-- What is reported missing is the end of the first path to an unresolved class, with
this path as its chain, if all sources lack it. -/
theorem check_missing_iff {name : ClassName} {chain : List ClassName} :
    (check sources filter entry).result = .ok (.missing name chain) ↔
      FirstUnresolvedPath sources filter entry chain name ∧
        (resolveFirst sources name).1 = .absent := by
  constructor
  · intro h
    rcases check_cases sources filter entry with
      ⟨_, hresult, _⟩ | ⟨path, last, hfirst, ⟨error, hresult, _⟩ | ⟨hresult, habsent⟩⟩
    · simp [hresult] at h
    · simp [hresult] at h
    · obtain ⟨rfl, rfl⟩ : last = name ∧ path = chain := by simpa [hresult] using h
      exact ⟨hfirst, habsent⟩
  · rintro ⟨hfirst, habsent⟩
    rcases hfirst.check_cases with ⟨error, _, hfailed⟩ | ⟨hresult, _⟩
    · simp [habsent] at hfailed
    · exact hresult

/-- A check fails as the sources fail on the end of the first path to an unresolved
class. -/
theorem check_failed_iff {error : CheckError} :
    (check sources filter entry).result = .error error ↔
      ∃ path name, FirstUnresolvedPath sources filter entry path name ∧
        (resolveFirst sources name).1 = .failed error := by
  constructor
  · intro h
    rcases check_cases sources filter entry with
      ⟨_, hresult, _⟩ | ⟨path, last, hfirst, ⟨other, hresult, hfailed⟩ | ⟨hresult, _⟩⟩
    · simp [hresult] at h
    · obtain rfl : other = error := by simpa [hresult] using h
      exact ⟨path, last, hfirst, hfailed⟩
    · simp [hresult] at h
  · rintro ⟨path, name, hfirst, hfailed⟩
    rcases hfirst.check_cases with ⟨other, hresult, hother⟩ | ⟨_, habsent⟩
    · obtain rfl : error = other := by simpa [hfailed] using hother
      exact hresult
    · simp [hfailed] at habsent

/-- A check is satisfied unless an unresolved class is reachable. -/
theorem exists_check_satisfied
    (h : ∀ name, Reachable sources filter entry name → ¬ Unresolved sources name) :
    ∃ resolved, (check sources filter entry).result = .ok (.satisfied resolved) := by
  rcases check_cases sources filter entry with ⟨found, hresult, _⟩ | ⟨path, name, hfirst, _⟩
  · exact ⟨found, hresult⟩
  · exact absurd hfirst.unresolved (h name (reachable_iff_exists_path.2 ⟨path, hfirst.leads⟩))

end Classpath
