import Classpath.Proofs.CheckOutcome

/-!
# Sources added at the end

A walk over more sources goes through the same rounds as a walk over the first of
them, up to the class at which that one stops.  So a satisfied or failed check stays
as it is, and a missing class stays missing unless one of the added sources answers
for it; then the walk goes on, and what it may miss lies behind a later chain.
-/

namespace Classpath

variable {sources more : List ClassSource} {filter : PlatformFilter} {entry : ClassName}

theorem resolveFirst_append_of_ne_absent {name : ClassName}
    (h : (resolveFirst sources name).1 ≠ .absent) (more : List ClassSource) :
    resolveFirst (sources ++ more) name = resolveFirst sources name :=
  resolveFrom_append_of_ne_absent h more

/-- A class that the first sources lack is lacked by all if the others lack it too. -/
theorem resolveFirst_append_eq_absent_iff {name : ClassName}
    (h : (resolveFirst sources name).1 = .absent) :
    (resolveFirst (sources ++ more) name).1 = .absent ↔ ∀ source ∈ more, source.Lacks name := by
  have hsources : ∀ source ∈ sources, source.Lacks name := resolveFrom_eq_absent_iff.1 h
  rw [resolveFirst, resolveFrom_eq_absent_iff, List.forall_mem_append]
  exact and_iff_right hsources

namespace Walk

/-- A round that found its class is the same with more sources. -/
theorem Continues.append {walk next : Walk} (h : Continues sources filter walk next)
    (more : List ClassSource) : Continues (sources ++ more) filter walk next := by
  obtain ⟨actions, hstep⟩ := h
  obtain ⟨name, rest, source, model, hworklist, hfound, _⟩ := step_eq_next hstep
  refine ⟨actions, ?_⟩
  rw [← hstep]
  apply step_congr
  intro other hother
  obtain rfl : name = other := by simpa [hworklist] using hother
  exact resolveFirst_append_of_ne_absent (by simp [hfound]) more

end Walk

/-- The walk over all sources goes through the state in which the walk over the
first of them stops. -/
theorem exists_last_append (sources more : List ClassSource) (filter : PlatformFilter)
    (entry : ClassName) :
    ∃ last actions, last.step sources filter = (.stop (check sources filter entry).result, actions) ∧
      Walk.Invariant (sources ++ more) filter entry last ∧
      (check (sources ++ more) filter entry).result = (last.run (sources ++ more) filter).result := by
  obtain ⟨last, actions, hsteps, hlast⟩ := Walk.exists_last sources filter (Walk.start entry)
  have hmore : Relation.ReflTransGen (Walk.Continues (sources ++ more) filter)
      (Walk.start entry) last :=
    Relation.ReflTransGen.mono (fun _ _ hnext => hnext.append more) _ _ hsteps
  exact ⟨last, actions, hlast, Walk.invariant_of_continues hmore,
    Walk.run_result_of_continues hmore⟩

/-- Only a check that misses a class can turn out differently with more sources. -/
theorem check_append_of_not_missing
    (h : ∀ name chain, (check sources filter entry).result ≠ .ok (.missing name chain)) :
    (check (sources ++ more) filter entry).result = (check sources filter entry).result := by
  obtain ⟨last, actions, hlast, _, hresult⟩ := exists_last_append sources more filter entry
  have hsame : last.step (sources ++ more) filter = last.step sources filter := by
    apply Walk.step_congr
    intro name hname
    rcases Walk.step_eq_stop hlast with
      ⟨hworklist, _⟩ | ⟨stop, rest, hworklist, ⟨error, hfailed, _⟩ | ⟨_, hmissing, _⟩⟩
    · simp [hworklist] at hname
    · obtain rfl : stop = name := by simpa [hworklist] using hname
      exact resolveFirst_append_of_ne_absent (by simp [hfailed]) more
    · exact absurd hmissing (h _ _)
  rw [hlast] at hsame
  rw [hresult, Walk.run_of_stop hsame]

/-- What a check with more sources does when a class was missing without them. -/
theorem check_append_of_missing {name : ClassName} {chain : List ClassName}
    (h : (check sources filter entry).result = .ok (.missing name chain)) :
    ((∀ source ∈ more, source.Lacks name) →
      (check (sources ++ more) filter entry).result = .ok (.missing name chain)) ∧
    ∀ other later, (check (sources ++ more) filter entry).result = .ok (.missing other later) →
      NotAfter chain later := by
  obtain ⟨last, actions, hlast, hinv, hresult⟩ := exists_last_append sources more filter entry
  rcases Walk.step_eq_stop hlast with
    ⟨_, hother, _⟩ | ⟨stop, rest, hworklist, ⟨error, _, hother, _⟩ | ⟨habsent, hmissing, _⟩⟩
  · simp [h] at hother
  · simp [h] at hother
  · obtain ⟨rfl, rfl⟩ : name = stop ∧ chain = last.chain stop := by simpa [h] using hmissing
    constructor
    · intro hlacks
      rw [hresult]
      exact Walk.run_of_absent hworklist ((resolveFirst_append_eq_absent_iff habsent).2 hlacks)
    · -- The class looked for next has the first chain of all that may still lead to a missing one.
      intro other later hlater
      have hfirst := (check_missing_iff.1 hlater).1
      exact hinv.chain_notAfter_of_unresolved hworklist hfirst.leads hfirst.unresolved

/-- Sources added at the end leave satisfied and failed checks as they are.  A class
that was missing stays missing, with the same chain, if the added sources lack it, and
otherwise whatever is missing is reported with a later chain. -/
theorem check_append_sources (sources more : List ClassSource) (filter : PlatformFilter)
    (entry : ClassName) :
    (∀ resolved, (check sources filter entry).result = .ok (.satisfied resolved) →
      (check (sources ++ more) filter entry).result = .ok (.satisfied resolved)) ∧
    (∀ error, (check sources filter entry).result = .error error →
      (check (sources ++ more) filter entry).result = .error error) ∧
    ∀ name chain, (check sources filter entry).result = .ok (.missing name chain) →
      ((∀ source ∈ more, source.Lacks name) →
        (check (sources ++ more) filter entry).result = .ok (.missing name chain)) ∧
      ((∃ source ∈ more, ¬ source.Lacks name) → ∀ other later,
        (check (sources ++ more) filter entry).result = .ok (.missing other later) →
          ¬ NotAfter later chain) := by
  refine ⟨fun resolved h => ?_, fun error h => ?_, fun name chain h => ⟨?_, ?_⟩⟩
  · rw [check_append_of_not_missing (by simp [h]), h]
  · rw [check_append_of_not_missing (by simp [h]), h]
  · exact (check_append_of_missing h).1
  · rintro ⟨source, hsource, hanswers⟩ other later hlater hle
    -- With equal chains the class that an added source answers for would be missing again.
    obtain rfl : chain = later := ((check_append_of_missing h).2 other later hlater).antisymm hle
    obtain ⟨hfirst, habsent⟩ := check_missing_iff.1 h
    obtain ⟨hfirst', habsent'⟩ := check_missing_iff.1 hlater
    have hname : some other = some name := by
      rw [← hfirst.leads.getLast?_eq, ← hfirst'.leads.getLast?_eq]
    obtain rfl := Option.some.inj hname
    exact hanswers ((resolveFirst_append_eq_absent_iff habsent).1 habsent' source hsource)

/-- A source without the class that the relay misses. -/
def bystander : ClassSource := .inMemory "bystander" [(⟨"a"⟩, .decoded (callerOf "z"))]

/-- A source with the class that the relay misses. -/
def successor : ClassSource := .inMemory "successor" [(⟨"c"⟩, .decoded (callerOf "d"))]

/-- With its successor the relay goes one class further. -/
theorem check_relay_append_successor :
    (check (relay ++ [successor]) .empty ⟨"a"⟩).result =
      .ok (.missing ⟨"d"⟩ [⟨"a"⟩, ⟨"b"⟩, ⟨"c"⟩, ⟨"d"⟩]) := by
  have hb : (callerOf "b").references .empty = [⟨"b"⟩] := by cbv
  have hc : (callerOf "c").references .empty = [⟨"c"⟩] := by cbv
  have hd : (callerOf "d").references .empty = [⟨"d"⟩] := by cbv
  calc (check (relay ++ [successor]) .empty ⟨"a"⟩).result = _ := Walk.run_of_found rfl rfl hb
    _ = _ := Walk.run_of_found rfl rfl hc
    _ = _ := Walk.run_of_found rfl rfl hd
    _ = _ := Walk.run_of_absent rfl rfl

theorem check_relay_append :
    (check relay .empty ⟨"a"⟩).result = .ok (.missing ⟨"c"⟩ [⟨"a"⟩, ⟨"b"⟩, ⟨"c"⟩]) ∧
    (check (relay ++ [bystander]) .empty ⟨"a"⟩).result =
      .ok (.missing ⟨"c"⟩ [⟨"a"⟩, ⟨"b"⟩, ⟨"c"⟩]) ∧
    (check (relay ++ [successor]) .empty ⟨"a"⟩).result =
      .ok (.missing ⟨"d"⟩ [⟨"a"⟩, ⟨"b"⟩, ⟨"c"⟩, ⟨"d"⟩]) ∧
    ¬ NotAfter [⟨"a"⟩, ⟨"b"⟩, ⟨"c"⟩, ⟨"d"⟩] [⟨"a"⟩, ⟨"b"⟩, ⟨"c"⟩] := by
  have hmissing : (check relay .empty ⟨"a"⟩).result =
      .ok (.missing ⟨"c"⟩ [⟨"a"⟩, ⟨"b"⟩, ⟨"c"⟩]) :=
    check_missing_iff.2 ⟨firstUnresolvedPath_relay, rfl⟩
  have hlacks : ∀ source ∈ [bystander], source.Lacks ⟨"c"⟩ := by decide
  have hanswers : ∃ source ∈ [successor], ¬ source.Lacks ⟨"c"⟩ := by decide
  refine ⟨hmissing, ?_, check_relay_append_successor, ?_⟩
  · exact ((check_append_sources relay [bystander] .empty ⟨"a"⟩).2.2 _ _ hmissing).1 hlacks
  · exact ((check_append_sources relay [successor] .empty ⟨"a"⟩).2.2 _ _ hmissing).2 hanswers _ _
      check_relay_append_successor

end Classpath
