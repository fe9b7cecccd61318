import Classpath.InMemory
import Classpath.Proofs.LeastChain
import Classpath.Proofs.Resolution
import Mathlib.Order.Bounds.Basic

/-!
# What a check reports

A check is satisfied exactly when every class reachable from the entry resolves,
and then it lists these classes by distance from the entry.  Otherwise it
reports the unresolved class at the end of the first of all paths that lead to
unresolved classes, with that path as its chain.
-/

namespace Classpath

/-- A check ends in a state of the walk from its entry. -/
theorem exists_last_of_check (sources : List ClassSource) (filter : PlatformFilter)
    (entry : ClassName) :
    ∃ last actions, Walk.Invariant sources filter entry last ∧
      last.step sources filter = (.stop (check sources filter entry).result, actions) := by
  obtain ⟨last, actions, hsteps, hlast⟩ := Walk.exists_last sources filter (Walk.start entry)
  exact ⟨last, actions, Walk.invariant_of_continues hsteps, hlast⟩

theorem unresolved_iff {sources : List ClassSource} {name : ClassName} :
    Unresolved sources name ↔
      (∃ error, (resolveFirst sources name).1 = .failed error) ∨
        (resolveFirst sources name).1 = .absent := by
  unfold Unresolved modelOf?
  cases (resolveFirst sources name).1 with
  | absent => simp [Resolution.model?]
  | found source model => simp [Resolution.model?]
  | failed error => simp [Resolution.model?]

namespace Walk.Invariant

variable {sources : List ClassSource} {filter : PlatformFilter} {entry : ClassName} {walk : Walk}

/-- With nothing left to look up, the resolved classes are the reachable ones. -/
theorem mem_resolvedNames_iff (hinv : Invariant sources filter entry walk)
    (hworklist : walk.worklist = []) {name : ClassName} :
    name ∈ walk.resolvedNames ↔ Reachable sources filter entry name := by
  constructor
  · intro hname
    exact hinv.reachable_of_mem_order (List.mem_append_left _ hname)
  · intro hreachable
    obtain ⟨path, hpath⟩ := reachable_iff_exists_path.1 hreachable
    rcases hinv.resolved_or_worklist hpath with hresolved | ⟨first, hfirst, _⟩
    · exact hresolved
    · simp [hworklist] at hfirst

theorem resolves_of_mem_resolvedNames (hinv : Invariant sources filter entry walk)
    {name : ClassName} (hname : name ∈ walk.resolvedNames) :
    ∃ source model, (resolveFirst sources name).1 = .found source model := by
  obtain ⟨item, hitem, rfl⟩ := List.mem_map.1 hname
  obtain ⟨model, hfound⟩ := hinv.found item hitem
  exact ⟨item.source, model, hfound⟩

/-- The first class of the worklist has the first chain of all that lead to
unresolved classes. -/
theorem chain_notAfter_of_unresolved (hinv : Invariant sources filter entry walk)
    {name : ClassName} {rest : List ClassName} (hworklist : walk.worklist = name :: rest)
    {path : List ClassName} {last : ClassName} (hpath : Path sources filter entry path last)
    (hlast : Unresolved sources last) : NotAfter (walk.chain name) path := by
  rcases hinv.resolved_or_worklist hpath with hresolved | ⟨first, hfirst, start, hstart, hprefix⟩
  · obtain ⟨source, model, hfound⟩ := hinv.resolves_of_mem_resolvedNames hresolved
    simp [Unresolved, modelOf?, hfound, Resolution.model?] at hlast
  · -- The path leaves the resolved classes at `first`, which is not before the head of the worklist.
    have hheadFirst : NotAfter (walk.chain name) (walk.chain first) := by
      have hsorted := (List.pairwise_append.1 hinv.sorted).2.1
      rw [hworklist] at hsorted hfirst
      rcases List.mem_cons.1 hfirst with rfl | hmem
      · exact .inl rfl
      · exact .inr (List.rel_of_pairwise_cons hsorted hmem)
    have hleast := hinv.chain_notAfter (List.mem_append_right _ hfirst) hstart
    exact (hheadFirst.trans hleast).trans (.of_isPrefix hprefix)

end Walk.Invariant

/-- A check is satisfied exactly when all reachable classes resolve.  It then
lists each of them once, with the first source that defines it, the entry first
and the others by their distance from the entry. -/
theorem check_satisfied_iff_reachable_resolve (sources : List ClassSource)
    (filter : PlatformFilter) (entry : ClassName) :
    ((∃ resolved, (check sources filter entry).result = .ok (.satisfied resolved)) ↔
      ∀ name, Reachable sources filter entry name →
        ∃ source model, (resolveFirst sources name).1 = .found source model) ∧
    ∀ resolved, (check sources filter entry).result = .ok (.satisfied resolved) →
      (resolved.map (·.name)).Nodup ∧
      (∀ name, name ∈ resolved.map (·.name) ↔ Reachable sources filter entry name) ∧
      (∀ item ∈ resolved, IsLeast
        {index | ∃ source, sources[index]? = some source ∧ source.Defines item.name} item.source) ∧
      (resolved.map (·.name)).head? = some entry ∧
      (resolved.map (·.name)).Pairwise fun a b =>
        distance sources filter entry a ≤ distance sources filter entry b := by
  obtain ⟨last, actions, hinv, hlast⟩ := exists_last_of_check sources filter entry
  rcases Walk.step_eq_stop hlast with ⟨hworklist, hresult, _⟩ | ⟨name, rest, hworklist, hstop⟩
  · -- Nothing is left, so the names seen are the resolved ones.
    have horder : last.order = last.resolved.map (·.name) := by
      simp [Walk.order, Walk.resolvedNames, hworklist]
    refine ⟨⟨fun _ name hname => ?_, fun _ => ⟨_, hresult⟩⟩, fun resolved hresolved => ?_⟩
    · exact hinv.resolves_of_mem_resolvedNames ((hinv.mem_resolvedNames_iff hworklist).2 hname)
    · obtain rfl : last.resolved = resolved := by simpa [hresult] using hresolved
      rw [← horder]
      refine ⟨hinv.nodup, fun name => ?_, fun item hitem => ?_, hinv.head,
        hinv.pairwise_distance_le⟩
      · rw [horder]
        exact hinv.mem_resolvedNames_iff hworklist
      · obtain ⟨model, hfound⟩ := hinv.found item hitem
        obtain ⟨hdefines, hleast⟩ := source_isLeast_of_found hfound
        refine ⟨hdefines, ?_⟩
        rintro index ⟨source, hsource, hdef⟩
        exact hleast index source hsource hdef
  · -- The walk stopped at a reachable class that does not resolve.
    have hunsatisfied : ∀ resolved,
        (check sources filter entry).result ≠ .ok (.satisfied resolved) := by
      intro resolved h
      rcases hstop with ⟨error, _, hresult, _⟩ | ⟨_, hresult, _⟩
      · simp [hresult] at h
      · simp [hresult] at h
    have hreachable : Reachable sources filter entry name := by
      apply hinv.reachable_of_mem_order
      simp [Walk.order, hworklist]
    refine ⟨⟨?_, ?_⟩, fun resolved h => absurd h (hunsatisfied resolved)⟩
    · rintro ⟨resolved, h⟩
      exact absurd h (hunsatisfied resolved)
    · intro hall
      obtain ⟨source, model, hfound⟩ := hall name hreachable
      rcases hstop with ⟨error, hfailed, _⟩ | ⟨habsent, _⟩
      · simp [hfound] at hfailed
      · simp [hfound] at habsent

/-! ## The reported chain -/

/-- Of all paths from the entry to unresolved classes, this is the first. -/
structure FirstUnresolvedPath (sources : List ClassSource) (filter : PlatformFilter)
    (entry : ClassName) (path : List ClassName) (name : ClassName) : Prop where
  leads : Path sources filter entry path name
  unresolved : Unresolved sources name
  first : ∀ other last, Path sources filter entry other last → Unresolved sources last →
    NotAfter path other

theorem FirstUnresolvedPath.unique {sources : List ClassSource} {filter : PlatformFilter}
    {entry : ClassName} {path other : List ClassName} {name last : ClassName}
    (h : FirstUnresolvedPath sources filter entry path name)
    (h' : FirstUnresolvedPath sources filter entry other last) : path = other ∧ name = last := by
  have heq : path = other :=
    (h.first other last h'.leads h'.unresolved).antisymm
      (h'.first path name h.leads h.unresolved)
  have hlast : some name = some last := by
    rw [← h.leads.getLast?_eq, ← h'.leads.getLast?_eq, heq]
  exact ⟨heq, Option.some.inj hlast⟩

/-- The state in which a walk stops shows the first path to an unresolved class. -/
theorem Walk.Invariant.firstUnresolvedPath {sources : List ClassSource}
    {filter : PlatformFilter} {entry name : ClassName} {walk : Walk} {rest : List ClassName}
    (hinv : Invariant sources filter entry walk) (hworklist : walk.worklist = name :: rest)
    (hname : Unresolved sources name) :
    FirstUnresolvedPath sources filter entry (walk.chain name) name where
  leads := hinv.path_chain (by simp [order, hworklist])
  unresolved := hname
  first _ _ hpath hlast := hinv.chain_notAfter_of_unresolved hworklist hpath hlast

/-- If an unresolved class is reachable, there is a first path to one.  The check
fails with the error of its last class, or reports that class as missing with
this path as its chain. -/
theorem check_reports_first_unresolved_path (sources : List ClassSource)
    (filter : PlatformFilter) (entry : ClassName)
    (hunresolved : ∃ name, Reachable sources filter entry name ∧ Unresolved sources name) :
    (∃ path name, FirstUnresolvedPath sources filter entry path name) ∧
    ∀ path name, FirstUnresolvedPath sources filter entry path name →
      ((∃ error, (resolveFirst sources name).1 = .failed error ∧
          (check sources filter entry).result = .error error) ∨
        (resolveFirst sources name).1 = .absent ∧
          (check sources filter entry).result = .ok (.missing name path)) ∧
      path.head? = some entry ∧ path.getLast? = some name ∧
      path.IsChain (RefersTo sources filter) ∧
      (∀ other ∈ path.dropLast, ¬ Unresolved sources other) ∧
      ∀ other last, Path sources filter entry other last → Unresolved sources last →
        path.length ≤ other.length := by
  obtain ⟨last, actions, hinv, hlast⟩ := exists_last_of_check sources filter entry
  rcases Walk.step_eq_stop hlast with ⟨hworklist, _⟩ | ⟨stop, rest, hworklist, hstop⟩
  · -- With an empty worklist every reachable class would have been resolved.
    obtain ⟨name, hreachable, hname⟩ := hunresolved
    obtain ⟨source, model, hfound⟩ := hinv.resolves_of_mem_resolvedNames
      ((hinv.mem_resolvedNames_iff hworklist).2 hreachable)
    simp [Unresolved, modelOf?, hfound, Resolution.model?] at hname
  · have hstopUnresolved : Unresolved sources stop := by
      rcases hstop with ⟨error, hfailed, _⟩ | ⟨habsent, _⟩
      · exact unresolved_iff.2 (.inl ⟨error, hfailed⟩)
      · exact unresolved_iff.2 (.inr habsent)
    have hfirst := hinv.firstUnresolvedPath hworklist hstopUnresolved
    -- There is only one first path, so any other description of it is the same.
    refine ⟨⟨_, _, hfirst⟩, fun path name h => ?_⟩
    obtain ⟨rfl, rfl⟩ := hfirst.unique h
    refine ⟨?_, h.leads.head?_eq, h.leads.getLast?_eq, h.leads.isChain,
      fun other hother => h.leads.resolves_of_mem_dropLast hother,
      fun other last hpath hbad => (h.first other last hpath hbad).length_le⟩
    rcases hstop with ⟨error, hfailed, hresult, _⟩ | ⟨habsent, hresult, _⟩
    · exact .inl ⟨error, hfailed, hresult⟩
    · exact .inr ⟨habsent, hresult⟩

/-- A class whose only method calls a static method of another. -/
def callerOf (owner : String) : ClassModel :=
  { methods := [{
      name := "run", descriptor := "()V", instructions := [.invoke .invokestatic owner] }] }

/-- Two classes, each calling the next; the last one called is nowhere. -/
def relay : List ClassSource :=
  [.inMemory "relay" [(⟨"a"⟩, .decoded (callerOf "b")), (⟨"b"⟩, .decoded (callerOf "c"))]]

theorem modelOf?_relay (name : ClassName) :
    modelOf? relay name =
      if name = ⟨"a"⟩ then some (callerOf "b")
      else if name = ⟨"b"⟩ then some (callerOf "c") else none := by
  by_cases ha : name = ⟨"a"⟩
  · rw [ha]
    rfl
  · by_cases hb : name = ⟨"b"⟩
    · rw [hb]
      rfl
    · simp [modelOf?, relay, resolveFirst, resolveFrom, ClassSource.inMemory, List.lookup_cons,
        beq_false_of_ne ha, beq_false_of_ne hb, ha, hb, Resolution.model?]

theorem refersTo_relay {name reference : ClassName} :
    RefersTo relay .empty name reference ↔
      name = ⟨"a"⟩ ∧ reference = ⟨"b"⟩ ∨ name = ⟨"b"⟩ ∧ reference = ⟨"c"⟩ := by
  have hb : (callerOf "b").references .empty = [⟨"b"⟩] := by cbv
  have hc : (callerOf "c").references .empty = [⟨"c"⟩] := by cbv
  rw [RefersTo, modelOf?_relay]
  split_ifs with ha hb'
  · simp [ha, hb]
  · simp [hb', hc]
  · simp [ha, hb']

/-- The only way through the relay ends at the class that is nowhere. -/
theorem path_relay {path : List ClassName} {name : ClassName}
    (h : Path relay .empty ⟨"a"⟩ path name) :
    path = [⟨"a"⟩] ∧ name = ⟨"a"⟩ ∨ path = [⟨"a"⟩, ⟨"b"⟩] ∧ name = ⟨"b"⟩ ∨
      path = [⟨"a"⟩, ⟨"b"⟩, ⟨"c"⟩] ∧ name = ⟨"c"⟩ := by
  induction h with
  | start => simp
  | step _ href ih =>
      rcases refersTo_relay.1 href with ⟨hname, href'⟩ | ⟨hname, href'⟩
      · simp_all
      · simp_all

theorem firstUnresolvedPath_relay :
    FirstUnresolvedPath relay .empty ⟨"a"⟩ [⟨"a"⟩, ⟨"b"⟩, ⟨"c"⟩] ⟨"c"⟩ where
  leads := (Path.start.step (refersTo_relay.2 (.inl ⟨rfl, rfl⟩))).step
    (refersTo_relay.2 (.inr ⟨rfl, rfl⟩))
  unresolved := by simp [Unresolved, modelOf?_relay]
  first other last hpath hlast := by
    rcases path_relay hpath with ⟨_, rfl⟩ | ⟨_, rfl⟩ | ⟨rfl, _⟩
    · simp [Unresolved, modelOf?_relay] at hlast
    · simp [Unresolved, modelOf?_relay] at hlast
    · exact .inl rfl

theorem check_relay :
    (∃ name, Reachable relay .empty ⟨"a"⟩ name ∧ Unresolved relay name) ∧
      (check relay .empty ⟨"a"⟩).result = .ok (.missing ⟨"c"⟩ [⟨"a"⟩, ⟨"b"⟩, ⟨"c"⟩]) := by
  have hfirst := firstUnresolvedPath_relay
  have hreached : ∃ name, Reachable relay .empty ⟨"a"⟩ name ∧ Unresolved relay name :=
    ⟨_, reachable_iff_exists_path.2 ⟨_, hfirst.leads⟩, hfirst.unresolved⟩
  refine ⟨hreached, ?_⟩
  have habsent : (resolveFirst relay ⟨"c"⟩).1 = .absent := rfl
  rcases ((check_reports_first_unresolved_path relay .empty ⟨"a"⟩ hreached).2 _ _ hfirst).1 with
    ⟨error, hfailed, _⟩ | ⟨_, hresult⟩
  · simp [habsent] at hfailed
  · exact hresult

end Classpath
