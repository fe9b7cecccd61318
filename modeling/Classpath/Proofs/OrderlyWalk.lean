import Classpath.Proofs.BoundedWalk

/-!
# The worklist between two rounds

Before every round the classes seen are divided into those that are resolved and those
that wait.  Each but the entry was first seen in a resolved class, and nothing that a
resolved class refers to is left unseen.  Classes wait in the order of their distance from
the entry, and no two of them that wait at once are more than one step apart.
-/

namespace Classpath
namespace Walk

variable {sources : List ClassSource} {filter : PlatformFilter} {entry : ClassName} {walk : Walk}

/-- What a walk from an entry has done with the classes it has seen. -/
structure Orderly (sources : List ClassSource) (filter : PlatformFilter) (entry : ClassName)
    (walk : Walk) : Prop where
  entry_seen : entry ∈ walk.visited
  /-- Each class seen is resolved or waits. -/
  visited_perm : walk.visited.Perm (walk.resolvedNames ++ walk.worklist)
  disjoint : walk.resolvedNames.Disjoint walk.worklist
  nodup_resolved : walk.resolvedNames.Nodup
  nodup_worklist : walk.worklist.Nodup
  root : ∀ parent, (entry, parent) ∉ walk.referrers
  /-- Every other class has one referrer, which is resolved and does refer to it. -/
  referrer : ∀ name ∈ walk.visited, name ≠ entry → ∃ parent ∈ walk.resolvedNames,
    (∀ other, (name, other) ∈ walk.referrers ↔ other = parent) ∧
      ∃ source model, (resolveFirst sources parent).1 = .found source model ∧
        name ∈ model.references filter
  /-- A resolved class was found where the record says, and its references are seen. -/
  closed : ∀ item ∈ walk.resolved, ∃ model,
    (resolveFirst sources item.name).1 = .found item.source model ∧
      ∀ reference ∈ model.references filter, reference ∈ walk.visited
  /-- Every class seen has a distance. -/
  reachable : ∀ name ∈ walk.visited, Reachable sources filter entry name
  distances : ((walk.resolvedNames ++ walk.worklist).map (distance sources filter entry)).Pairwise
    (· ≤ ·)
  spread : ∀ name ∈ walk.worklist, ∀ other ∈ walk.worklist,
    distance sources filter entry name ≤ distance sources filter entry other + 1

theorem refersTo_iff_of_found {name reference : ClassName} {source : Nat} {model : ClassModel}
    (hfound : (resolveFirst sources name).1 = .found source model) :
    RefersTo sources filter name reference ↔ reference ∈ model.references filter := by
  simp [RefersTo, modelOf?, hfound, Resolution.model?]

namespace Invariant

theorem perm_order (hinv : Invariant sources filter entry walk) (hrecorded : Recorded entry walk) :
    walk.visited.Perm walk.order :=
  (List.perm_ext_iff_of_nodup hrecorded.nodup hinv.nodup).2 hinv.mem_visited

/-- A class that is one step behind its referrer is at most one step behind whatever waits,
because the referrer was resolved before. -/
theorem distance_le_add_one (hinv : Invariant sources filter entry walk) {name other : ClassName}
    (hname : name ∈ walk.worklist) (hother : other ∈ walk.worklist) :
    distance sources filter entry name ≤ distance sources filter entry other + 1 := by
  have hnameSeen : name ∈ walk.order := List.mem_append_right _ hname
  have hotherSeen : other ∈ walk.order := List.mem_append_right _ hother
  have hnameDistance := hinv.distance_add_one hnameSeen
  have hotherDistance := hinv.distance_add_one hotherSeen
  by_cases hentry : name = entry
  · rw [hentry, hinv.root.2, List.length_singleton] at hnameDistance
    rw [hentry]
    omega
  · obtain ⟨parent, hparent, _, _, hchain⟩ := hinv.referrer name hnameSeen hentry
    have hparentLe := (hinv.before_of_mem hparent hother).length_le
    rw [hchain, List.length_append, List.length_singleton] at hnameDistance
    omega

theorem orderly (hinv : Invariant sources filter entry walk) (hrecorded : Recorded entry walk) :
    Orderly sources filter entry walk := by
  have htree := hinv.referrerTree hrecorded
  obtain ⟨hresolved, hworklist, hapart⟩ := List.nodup_append.1 hinv.nodup
  exact {
    entry_seen := (hinv.mem_visited entry).2 hinv.entry_mem
    visited_perm := hinv.perm_order hrecorded
    disjoint := fun name hname hwaits => hapart name hname name hwaits rfl
    nodup_resolved := hresolved
    nodup_worklist := hworklist
    root := htree.root
    referrer := by
      intro name hname hne
      obtain ⟨parent, hunique, hparent, _⟩ := htree.referrer name hname hne
      obtain ⟨recorded, _, hlookup, href, _⟩ :=
        hinv.referrer name ((hinv.mem_visited name).1 hname) hne
      -- There is one record of the name, so the two lemmas speak of the same referrer.
      obtain rfl := (hunique recorded).1 (hrecorded.mem_referrers_iff.2 hlookup)
      obtain ⟨item, hitem, rfl⟩ := List.mem_map.1 hparent
      obtain ⟨model, hfound⟩ := hinv.found item hitem
      exact ⟨item.name, hparent, hunique, item.source, model, hfound,
        (refersTo_iff_of_found hfound).1 href⟩
    closed := by
      intro item hitem
      obtain ⟨model, hfound⟩ := hinv.found item hitem
      refine ⟨model, hfound, fun reference href => (hinv.mem_visited reference).2 ?_⟩
      have hname : item.name ∈ walk.resolvedNames := List.mem_map_of_mem hitem
      exact (hinv.closed item.name hname reference ((refersTo_iff_of_found hfound).2 href)).1
    reachable := fun name hname =>
      hinv.reachable_of_mem_order ((hinv.mem_visited name).1 hname)
    distances := List.pairwise_map.2 hinv.pairwise_distance_le
    spread := fun _ hname _ hother => hinv.distance_le_add_one hname hother }

end Invariant
end Walk

/-- However far a check has come, its walk is orderly. -/
theorem check_keeps_worklist_orderly (sources : List ClassSource) (filter : PlatformFilter)
    (entry : ClassName) (walk : Walk)
    (hwalk : Relation.ReflTransGen (Walk.Continues sources filter) (Walk.start entry) walk) :
    Walk.Orderly sources filter entry walk :=
  (Walk.invariant_of_continues hwalk).orderly (Walk.recorded_of_continues hwalk)

/-- In the relay, the second class waits after the first round, one step from the first. -/
theorem relay_worklist_orderly :
    ∃ walk, Relation.ReflTransGen (Walk.Continues relay .empty) (Walk.start ⟨"a"⟩) walk ∧
      walk.resolvedNames = [⟨"a"⟩] ∧ walk.worklist = [⟨"b"⟩] ∧
      Walk.Orderly relay .empty ⟨"a"⟩ walk := by
  obtain ⟨walk, hnext, hresolved, hworklist⟩ : ∃ walk : Walk,
      Walk.Continues relay .empty (Walk.start ⟨"a"⟩) walk ∧ walk.resolvedNames = [⟨"a"⟩] ∧
        walk.worklist = [⟨"b"⟩] := by
    have href : (callerOf "b").references .empty = [⟨"b"⟩] := by cbv
    refine ⟨_, Walk.continues_of_found rfl rfl, ?_⟩
    rw [Walk.resolve_eq, href]
    decide
  exact ⟨walk, .single hnext, hresolved, hworklist,
    check_keeps_worklist_orderly relay .empty ⟨"a"⟩ walk (.single hnext)⟩

end Classpath
