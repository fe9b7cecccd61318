import Classpath.Proofs.Lookups
import Mathlib.Data.Set.Card

/-!
# How long a walk can be

Each round of a walk but the last resolves a class that no round before it resolved, so
there are no more rounds than names that the sources define, and one.  How many names the
classes refer to, and whether they refer to each other, does not matter.

A class is recorded together with the class it was first seen in, which was looked up by
then.  So the records form a tree with the entry as its root, and whoever goes from a
class to its referrer again and again comes to the entry.
-/

namespace Classpath

/-- The names that at least one of the sources defines. -/
def definedNames (sources : List ClassSource) : Set ClassName :=
  {name | ∃ source ∈ sources, source.Defines name}

theorem finite_definedNames (sources : List ClassSource) : (definedNames sources).Finite := by
  induction sources with
  | nil =>
      have hempty : definedNames [] = ∅ := by simp [definedNames]
      rw [hempty]
      exact Set.finite_empty
  | cons source rest ih =>
      obtain ⟨names, hnames⟩ := source.finite
      refine (names.finite_toSet.union ih).subset ?_
      rintro name ⟨other, hother, model, hmodel⟩
      rcases List.mem_cons.1 hother with rfl | hrest
      · exact .inl (hnames name model hmodel)
      · exact .inr ⟨other, hrest, model, hmodel⟩

namespace Walk

variable {sources : List ClassSource} {filter : PlatformFilter} {entry : ClassName} {walk : Walk}

/-! ## The number of rounds -/

/-- From a state on, so many names are taken from the worklist until the walk ends with the
result: it ends at an empty worklist, or at a name that does not resolve. -/
inductive EndsAfter (sources : List ClassSource) (filter : PlatformFilter) :
    Walk → Nat → Except CheckError Outcome → Prop
  | exhausted {walk : Walk} (hworklist : walk.worklist = []) :
      EndsAfter sources filter walk 0 (.ok (.satisfied walk.resolved))
  | stopped {walk : Walk} {result : Except CheckError Outcome} {actions : List Action}
      (hworklist : walk.worklist ≠ [])
      (hstep : walk.step sources filter = (.stop result, actions)) :
      EndsAfter sources filter walk 1 result
  | continued {walk next : Walk} {rounds : Nat} {result : Except CheckError Outcome}
      (hnext : Continues sources filter walk next)
      (hrest : EndsAfter sources filter next rounds result) :
      EndsAfter sources filter walk (rounds + 1) result

theorem endsAfter_run (sources : List ClassSource) (filter : PlatformFilter) (walk : Walk) :
    EndsAfter sources filter walk (walk.taken sources filter).length
      (walk.run sources filter).result := by
  induction walk using Walk.run.induct sources filter with
  | case1 walk result actions hstep =>
      rw [taken_of_stop hstep, run_of_stop hstep]
      rcases step_eq_stop hstep with ⟨hworklist, rfl, _⟩ | ⟨name, rest, hworklist, _⟩
      · rw [hworklist]
        exact .exhausted hworklist
      · rw [hworklist]
        exact .stopped (by simp [hworklist]) hstep
  | case2 walk next actions hstep ih =>
      obtain ⟨name, rest, source, model, hworklist, _⟩ := step_eq_next hstep
      rw [taken_of_next hstep, run_of_next hstep, hworklist]
      exact .continued ⟨actions, hstep⟩ ih

/-- No class is resolved twice, and only classes that a source defines are. -/
theorem Invariant.length_resolvedNames_le (hinv : Invariant sources filter entry walk) :
    walk.resolvedNames.length ≤ (definedNames sources).ncard := by
  have hnodup : walk.resolvedNames.Nodup := (List.nodup_append.1 hinv.nodup).1
  have hdefined : (walk.resolvedNames.toFinset : Set ClassName) ⊆ definedNames sources := by
    intro name hname
    rw [List.coe_toFinset] at hname
    obtain ⟨item, hitem, rfl⟩ := List.mem_map.1 hname
    obtain ⟨model, hfound⟩ := hinv.found item hitem
    obtain ⟨source, hsource, hmodel⟩ := resolveFrom_eq_found hfound
    exact ⟨source, hsource, model, hmodel⟩
  calc walk.resolvedNames.length
      = walk.resolvedNames.toFinset.card := (List.toFinset_card_of_nodup hnodup).symm
    _ = (walk.resolvedNames.toFinset : Set ClassName).ncard := (Set.ncard_coe_finset _).symm
    _ ≤ (definedNames sources).ncard := Set.ncard_le_ncard hdefined (finite_definedNames sources)

/-! ## The records of referrers -/

/-- The names seen are those recorded, in the same order, and the entry before them all. -/
structure Recorded (entry : ClassName) (walk : Walk) : Prop where
  visited_eq : walk.visited = walk.referrers.map (·.1) ++ [entry]
  nodup : walk.visited.Nodup

theorem recorded_start (entry : ClassName) : Recorded entry (start entry) where
  visited_eq := rfl
  nodup := List.nodup_singleton entry

namespace Recorded

theorem enqueue (h : Recorded entry walk) (referrer name : ClassName) :
    Recorded entry (walk.enqueue referrer name) := by
  unfold Walk.enqueue
  split
  · exact h
  · next hnew =>
      refine ⟨?_, List.nodup_cons.2 ⟨hnew, h.nodup⟩⟩
      rw [List.map_cons, List.cons_append, ← h.visited_eq]

theorem foldl_enqueue (h : Recorded entry walk) (referrer : ClassName) (names : List ClassName) :
    Recorded entry (names.foldl (Walk.enqueue referrer) walk) := by
  induction names generalizing walk with
  | nil => exact h
  | cons name rest ih => exact ih (h.enqueue referrer name)

theorem continues {next : Walk} (h : Recorded entry walk)
    (hnext : Continues sources filter walk next) : Recorded entry next := by
  obtain ⟨actions, hstep⟩ := hnext
  obtain ⟨name, rest, source, model, _, _, rfl, _⟩ := step_eq_next hstep
  -- Neither the worklist nor the resolved classes enter into what is recorded.
  have hpopped : Recorded entry { walk with worklist := rest } := ⟨h.visited_eq, h.nodup⟩
  have henqueued := hpopped.foldl_enqueue name (model.references filter)
  exact ⟨henqueued.visited_eq, henqueued.nodup⟩

end Recorded

theorem recorded_of_continues
    (h : Relation.ReflTransGen (Continues sources filter) (start entry) walk) :
    Recorded entry walk := by
  induction h with
  | refl => exact recorded_start entry
  | tail _ hnext ih => exact ih.continues hnext

theorem Recorded.recorded_iff (h : Recorded entry walk) {name : ClassName} :
    (∃ parent, (name, parent) ∈ walk.referrers) ↔ name ∈ walk.visited ∧ name ≠ entry := by
  have hnodup := h.nodup
  rw [h.visited_eq, List.nodup_append] at hnodup
  have hmem : name ∈ walk.referrers.map (·.1) ↔ ∃ parent, (name, parent) ∈ walk.referrers := by
    simp
  rw [← hmem, h.visited_eq, List.mem_append, List.mem_singleton]
  constructor
  · intro hname
    exact ⟨.inl hname, hnodup.2.2 name hname entry (List.mem_singleton_self entry)⟩
  · rintro ⟨hname | rfl, hne⟩
    · exact hname
    · exact absurd rfl hne

/-- The only record of a name is the one found by looking it up. -/
theorem Recorded.mem_referrers_iff (h : Recorded entry walk) {name parent : ClassName} :
    (name, parent) ∈ walk.referrers ↔ walk.referrers.lookup name = some parent := by
  rw [List.lookup_eq_some_iff]
  constructor
  · intro hmem
    obtain ⟨later, older, hsplit⟩ := List.append_of_mem hmem
    refine ⟨later, older, hsplit, ?_⟩
    have hnodup := h.nodup
    rw [h.visited_eq, hsplit, List.map_append, List.map_cons, List.append_assoc,
      List.nodup_append] at hnodup
    intro record hrecord
    have hne := hnodup.2.2 record.1 (List.mem_map_of_mem hrecord) name (by simp)
    simpa using hne.symm
  · rintro ⟨later, older, hsplit, _⟩
    rw [hsplit]
    simp

/-- The one class was taken from the worklist, and the other was taken after it or is still
there. -/
def TakenBefore (walk : Walk) (earlier later : ClassName) : Prop :=
  earlier ∈ walk.resolvedNames ∧ [earlier, later].Sublist walk.order

/-- The records form a tree: the entry has no referrer, and every other class seen has
exactly one, which was taken from the worklist before it. -/
structure ReferrerTree (entry : ClassName) (walk : Walk) : Prop where
  root : ∀ parent, (entry, parent) ∉ walk.referrers
  seen : ∀ name parent, (name, parent) ∈ walk.referrers → name ∈ walk.visited
  referrer : ∀ name ∈ walk.visited, name ≠ entry → ∃ parent,
    (∀ other, (name, other) ∈ walk.referrers ↔ other = parent) ∧ walk.TakenBefore parent name

theorem Invariant.takenBefore (hinv : Invariant sources filter entry walk)
    {name parent : ClassName} (hname : name ∈ walk.order) (hparent : parent ∈ walk.resolvedNames)
    (hchain : walk.chain name = walk.chain parent ++ [name]) : walk.TakenBefore parent name := by
  refine ⟨hparent, ?_⟩
  have hlonger : (walk.chain parent).length < (walk.chain name).length := by
    rw [hchain]
    simp
  have hseen : parent ∈ walk.order := List.mem_append_left _ hparent
  obtain ⟨before, after, hsplit⟩ := List.append_of_mem hname
  have hsorted := hinv.sorted
  rw [hsplit, List.pairwise_append, List.pairwise_cons] at hsorted
  rw [hsplit, List.mem_append, List.mem_cons] at hseen
  rw [hsplit]
  rcases hseen with hbefore | rfl | hafter
  · exact (List.singleton_sublist.2 hbefore).append (after.nil_sublist.cons_cons name)
  · exact absurd hlonger (Nat.lt_irrefl _)
  · -- After a class there are only chains at least as long as its own.
    have hlength := (hsorted.2.1.1 parent hafter).length_le
    omega

theorem Invariant.referrerTree (hinv : Invariant sources filter entry walk)
    (hrecorded : Recorded entry walk) : ReferrerTree entry walk where
  root parent hmem := (hrecorded.recorded_iff.1 ⟨parent, hmem⟩).2 rfl
  seen name parent hmem := (hrecorded.recorded_iff.1 ⟨parent, hmem⟩).1
  referrer name hname hne := by
    have horder := (hinv.mem_visited name).1 hname
    obtain ⟨parent, hparent, hlookup, _, hchain⟩ := hinv.referrer name horder hne
    refine ⟨parent, fun other => ?_, hinv.takenBefore horder hparent hchain⟩
    rw [hrecorded.mem_referrers_iff, hlookup, Option.some_inj, eq_comm]

/-! ## Going from referrer to referrer -/

/-- Whoever goes from a class to the referrer recorded for it, and on as long as there is
one, comes to an end, and has met these classes, the last one first. -/
inductive Climbs (referrers : List (ClassName × ClassName)) : ClassName → List ClassName → Prop
  | root {name : ClassName} (hname : referrers.lookup name = none) : Climbs referrers name [name]
  | step {name parent : ClassName} {path : List ClassName}
      (hname : referrers.lookup name = some parent) (hpath : Climbs referrers parent path) :
      Climbs referrers name (path ++ [name])

/-- The chain of a class is what is met on the way up. -/
theorem Invariant.climbs_chain (hinv : Invariant sources filter entry walk) {name : ClassName}
    (hname : name ∈ walk.order) : Climbs walk.referrers name (walk.chain name) := by
  induction hlength : (walk.chain name).length using Nat.strong_induction_on generalizing name with
  | _ length ih =>
      by_cases hentry : name = entry
      · rw [hentry, hinv.root.2]
        exact .root hinv.root.1
      · obtain ⟨parent, hparent, hlookup, _, hchain⟩ := hinv.referrer name hname hentry
        have hshorter : (walk.chain parent).length < length := by
          rw [← hlength, hchain]
          simp
        rw [hchain]
        exact .step hlookup (ih _ hshorter (List.mem_append_left _ hparent) rfl)

end Walk

/-- A check ends.  It takes at most one name more from its worklist than the sources define.
Throughout, the records of referrers form a tree with the entry as its root, so that going
from referrer to referrer ends at the entry, and gives the chain of the class that it starts
at. -/
theorem check_ends (sources : List ClassSource) (filter : PlatformFilter) (entry : ClassName) :
    (definedNames sources).Finite ∧
    Walk.EndsAfter sources filter (Walk.start entry) (takenNames sources filter entry).length
      (check sources filter entry).result ∧
    (takenNames sources filter entry).length ≤ (definedNames sources).ncard + 1 ∧
    ∀ walk, Relation.ReflTransGen (Walk.Continues sources filter) (Walk.start entry) walk →
      Walk.ReferrerTree entry walk ∧
      ∀ name ∈ walk.visited, Walk.Climbs walk.referrers name (walk.chain name) ∧
        (walk.chain name).head? = some entry := by
  refine ⟨finite_definedNames sources, Walk.endsAfter_run sources filter (Walk.start entry), ?_,
    fun walk hwalk => ?_⟩
  · obtain ⟨last, _, hinv, _, htaken⟩ := exists_last_takenNames sources filter entry
    have hresolved := hinv.length_resolvedNames_le
    have hhead := last.worklist.head?.length_toList_le
    rw [htaken, List.length_append]
    omega
  · have hinv := Walk.invariant_of_continues hwalk
    refine ⟨hinv.referrerTree (Walk.recorded_of_continues hwalk), fun name hname => ?_⟩
    have horder := (hinv.mem_visited name).1 hname
    exact ⟨hinv.climbs_chain horder, (hinv.path_chain horder).head?_eq⟩

/-- In the relay, the second class is seen in the first round, and leads back to the first. -/
theorem check_relay_ends :
    (takenNames relay .empty ⟨"a"⟩).length ≤ (definedNames relay).ncard + 1 ∧
    ∃ walk, Relation.ReflTransGen (Walk.Continues relay .empty) (Walk.start ⟨"a"⟩) walk ∧
      ⟨"b"⟩ ∈ walk.visited ∧ Walk.ReferrerTree ⟨"a"⟩ walk ∧
      Walk.Climbs walk.referrers ⟨"b"⟩ [⟨"a"⟩, ⟨"b"⟩] := by
  obtain ⟨walk, hnext, hvisited, hchain⟩ : ∃ walk : Walk,
      Walk.Continues relay .empty (Walk.start ⟨"a"⟩) walk ∧ ⟨"b"⟩ ∈ walk.visited ∧
        walk.chain ⟨"b"⟩ = [⟨"a"⟩, ⟨"b"⟩] := by
    have href : (callerOf "b").references .empty = [⟨"b"⟩] := by cbv
    refine ⟨_, Walk.continues_of_found rfl rfl, ?_⟩
    rw [Walk.resolve_eq, href]
    decide
  obtain ⟨_, _, hlength, hwalks⟩ := check_ends relay .empty ⟨"a"⟩
  obtain ⟨htree, hclimbs⟩ := hwalks walk (.single hnext)
  exact ⟨hlength, walk, .single hnext, hvisited, htree, hchain ▸ (hclimbs _ hvisited).1⟩

end Classpath
