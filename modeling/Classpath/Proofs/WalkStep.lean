import Classpath.Proofs.Reachability

/-!
# The rounds of a walk

A walk keeps its classes in the order in which they were first seen: first the
resolved ones, then the worklist.  One round takes the first class of the
worklist, and either stops there or moves it to the resolved ones and puts its
unseen references at the end.
-/

namespace Classpath
namespace Walk

/-- The classes that were found, in the order of their lookups. -/
def resolvedNames (walk : Walk) : List ClassName := walk.resolved.map (·.name)

/-- All classes seen so far, in the order in which they were first seen. -/
def order (walk : Walk) : List ClassName := walk.resolvedNames ++ walk.worklist

/-- The names of a list that have not been seen. -/
def fresh (walk : Walk) (names : List ClassName) : List ClassName :=
  names.filter (· ∉ walk.visited)

theorem mem_fresh {walk : Walk} {names : List ClassName} {name : ClassName} :
    name ∈ walk.fresh names ↔ name ∈ names ∧ name ∉ walk.visited := by
  simp [fresh]

/-! ## What one round does -/

/-- Enqueueing a list without repeats adds its unseen names in order. -/
theorem foldl_enqueue {names : List ClassName} (hnodup : names.Nodup) (referrer : ClassName)
    (walk : Walk) :
    names.foldl (enqueue referrer) walk =
      { walk with
        visited := (walk.fresh names).reverse ++ walk.visited
        worklist := walk.worklist ++ walk.fresh names
        referrers := (walk.fresh names).reverse.map (·, referrer) ++ walk.referrers } := by
  induction names generalizing walk with
  | nil => simp [fresh]
  | cons first rest ih =>
      obtain ⟨hfirst, hrest⟩ := List.nodup_cons.1 hnodup
      rw [List.foldl_cons, ih hrest, enqueue]
      by_cases hseen : first ∈ walk.visited
      · simp [hseen, fresh]
      · -- A name that was just added does not occur again, so it hides no other.
        have hsame : rest.filter (fun name => !decide (name = first) &&
            !decide (name ∈ walk.visited)) = rest.filter (fun name => !decide (name ∈ walk.visited)) := by
          apply List.filter_congr
          intro name hname
          have hne : name ≠ first := fun h => hfirst (h ▸ hname)
          simp [hne]
        simp [hseen, fresh, hsame]

theorem resolve_eq (filter : PlatformFilter) (walk : Walk) (name : ClassName) (source : Nat)
    (model : ClassModel) :
    walk.resolve filter name source model =
      { visited := (walk.fresh (model.references filter)).reverse ++ walk.visited
        worklist := walk.worklist ++ walk.fresh (model.references filter)
        referrers := (walk.fresh (model.references filter)).reverse.map (·, name) ++ walk.referrers
        resolved := walk.resolved ++ [⟨name, source⟩] } := by
  rw [resolve, foldl_enqueue (model.nodup_references filter)]

/-- A round that goes on found the first class of the worklist. -/
theorem step_eq_next {sources : List ClassSource} {filter : PlatformFilter} {walk next : Walk}
    {actions : List Action} (h : walk.step sources filter = (.next next, actions)) :
    ∃ name rest source model, walk.worklist = name :: rest ∧
      (resolveFirst sources name).1 = .found source model ∧
      next = resolve filter { walk with worklist := rest } name source model ∧
      actions = (resolveFirst sources name).2 ++ .logged (.resolved name source) ::
        (descriptorWarnings model).map .logged := by
  unfold step at h
  split at h
  · simp at h
  · next name rest hworklist =>
      simp only at h
      split at h
      · simp at h
      · simp at h
      · next source model hfound =>
          simp only [Prod.mk.injEq, Step.next.injEq] at h
          exact ⟨name, rest, source, model, hworklist, hfound, h.1.symm, h.2.symm⟩

/-- A round that stops found the worklist empty or its first class unresolved. -/
theorem step_eq_stop {sources : List ClassSource} {filter : PlatformFilter} {walk : Walk}
    {result : Except CheckError Outcome} {actions : List Action}
    (h : walk.step sources filter = (.stop result, actions)) :
    (walk.worklist = [] ∧ result = .ok (.satisfied walk.resolved) ∧
      actions = [.logged (.satisfied walk.resolved.length)]) ∨
    ∃ name rest, walk.worklist = name :: rest ∧
      ((∃ error, (resolveFirst sources name).1 = .failed error ∧ result = .error error ∧
        actions = (resolveFirst sources name).2) ∨
      ((resolveFirst sources name).1 = .absent ∧
        result = .ok (.missing name (walk.chain name)) ∧
        actions = (resolveFirst sources name).2 ++
          [.logged (.notFound name walk.resolved.length)])) := by
  unfold step at h
  split at h
  · next hworklist =>
      simp only [Prod.mk.injEq, Step.stop.injEq] at h
      exact .inl ⟨hworklist, h.1.symm, h.2.symm⟩
  · next name rest hworklist =>
      refine .inr ⟨name, rest, hworklist, ?_⟩
      simp only at h
      split at h
      · next error hfailed =>
          simp only [Prod.mk.injEq, Step.stop.injEq] at h
          exact .inl ⟨error, hfailed, h.1.symm, h.2.symm⟩
      · next habsent =>
          simp only [Prod.mk.injEq, Step.stop.injEq] at h
          exact .inr ⟨habsent, h.1.symm, h.2.symm⟩
      · simp at h

/-- A round leads from one state to the next. -/
def Continues (sources : List ClassSource) (filter : PlatformFilter) (walk next : Walk) : Prop :=
  ∃ actions, walk.step sources filter = (.next next, actions)

theorem run_of_stop {sources : List ClassSource} {filter : PlatformFilter} {walk : Walk}
    {result : Except CheckError Outcome} {actions : List Action}
    (h : walk.step sources filter = (.stop result, actions)) :
    walk.run sources filter = ⟨result, actions⟩ := by
  rw [Walk.run]
  split
  · next hstep =>
      rw [h] at hstep
      simp_all
  · next hstep =>
      rw [h] at hstep
      simp at hstep

theorem run_of_next {sources : List ClassSource} {filter : PlatformFilter} {walk next : Walk}
    {actions : List Action} (h : walk.step sources filter = (.next next, actions)) :
    walk.run sources filter =
      ⟨(next.run sources filter).result, actions ++ (next.run sources filter).actions⟩ := by
  rw [Walk.run]
  split
  · next hstep =>
      rw [h] at hstep
      simp at hstep
  · next hstep =>
      rw [h] at hstep
      simp_all

/-- A walk goes through rounds until one of them stops with its result. -/
theorem exists_last (sources : List ClassSource) (filter : PlatformFilter) (walk : Walk) :
    ∃ last actions, Relation.ReflTransGen (Continues sources filter) walk last ∧
      last.step sources filter = (.stop (walk.run sources filter).result, actions) := by
  induction walk using Walk.run.induct sources filter with
  | case1 walk result actions hstep =>
      refine ⟨walk, actions, .refl, ?_⟩
      rw [run_of_stop hstep, hstep]
  | case2 walk next actions hstep ih =>
      obtain ⟨last, lastActions, hsteps, hlast⟩ := ih
      refine ⟨last, lastActions, .head ⟨actions, hstep⟩ hsteps, ?_⟩
      rw [run_of_next hstep, hlast]

section

variable {sources : List ClassSource} {filter : PlatformFilter} {walk : Walk} {name : ClassName}
  {rest : List ClassName}

/-! ## What is looked up decides how a walk goes on -/

theorem continues_of_found {source : Nat} {model : ClassModel}
    (hworklist : walk.worklist = name :: rest)
    (hfound : (resolveFirst sources name).1 = .found source model) :
    Continues sources filter walk
      (resolve filter { walk with worklist := rest } name source model) := by
  refine ⟨(resolveFirst sources name).2 ++ .logged (.resolved name source) ::
    (descriptorWarnings model).map .logged, ?_⟩
  simp [step, hworklist, hfound]

/-- A class that was found puts its unseen references on the worklist. -/
theorem run_of_found {source : Nat} {model : ClassModel} {references : List ClassName}
    (hworklist : walk.worklist = name :: rest)
    (hfound : (resolveFirst sources name).1 = .found source model)
    (hreferences : model.references filter = references) :
    (walk.run sources filter).result =
      (Walk.run sources filter
        { visited := (walk.fresh references).reverse ++ walk.visited
          worklist := rest ++ walk.fresh references
          referrers := (walk.fresh references).reverse.map (·, name) ++ walk.referrers
          resolved := walk.resolved ++ [⟨name, source⟩] }).result := by
  obtain ⟨actions, hstep⟩ := continues_of_found hworklist hfound
  rw [run_of_next hstep, resolve_eq, hreferences]
  rfl

theorem run_of_nil (hworklist : walk.worklist = []) :
    (walk.run sources filter).result = .ok (.satisfied walk.resolved) := by
  have hstep : walk.step sources filter = (.stop (.ok (.satisfied walk.resolved)),
      [.logged (.satisfied walk.resolved.length)]) := by
    simp [step, hworklist]
  rw [run_of_stop hstep]

theorem run_of_failed {error : CheckError} (hworklist : walk.worklist = name :: rest)
    (hfailed : (resolveFirst sources name).1 = .failed error) :
    (walk.run sources filter).result = .error error := by
  have hstep : walk.step sources filter =
      (.stop (.error error), (resolveFirst sources name).2) := by
    simp [step, hworklist, hfailed]
  rw [run_of_stop hstep]

theorem run_of_absent (hworklist : walk.worklist = name :: rest)
    (habsent : (resolveFirst sources name).1 = .absent) :
    (walk.run sources filter).result = .ok (.missing name (walk.chain name)) := by
  have hstep : walk.step sources filter = (.stop (.ok (.missing name (walk.chain name))),
      (resolveFirst sources name).2 ++ [.logged (.notFound name walk.resolved.length)]) := by
    simp [step, hworklist, habsent]
  rw [run_of_stop hstep]

end

/-- The result of a walk is that of any state it comes through. -/
theorem run_result_of_continues {sources : List ClassSource} {filter : PlatformFilter}
    {walk later : Walk} (h : Relation.ReflTransGen (Continues sources filter) walk later) :
    (walk.run sources filter).result = (later.run sources filter).result := by
  induction h using Relation.ReflTransGen.head_induction_on with
  | refl => rfl
  | head hnext _ ih =>
      obtain ⟨actions, hstep⟩ := hnext
      rw [run_of_next hstep, ih]

/-- A round asks for nothing but the first class of the worklist. -/
theorem step_congr {sources others : List ClassSource} {walk : Walk}
    (h : ∀ name ∈ walk.worklist.head?, resolveFirst others name = resolveFirst sources name)
    (filter : PlatformFilter) : walk.step others filter = walk.step sources filter := by
  unfold step
  cases hworklist : walk.worklist with
  | nil => rfl
  | cons name rest =>
      have hname : resolveFirst others name = resolveFirst sources name :=
        h name (by simp [hworklist])
      simp only [hname]

end Walk
end Classpath
