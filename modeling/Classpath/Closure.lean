import Classpath.Reference
import Classpath.Source

/-!
# The dependency closure

A check walks the references of an entry class breadth first.  Every class is
looked up once, in the sources in order, and the first source that defines it
wins.  The first class that no source defines ends the walk, and is reported
with the chain of references that leads to it.

The walk ends because the sources define finitely many names, so only finitely
many names can ever be put on the worklist.
-/

namespace Classpath

/-- A class and the number of the source it was found in. -/
structure ResolvedClass where
  name : ClassName
  source : Nat
deriving DecidableEq, Repr

/-- The answer of a check. -/
inductive Outcome
  | satisfied (resolved : List ResolvedClass)
  | missing (name : ClassName) (chain : List ClassName)
deriving DecidableEq, Repr

namespace Outcome

def isSatisfied : Outcome → Bool
  | satisfied _ => true
  | missing _ _ => false

def missingClass? : Outcome → Option ClassName
  | satisfied _ => none
  | missing name _ => some name

end Outcome

/-- The state of a walk between two lookups. -/
structure Walk where
  visited : List ClassName
  worklist : List ClassName
  /-- Each visited class but the entry with the class it was first referenced
  by, latest first. -/
  referrers : List (ClassName × ClassName) := []
  resolved : List ResolvedClass := []
deriving DecidableEq, Repr

namespace Walk

/-- Before the first lookup only the entry has been seen. -/
def start (entry : ClassName) : Walk :=
  { visited := [entry], worklist := [entry] }

/-- Put a referenced class on the worklist unless it has been seen. -/
def enqueue (referrer : ClassName) (walk : Walk) (name : ClassName) : Walk :=
  if name ∈ walk.visited then walk
  else
    { walk with
      visited := name :: walk.visited
      worklist := walk.worklist ++ [name]
      referrers := (name, referrer) :: walk.referrers }

/-- The chain of references to a class, put before `after`.  A referrer was
itself recorded earlier, so it is sought among the older records only. -/
def chainTo (name : ClassName) (after : List ClassName) :
    List (ClassName × ClassName) → List ClassName
  | [] => name :: after
  | (child, parent) :: older =>
      if child = name then chainTo parent (name :: after) older else chainTo name after older

/-- The chain of references from the entry to a class. -/
def chain (walk : Walk) (name : ClassName) : List ClassName :=
  chainTo name [] walk.referrers

end Walk

/-- What a class found under a name leads to: its references are put on the
worklist, and the class counts as resolved. -/
def Walk.resolve (filter : PlatformFilter) (walk : Walk) (name : ClassName) (source : Nat)
    (model : ClassModel) : Walk :=
  let next := (model.references filter).foldl (Walk.enqueue name) walk
  { next with resolved := next.resolved ++ [⟨name, source⟩] }

/-- What to do after one lookup. -/
inductive Step
  | next (walk : Walk)
  | stop (result : Except CheckError Outcome)

/-- Warnings about the methods of a class whose descriptor cannot be used. -/
def descriptorWarnings (model : ClassModel) : List Event :=
  model.malformedMethods.map fun method =>
    .malformedDescriptor method.name method.descriptor

/-- One round of the walk: look up the next name of the worklist. -/
def Walk.step (sources : List ClassSource) (filter : PlatformFilter) (walk : Walk) :
    Step × List Action :=
  match walk.worklist with
  | [] =>
      (.stop (.ok (.satisfied walk.resolved)), [.logged (.satisfied walk.resolved.length)])
  | name :: rest =>
      let (resolution, actions) := resolveFirst sources name
      match resolution with
      | .failed error => (.stop (.error error), actions)
      | .absent =>
          (.stop (.ok (.missing name (walk.chain name))),
            actions ++ [.logged (.notFound name walk.resolved.length)])
      | .found source model =>
          (.next (Walk.resolve filter { walk with worklist := rest } name source model),
            actions ++ .logged (.resolved name source) ::
              (descriptorWarnings model).map .logged)

/-- Only finitely many names can be referenced by classes of the sources. -/
theorem exists_reference_names (sources : List ClassSource) (filter : PlatformFilter) :
    ∃ names : List ClassName, ∀ name model, (resolveFirst sources name).1.model? = some model →
      ∀ reference ∈ model.references filter, reference ∈ names := by
  obtain ⟨defined, hdefined⟩ := exists_defined_names sources
  refine ⟨defined.flatMap fun name =>
    match (resolveFirst sources name).1.model? with
    | some model => model.references filter
    | none => [], fun name model hmodel reference href => ?_⟩
  refine List.mem_flatMap.2 ⟨name, hdefined name (by simp [hmodel]), ?_⟩
  simpa [hmodel] using href

namespace Walk

/-- The names of a list that have not been seen, and the length of the
worklist. -/
def measure (names : List ClassName) (walk : Walk) : Nat :=
  (names.filter (· ∉ walk.visited)).length + walk.worklist.length

theorem length_filter_notMem_cons {names visited : List ClassName} {name : ClassName}
    (hmem : name ∈ names) (hnew : name ∉ visited) :
    (names.filter (· ∉ name :: visited)).length < (names.filter (· ∉ visited)).length := by
  have hsplit : names.filter (· ∉ name :: visited) =
      (names.filter (· ∉ visited)).filter (· ≠ name) := by
    simp [List.filter_filter]
  rw [hsplit]
  refine List.length_filter_lt_length_iff_exists.2 ⟨name, ?_, by simp⟩
  simp [hmem, hnew]

theorem measure_enqueue_le {names : List ClassName} {referrer name : ClassName} {walk : Walk}
    (hmem : name ∈ names) : measure names (walk.enqueue referrer name) ≤ measure names walk := by
  unfold enqueue
  split
  · exact Nat.le_refl _
  · next hnew =>
      have := length_filter_notMem_cons hmem hnew
      simp only [measure, List.length_append, List.length_singleton]
      omega

theorem measure_foldl_enqueue_le {names references : List ClassName} {referrer : ClassName}
    {walk : Walk} (h : ∀ reference ∈ references, reference ∈ names) :
    measure names (references.foldl (enqueue referrer) walk) ≤ measure names walk := by
  induction references generalizing walk with
  | nil => exact Nat.le_refl _
  | cons first rest ih =>
      refine Nat.le_trans (ih fun r hr => h r (List.mem_cons_of_mem _ hr)) ?_
      exact measure_enqueue_le (h first List.mem_cons_self)

/-- A round that goes on leaves less to do. -/
theorem measure_step_lt {sources : List ClassSource} {filter : PlatformFilter} {walk next : Walk}
    {actions : List Action} {names : List ClassName}
    (hnames : ∀ name model, (resolveFirst sources name).1.model? = some model →
      ∀ reference ∈ model.references filter, reference ∈ names)
    (h : walk.step sources filter = (.next next, actions)) :
    measure names next < measure names walk := by
  unfold step at h
  split at h
  · simp at h
  · next name rest hworklist =>
      simp only at h
      split at h
      · simp at h
      · simp at h
      · next source model hfound =>
          simp only [Prod.mk.injEq, Step.next.injEq] at h
          obtain ⟨rfl, _⟩ := h
          have hle : measure names ((model.references filter).foldl (enqueue name)
              { walk with worklist := rest }) ≤ measure names { walk with worklist := rest } :=
            measure_foldl_enqueue_le (hnames name model (by simp [hfound, Resolution.model?]))
          have hsame : measure names (resolve filter { walk with worklist := rest } name source model) =
              measure names ((model.references filter).foldl (enqueue name)
                { walk with worklist := rest }) := rfl
          have hpopped : measure names walk = measure names { walk with worklist := rest } + 1 := by
            simp only [measure, hworklist, List.length_cons]
            omega
          omega

/-- The names a walk can still put on its worklist, and those already there. -/
noncomputable def remaining (sources : List ClassSource) (filter : PlatformFilter) (walk : Walk) :
    Nat :=
  measure (Classical.choose (exists_reference_names sources filter)) walk

end Walk

/-- The result of a check and everything done on the way, in order. -/
structure Run where
  result : Except CheckError Outcome
  actions : List Action

namespace Run

/-- What was logged. -/
def events (run : Run) : List Event := run.actions.filterMap Action.event?

/-- The names asked of one source, in order. -/
def lookups (run : Run) (source : Nat) : List ClassName :=
  run.actions.filterMap (Action.askedOf? source)

end Run

/-- Walk on from a state until the walk stops. -/
def Walk.run (sources : List ClassSource) (filter : PlatformFilter) (walk : Walk) : Run :=
  match _h : walk.step sources filter with
  | (.stop result, actions) => ⟨result, actions⟩
  | (.next next, actions) =>
      let rest := Walk.run sources filter next
      ⟨rest.result, actions ++ rest.actions⟩
termination_by walk.remaining sources filter
decreasing_by
  exact Walk.measure_step_lt (Classical.choose_spec (exists_reference_names sources filter)) _h

/-- Check that every class reachable from the entry is found in the sources. -/
def check (sources : List ClassSource) (filter : PlatformFilter) (entry : ClassName) : Run :=
  let run := Walk.run sources filter (Walk.start entry)
  ⟨run.result, .logged (.checking entry sources.length) :: run.actions⟩

end Classpath
