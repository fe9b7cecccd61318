import Classpath.CheckError
import Classpath.Event
import Classpath.Model

/-!
# Sources of classes

A source answers, for every name, whether it defines the class.  Its answer
depends on the name alone, and it defines only finitely many names; that is what
makes every walk over sources end.
-/

namespace Classpath

/-- What a source finds under a name. -/
inductive Finding
  | absent
  | found (model : ClassModel)
  | failed (error : CheckError)
deriving DecidableEq, Repr

/-- A finding and what happened on the way to it. -/
structure Answer where
  finding : Finding
  events : List Event := []
deriving DecidableEq, Repr

/-- Somewhere classes can be looked up by name. -/
structure ClassSource where
  label : String
  answer : ClassName → Answer
  finite : ∃ names : List ClassName, ∀ name model,
    (answer name).finding = .found model → name ∈ names

/-- One thing done during a check: a source is asked for a name, or something
is logged. -/
inductive Action
  | asked (source : Nat) (name : ClassName)
  | logged (event : Event)
deriving DecidableEq, Repr

namespace Action

def event? : Action → Option Event
  | asked _ _ => none
  | logged event => some event

/-- The name asked of one particular source. -/
def askedOf? (source : Nat) : Action → Option ClassName
  | asked index name => if index = source then some name else none
  | logged _ => none

end Action

/-- What a list of sources finds under a name. -/
inductive Resolution
  | absent
  | found (source : Nat) (model : ClassModel)
  | failed (error : CheckError)
deriving DecidableEq, Repr

/-- Ask the sources in order, numbering them from `index`, until one does not
answer that the class is absent. -/
def resolveFrom (name : ClassName) (index : Nat) : List ClassSource → Resolution × List Action
  | [] => (.absent, [])
  | source :: rest =>
      let answer := source.answer name
      let actions := .asked index name :: answer.events.map .logged
      match answer.finding with
      | .found model => (.found index model, actions)
      | .failed error => (.failed error, actions)
      | .absent =>
          let (resolution, more) := resolveFrom name (index + 1) rest
          (resolution, actions ++ more)

/-- Look a name up in all sources.  The first source that defines it, or fails
on it, decides. -/
def resolveFirst (sources : List ClassSource) (name : ClassName) : Resolution × List Action :=
  resolveFrom name 0 sources

/-- The class found, whichever source it comes from. -/
def Resolution.model? : Resolution → Option ClassModel
  | found _ model => some model
  | _ => none

theorem resolveFrom_eq_found {name : ClassName} {index : Nat} {sources : List ClassSource}
    {place : Nat} {model : ClassModel} (h : (resolveFrom name index sources).1 = .found place model) :
    ∃ source ∈ sources, (source.answer name).finding = .found model := by
  induction sources generalizing index with
  | nil => simp [resolveFrom] at h
  | cons source rest ih =>
      simp only [resolveFrom] at h
      split at h
      · next found hfound =>
          simp only [Resolution.found.injEq] at h
          exact ⟨source, List.mem_cons_self, h.2 ▸ hfound⟩
      · simp at h
      · obtain ⟨other, hmem, hother⟩ := ih h
        exact ⟨other, List.mem_cons_of_mem _ hmem, hother⟩

/-- Together, finitely many sources define finitely many names. -/
theorem exists_defined_names (sources : List ClassSource) :
    ∃ names : List ClassName, ∀ name, (resolveFirst sources name).1.model? ≠ none →
      name ∈ names := by
  suffices h : ∃ names : List ClassName, ∀ source ∈ sources, ∀ name model,
      (source.answer name).finding = .found model → name ∈ names by
    obtain ⟨names, hnames⟩ := h
    refine ⟨names, fun name hname => ?_⟩
    cases hres : (resolveFirst sources name).1 with
    | absent => simp [hres, Resolution.model?] at hname
    | failed error => simp [hres, Resolution.model?] at hname
    | found place model =>
        obtain ⟨source, hmem, hfound⟩ := resolveFrom_eq_found hres
        exact hnames source hmem name model hfound
  induction sources with
  | nil => exact ⟨[], by simp⟩
  | cons source rest ih =>
      obtain ⟨more, hmore⟩ := ih
      obtain ⟨own, hown⟩ := source.finite
      refine ⟨own ++ more, fun s hs name model hname => ?_⟩
      cases List.mem_cons.1 hs with
      | inl h => exact List.mem_append_left _ (hown name model (h ▸ hname))
      | inr h => exact List.mem_append_right _ (hmore s h name model hname)

end Classpath
