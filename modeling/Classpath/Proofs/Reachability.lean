import Classpath.Closure
import Classpath.Proofs.NameOrder
import Mathlib.Data.List.Chain
import Mathlib.Data.List.Shortlex
import Mathlib.Logic.Relation
import Mathlib.Order.Lattice.Nat

/-!
# Reachable classes and the paths to them

A class refers to the references of the model it resolves to.  The classes
reachable from an entry are those at the end of a path of such steps.  Paths are
ordered by length first and then name by name.
-/

namespace Classpath

/-- The class that the sources resolve a name to. -/
def modelOf? (sources : List ClassSource) (name : ClassName) : Option ClassModel :=
  (resolveFirst sources name).1.model?

/-- The name resolves, and the class found refers to the other. -/
def RefersTo (sources : List ClassSource) (filter : PlatformFilter)
    (name reference : ClassName) : Prop :=
  ∃ model, modelOf? sources name = some model ∧ reference ∈ model.references filter

/-- The class is reached from the entry in finitely many steps. -/
def Reachable (sources : List ClassSource) (filter : PlatformFilter) (entry : ClassName) :
    ClassName → Prop :=
  Relation.ReflTransGen (RefersTo sources filter) entry

/-- No source yields the class, because all lack it or one fails on it first. -/
def Unresolved (sources : List ClassSource) (name : ClassName) : Prop :=
  modelOf? sources name = none

/-- The names on a way from the entry to a class, both included. -/
inductive Path (sources : List ClassSource) (filter : PlatformFilter) (entry : ClassName) :
    List ClassName → ClassName → Prop
  | start : Path sources filter entry [entry] entry
  | step {path : List ClassName} {name reference : ClassName}
      (hpath : Path sources filter entry path name)
      (href : RefersTo sources filter name reference) :
      Path sources filter entry (path ++ [reference]) reference

/-- The least number of steps from the entry to a class. -/
noncomputable def distance (sources : List ClassSource) (filter : PlatformFilter)
    (entry name : ClassName) : Nat :=
  sInf {steps | ∃ path, Path sources filter entry path name ∧ path.length = steps + 1}

section

variable {sources : List ClassSource} {filter : PlatformFilter} {entry : ClassName}

namespace Path

variable {path : List ClassName} {name : ClassName}

theorem head?_eq (h : Path sources filter entry path name) : path.head? = some entry := by
  induction h with
  | start => rfl
  | step _ _ ih => simp [List.head?_append, ih]

theorem getLast?_eq (h : Path sources filter entry path name) : path.getLast? = some name := by
  cases h with
  | start => rfl
  | step _ _ => simp

theorem length_pos (h : Path sources filter entry path name) : 0 < path.length := by
  cases h with
  | start => simp
  | step _ _ => simp

/-- Every name on a path but the first is a reference of the one before it. -/
theorem isChain (h : Path sources filter entry path name) :
    path.IsChain (RefersTo sources filter) := by
  induction h with
  | start => simp
  | @step path name reference hpath href ih =>
      rw [List.isChain_append]
      refine ⟨ih, by simp, ?_⟩
      intro last hlast next hnext
      rw [hpath.getLast?_eq] at hlast
      simp only [Option.mem_def, Option.some.injEq, List.head?_cons] at hlast hnext
      exact hlast ▸ hnext ▸ href

/-- Names that lead from the entry to a class, each a reference of the one before it, are a
path. -/
theorem of_isChain (hfirst : path.head? = some entry) (hlast : path.getLast? = some name)
    (hchain : path.IsChain (RefersTo sources filter)) : Path sources filter entry path name := by
  induction path using List.reverseRecOn generalizing name with
  | nil => cases hfirst
  | append_singleton rest last ih =>
      obtain rfl : last = name := by simpa using hlast
      obtain ⟨hrest, _, hstep⟩ := List.isChain_append.1 hchain
      cases hprevious : rest.getLast? with
      | none =>
          obtain rfl := List.getLast?_eq_none_iff.1 hprevious
          obtain rfl : last = entry := by simpa using hfirst
          exact .start
      | some previous =>
          have hfirst : rest.head? = some entry := by
            cases rest with
            | nil => cases hprevious
            | cons first rest => exact hfirst
          exact (ih hfirst hprevious hrest).step (hstep previous hprevious last rfl)

/-- Every name on a path but the last one resolves. -/
theorem resolves_of_mem_dropLast (h : Path sources filter entry path name) {other : ClassName}
    (hmem : other ∈ path.dropLast) : ¬ Unresolved sources other := by
  induction h generalizing other with
  | start => simp at hmem
  | @step path name reference hpath href ih =>
      rw [List.dropLast_concat] at hmem
      -- The class that the last step starts from has a model, and the others have by induction.
      have hsplit : path = path.dropLast ++ [name] := by
        rw [List.dropLast_append_getLast?]
        exact hpath.getLast?_eq
      rw [hsplit, List.mem_append, List.mem_singleton] at hmem
      rcases hmem with hbefore | rfl
      · exact ih hbefore
      · obtain ⟨model, hmodel, _⟩ := href
        simp [Unresolved, hmodel]

end Path

theorem reachable_iff_exists_path {name : ClassName} :
    Reachable sources filter entry name ↔ ∃ path, Path sources filter entry path name := by
  constructor
  · intro h
    induction h with
    | refl => exact ⟨[entry], .start⟩
    | tail _ href ih =>
        obtain ⟨path, hpath⟩ := ih
        exact ⟨_, hpath.step href⟩
  · rintro ⟨path, hpath⟩
    induction hpath with
    | start => exact Relation.ReflTransGen.refl
    | step _ href ih => exact ih.tail href

/-- Names that include the entry and all their references include whatever is
reachable. -/
theorem mem_of_reachable {names : List ClassName} (hentry : entry ∈ names)
    (hclosed : ∀ name ∈ names, ∀ reference, RefersTo sources filter name reference →
      reference ∈ names) {name : ClassName} (h : Reachable sources filter entry name) :
    name ∈ names := by
  induction h with
  | refl => exact hentry
  | tail _ href ih => exact hclosed _ ih _ href

end

/-! ## The order of paths -/

/-- Shorter paths come first, and paths of one length are compared name by name,
in the order of the bytes of the names. -/
def Before : List ClassName → List ClassName → Prop :=
  List.Shortlex fun a b => a.bytes < b.bytes

/-- The first path is the second or comes before it. -/
def NotAfter (p q : List ClassName) : Prop := p = q ∨ Before p q

namespace Before

variable {p q r : List ClassName}

instance : Std.Asymm fun a b : ClassName => a.bytes < b.bytes where
  asymm _ _ h := List.lt_asymm h

theorem iff_length_lt_or : Before p q ↔
    p.length < q.length ∨ p.length = q.length ∧ List.Lex (fun a b => a.bytes < b.bytes) p q :=
  List.shortlex_def

theorem of_length_lt (h : p.length < q.length) : Before p q := List.Shortlex.of_length_lt h

theorem length_le (h : Before p q) : p.length ≤ q.length := by
  rcases iff_length_lt_or.1 h with hlt | ⟨heq, _⟩
  · omega
  · omega

theorem irrefl (p : List ClassName) : ¬ Before p p := fun h =>
  List.Shortlex.asymm.asymm p p h h

theorem trans (hpq : Before p q) (hqr : Before q r) : Before p r := by
  rcases iff_length_lt_or.1 hpq with hlt | ⟨heq, hlex⟩
  · exact of_length_lt (Nat.lt_of_lt_of_le hlt hqr.length_le)
  · rcases iff_length_lt_or.1 hqr with hlt' | ⟨heq', hlex'⟩
    · exact of_length_lt (by omega)
    · refine iff_length_lt_or.2 (.inr ⟨by omega, ?_⟩)
      exact List.lex_trans (fun hab hbc => List.lt_trans hab hbc) hlex hlex'

/-- A comparison that is decided stays decided when each path goes on by one
step. -/
theorem append_singleton (h : Before p q) (a b : ClassName) :
    Before (p ++ [a]) (q ++ [b]) := by
  rcases iff_length_lt_or.1 h with hlt | ⟨heq, hlex⟩
  · exact of_length_lt (by simpa using hlt)
  · refine iff_length_lt_or.2 (.inr ⟨by simpa using heq, ?_⟩)
    clear h
    -- The lengths are equal, so the comparison was decided by a pair of names.
    induction hlex with
    | nil => simp at heq
    | cons _ ih => exact .cons (ih (by simpa using heq))
    | rel hlt => exact .rel hlt

theorem append_of_lt {a b : ClassName} (h : a.bytes < b.bytes) (p : List ClassName) :
    Before (p ++ [a]) (p ++ [b]) :=
  List.Shortlex.append_left ((List.shortlex_singleton_iff a b).2 h) p

end Before

namespace NotAfter

variable {p q r : List ClassName}

theorem trans (hpq : NotAfter p q) (hqr : NotAfter q r) : NotAfter p r := by
  rcases hpq with rfl | hpq
  · exact hqr
  · rcases hqr with rfl | hqr
    · exact .inr hpq
    · exact .inr (hpq.trans hqr)

theorem length_le (h : NotAfter p q) : p.length ≤ q.length := by
  rcases h with rfl | h
  · exact Nat.le_refl _
  · exact h.length_le

theorem append_singleton (h : NotAfter p q) (a : ClassName) : NotAfter (p ++ [a]) (q ++ [a]) := by
  rcases h with rfl | h
  · exact .inl rfl
  · exact .inr (h.append_singleton a a)

theorem of_isPrefix (h : p <+: q) : NotAfter p q := by
  rcases Nat.lt_or_ge p.length q.length with hlt | hge
  · exact .inr (.of_length_lt hlt)
  · exact .inl (h.eq_of_length_le hge)

theorem antisymm (hpq : NotAfter p q) (hqp : NotAfter q p) : p = q := by
  rcases hpq with rfl | hpq
  · rfl
  · rcases hqp with rfl | hqp
    · rfl
    · exact absurd (hpq.trans hqp) (Before.irrefl p)

end NotAfter
end Classpath
