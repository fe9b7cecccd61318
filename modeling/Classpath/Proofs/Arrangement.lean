import Classpath.Proofs.ClosureVerdict
import Classpath.Proofs.MentionSites

/-!
# The order and number of members

The references of a class are a set put in order, so they do not depend on how the
members of the class are arranged.  Members may change places and occur again, methods
and fields as well as instructions, local variables and annotations inside them, and in
any class of any source: every round of a check stays the same.
-/

namespace Classpath

/-! ## Rearranged lists -/

/-- The second list comes from the first one by changes of its items, by changes of
their order, and by repeating some of them. -/
inductive Rearrangement {α : Type} (R : α → α → Prop) : List α → List α → Prop
  | items {xs ys : List α} (h : List.Forall₂ R xs ys) : Rearrangement R xs ys
  | perm {xs ys : List α} (h : xs.Perm ys) : Rearrangement R xs ys
  | repeated {x : α} {xs : List α} (h : x ∈ xs) : Rearrangement R xs (x :: xs)
  | trans {xs ys zs : List α} (h : Rearrangement R xs ys) (h' : Rearrangement R ys zs) :
      Rearrangement R xs zs

namespace Rearrangement

variable {α : Type} {R : α → α → Prop} {P : α → Prop} {xs ys : List α}

/-- What holds of an item of a list holds of an item of its rearrangements, and the
other way round. -/
theorem exists_mem_iff (h : Rearrangement R xs ys) (hP : ∀ x y, R x y → (P x ↔ P y)) :
    (∃ x ∈ xs, P x) ↔ ∃ y ∈ ys, P y := by
  induction h with
  | items h =>
      induction h with
      | nil => exact Iff.rfl
      | cons hfirst _ ih =>
          rw [List.exists_mem_cons_iff, List.exists_mem_cons_iff, hP _ _ hfirst, ih]
  | perm h => simp only [h.mem_iff]
  | @repeated x xs h =>
      rw [List.exists_mem_cons_iff]
      exact ⟨.inr, fun hsome => hsome.elim (fun hx => ⟨x, h, hx⟩) id⟩
  | trans _ _ ih ih' => exact ih.trans ih'

theorem exists_mem_iff_of_eq (h : Rearrangement Eq xs ys) : (∃ x ∈ xs, P x) ↔ ∃ y ∈ ys, P y :=
  h.exists_mem_iff fun _ _ hsame => hsame ▸ Iff.rfl

end Rearrangement

/-! ## Rearranged classes -/

/-- The methods differ at most in the arrangement of what they consist of. -/
structure Method.Rearranged (method other : Method) : Prop where
  name : method.name = other.name
  descriptor : method.descriptor = other.descriptor
  instructions : Rearrangement Eq method.instructions other.instructions
  localVariables : Rearrangement Eq method.localVariables other.localVariables
  annotations : Rearrangement Eq method.annotations other.annotations
  parameterAnnotations :
    Rearrangement (Rearrangement Eq) method.parameterAnnotations other.parameterAnnotations
  localVariableAnnotations :
    Rearrangement Eq method.localVariableAnnotations other.localVariableAnnotations

structure Field.Rearranged (field other : Field) : Prop where
  descriptor : field.descriptor = other.descriptor
  signature : field.signature = other.signature
  annotations : Rearrangement Eq field.annotations other.annotations

structure ClassModel.Rearranged (model other : ClassModel) : Prop where
  methods : Rearrangement Method.Rearranged model.methods other.methods
  fields : Rearrangement Field.Rearranged model.fields other.fields
  annotations : Rearrangement Eq model.annotations other.annotations

theorem Method.Rearranged.names_iff {method other : Method} (h : method.Rearranged other)
    (name : ClassName) : method.Names name ↔ other.Names name := by
  unfold Method.Names
  rw [h.descriptor, h.instructions.exists_mem_iff_of_eq, h.localVariables.exists_mem_iff_of_eq,
    h.annotations.exists_mem_iff_of_eq,
    h.parameterAnnotations.exists_mem_iff fun _ _ hlists => hlists.exists_mem_iff_of_eq,
    h.localVariableAnnotations.exists_mem_iff_of_eq]

theorem Field.Rearranged.names_iff {field other : Field} (h : field.Rearranged other)
    (name : ClassName) : field.Names name ↔ other.Names name := by
  unfold Field.Names
  rw [h.descriptor, h.signature, h.annotations.exists_mem_iff_of_eq]

theorem ClassModel.Rearranged.names_iff {model other : ClassModel} (h : model.Rearranged other)
    (name : ClassName) : model.Names name ↔ other.Names name := by
  unfold ClassModel.Names
  rw [h.methods.exists_mem_iff fun _ _ hmethods => hmethods.names_iff name,
    h.fields.exists_mem_iff fun _ _ hfields => hfields.names_iff name,
    h.annotations.exists_mem_iff_of_eq]

theorem ClassModel.Rearranged.references_eq {model other : ClassModel}
    (h : model.Rearranged other) (filter : PlatformFilter) :
    model.references filter = other.references filter :=
  references_congr h.names_iff filter

/-! ## Rearranged sources -/

/-- Both find nothing, both fail alike, or both find the class up to the arrangement of
its members. -/
inductive Finding.Rearranged : Finding → Finding → Prop
  | absent : Rearranged .absent .absent
  | failed (error : CheckError) : Rearranged (.failed error) (.failed error)
  | found {model other : ClassModel} (h : model.Rearranged other) :
      Rearranged (.found model) (.found other)

/-- The sources define the same classes up to the arrangement of their members. -/
def ClassSource.Rearranged (source other : ClassSource) : Prop :=
  ∀ name, (source.answer name).finding.Rearranged (other.answer name).finding

/-- What was found comes from the same place and has the same references. -/
inductive Resolution.RefersAlike (filter : PlatformFilter) : Resolution → Resolution → Prop
  | absent : RefersAlike filter .absent .absent
  | failed (error : CheckError) : RefersAlike filter (.failed error) (.failed error)
  | found (source : Nat) {model other : ClassModel}
      (h : model.references filter = other.references filter) :
      RefersAlike filter (.found source model) (.found source other)

section

variable {sources others : List ClassSource} {filter : PlatformFilter}

theorem resolveFrom_refersAlike (h : List.Forall₂ ClassSource.Rearranged sources others)
    (filter : PlatformFilter) (name : ClassName) (index : Nat) :
    (resolveFrom name index sources).1.RefersAlike filter (resolveFrom name index others).1 := by
  induction h generalizing index with
  | nil => exact .absent
  | @cons source other _ _ hfirst _ ih =>
      have hfindings := hfirst name
      generalize hsource : (source.answer name).finding = finding at hfindings
      generalize hother : (other.answer name).finding = finding' at hfindings
      cases hfindings with
      | absent =>
          simp only [resolveFrom, hsource, hother]
          exact ih (index + 1)
      | failed error =>
          simp only [resolveFrom, hsource, hother]
          exact .failed error
      | found hmodels =>
          simp only [resolveFrom, hsource, hother]
          exact .found index (hmodels.references_eq filter)

namespace Walk

/-- Of a class that is found, a round sees nothing but its place and its references. -/
theorem step_of_refersAlike
    (h : ∀ name, (resolveFirst sources name).1.RefersAlike filter (resolveFirst others name).1)
    (walk : Walk) : (walk.step sources filter).1 = (walk.step others filter).1 := by
  unfold step
  cases walk.worklist with
  | nil => rfl
  | cons name rest =>
      have hfound := h name
      generalize hsources : (resolveFirst sources name).1 = resolution at hfound
      generalize hothers : (resolveFirst others name).1 = resolution' at hfound
      cases hfound with
      | absent => simp only [hsources, hothers]
      | failed error => simp only [hsources, hothers]
      | found source hreferences => simp only [hsources, hothers, resolve, hreferences]

theorem run_of_refersAlike
    (h : ∀ name, (resolveFirst sources name).1.RefersAlike filter (resolveFirst others name).1)
    (walk : Walk) : (walk.run sources filter).result = (walk.run others filter).result := by
  induction walk using Walk.run.induct sources filter with
  | case1 walk result actions hstep =>
      have hother : (walk.step others filter).1 = .stop result := by
        rw [← step_of_refersAlike h walk, hstep]
      rw [run_of_stop hstep, run_of_stop (Prod.ext hother rfl)]
  | case2 walk next actions hstep ih =>
      have hother : (walk.step others filter).1 = .next next := by
        rw [← step_of_refersAlike h walk, hstep]
      rw [run_of_next hstep, run_of_next (Prod.ext hother rfl), ih]

end Walk
end

/-- A class refers to a name exactly if the platform does not provide it and it arises at
one of the places where classes are named.  So classes put together refer to what each
of them refers to, and a check has the same result, with the same classes in the same
order, the same chain and the same sources, however the members of the classes are
arranged and repeated. -/
theorem references_depend_on_sites_only (filter : PlatformFilter) :
    (∀ (model : ClassModel) (name : ClassName), name ∈ model.references filter ↔
      (∀ start ∈ filter.starts, ¬ start.toList <+: name.dotted.toList) ∧ model.Names name) ∧
    (∀ (model other : ClassModel) (name : ClassName),
      name ∈ (model.append other).references filter ↔
        name ∈ model.references filter ∨ name ∈ other.references filter) ∧
    ∀ (sources others : List ClassSource) (entry : ClassName),
      List.Forall₂ ClassSource.Rearranged sources others →
        (check sources filter entry).result = (check others filter entry).result := by
  refine ⟨fun model name => ClassModel.mem_references_iff,
    fun model other name => ClassModel.mem_references_append, fun sources others entry h => ?_⟩
  exact Walk.run_of_refersAlike (fun name => resolveFrom_refersAlike h filter name 0)
    (Walk.start entry)

/-- A class with two methods that are the same and call the same twice. -/
def repetitiveCallerOf (owner : String) : ClassModel :=
  let method : Method :=
    { name := "run", descriptor := "()V",
      instructions := [.invoke .invokestatic owner, .invoke .invokestatic owner] }
  { methods := [method, method] }

theorem rearranged_callerOf (owner : String) :
    (callerOf owner).Rearranged (repetitiveCallerOf owner) where
  methods := by
    refine .trans (.items (.cons ?_ .nil)) (.repeated List.mem_cons_self)
    exact ⟨rfl, rfl, .repeated List.mem_cons_self, .perm .nil, .perm .nil, .perm .nil, .perm .nil⟩
  fields := .perm .nil
  annotations := .perm .nil

/-- One source with one class. -/
def loneSource (model : ClassModel) : ClassSource := .inMemory "lone" [(⟨"a"⟩, .decoded model)]

theorem rearranged_loneSource :
    (loneSource (callerOf "b")).Rearranged (loneSource (repetitiveCallerOf "b")) := by
  intro name
  by_cases hname : name = ⟨"a"⟩
  · rw [hname]
    exact .found (rearranged_callerOf "b")
  · have hlacks (model : ClassModel) : ((loneSource model).answer name).finding = .absent := by
      simp [loneSource, ClassSource.inMemory, List.lookup_cons, beq_false_of_ne hname]
    rw [hlacks, hlacks]
    exact .absent

theorem check_repetitiveCaller :
    List.Forall₂ ClassSource.Rearranged [loneSource (callerOf "b")]
      [loneSource (repetitiveCallerOf "b")] ∧
    (check [loneSource (repetitiveCallerOf "b")] .empty ⟨"a"⟩).result =
      .ok (.missing ⟨"b"⟩ [⟨"a"⟩, ⟨"b"⟩]) := by
  have hsources : List.Forall₂ ClassSource.Rearranged [loneSource (callerOf "b")]
      [loneSource (repetitiveCallerOf "b")] := .cons rearranged_loneSource .nil
  have hreferences : (callerOf "b").references .empty = [⟨"b"⟩] := by cbv
  refine ⟨hsources, ?_⟩
  rw [← (references_depend_on_sites_only .empty).2.2 _ _ _ hsources]
  calc (check [loneSource (callerOf "b")] .empty ⟨"a"⟩).result = _ :=
        Walk.run_of_found rfl rfl hreferences
    _ = _ := Walk.run_of_absent rfl rfl

end Classpath
