import Classpath.Proofs.CheckOutcome

/-!
# What a check asks its sources

A walk takes names from its worklist one by one and looks each of them up before it
takes the next.  A lookup goes through the sources in order and ends at the first that
does not lack the name.  So each source is asked, in the order in which the names were
taken, for those that all sources before it lack.
-/

namespace Classpath

/-! ## One lookup -/

/-- A lookup of the name comes as far as the source with this number. -/
def IsAskedFor (sources : List ClassSource) (index : Nat) (name : ClassName) : Prop :=
  index < sources.length ∧ ∀ earlier ∈ sources.take index, earlier.Lacks name

instance (sources : List ClassSource) (index : Nat) (name : ClassName) :
    Decidable (IsAskedFor sources index name) :=
  inferInstanceAs (Decidable (_ ∧ _))

theorem isAskedFor_zero (first : ClassSource) (rest : List ClassSource) (name : ClassName) :
    IsAskedFor (first :: rest) 0 name := by
  simp [IsAskedFor]

/-- A lookup passes the first source only if it lacks the name. -/
theorem isAskedFor_succ {first : ClassSource} {rest : List ClassSource} {index : Nat}
    {name : ClassName} :
    IsAskedFor (first :: rest) (index + 1) name ↔
      first.Lacks name ∧ IsAskedFor rest index name := by
  simp only [IsAskedFor, List.length_cons, Nat.add_lt_add_iff_right, List.take_succ_cons,
    List.forall_mem_cons]
  exact and_left_comm

/-- Nothing is asked by logging. -/
theorem askedOf?_logged (index : Nat) (events : List Event) :
    (events.map Action.logged).filterMap (Action.askedOf? index) = [] := by
  simp [List.filterMap_eq_nil_iff, Action.askedOf?]

theorem actions_resolveFrom_cons (name : ClassName) (start : Nat) (first : ClassSource)
    (rest : List ClassSource) :
    (resolveFrom name start (first :: rest)).2 =
      .asked start name :: (first.answer name).events.map .logged ++
        if first.Lacks name then (resolveFrom name (start + 1) rest).2 else [] := by
  cases hfinding : (first.answer name).finding with
  | absent => simp [resolveFrom, ClassSource.Lacks, hfinding]
  | found model => simp [resolveFrom, ClassSource.Lacks, hfinding]
  | failed error => simp [resolveFrom, ClassSource.Lacks, hfinding]

/-- A lookup that numbers the sources from `start` on asks those that it comes to once,
and no other. -/
theorem askedOf?_resolveFrom (name : ClassName) (start index : Nat) (sources : List ClassSource) :
    (resolveFrom name start sources).2.filterMap (Action.askedOf? index) =
      if start ≤ index ∧ IsAskedFor sources (index - start) name then [name] else [] := by
  induction sources generalizing start with
  | nil => simp [resolveFrom, IsAskedFor]
  | cons first rest ih =>
      rw [actions_resolveFrom_cons, List.filterMap_append, List.filterMap_cons, askedOf?_logged]
      have hrest : (if first.Lacks name then (resolveFrom name (start + 1) rest).2
            else []).filterMap (Action.askedOf? index) =
          if start < index ∧ IsAskedFor (first :: rest) (index - start) name then [name]
          else [] := by
        by_cases hlater : start < index
        · have hnumber : index - start = index - (start + 1) + 1 := by omega
          have hstart : start + 1 ≤ index := hlater
          rw [hnumber, apply_ite (List.filterMap _), ih]
          by_cases hlacks : first.Lacks name
          · simp [hlater, hstart, hlacks, isAskedFor_succ]
          · simp [hlacks, isAskedFor_succ]
        · have hstart : ¬ start + 1 ≤ index := by omega
          rw [apply_ite (List.filterMap _), ih]
          simp [hlater, hstart]
      rw [hrest]
      rcases Nat.lt_trichotomy start index with hlt | rfl | hgt
      · have hne : start ≠ index := by omega
        simp [Action.askedOf?, hne, hlt, Nat.le_of_lt hlt]
      · simp [Action.askedOf?, isAskedFor_zero]
      · have hne : start ≠ index := by omega
        have hle : ¬ start ≤ index := by omega
        have hlt : ¬ start < index := by omega
        simp [Action.askedOf?, hne, hle, hlt]

theorem askedOf?_resolveFirst (sources : List ClassSource) (name : ClassName) (index : Nat) :
    (resolveFirst sources name).2.filterMap (Action.askedOf? index) =
      [name].filter fun name => IsAskedFor sources index name := by
  rw [resolveFirst, askedOf?_resolveFrom]
  by_cases hasked : IsAskedFor sources index name
  · simp [hasked]
  · simp [hasked]

/-! ## One walk -/

namespace Walk

/-- The names that a walk takes from its worklist until it stops, in order. -/
def taken (sources : List ClassSource) (filter : PlatformFilter) (walk : Walk) : List ClassName :=
  match _h : walk.step sources filter with
  | (.stop _, _) => walk.worklist.head?.toList
  | (.next next, _) => walk.worklist.head?.toList ++ Walk.taken sources filter next
termination_by walk.remaining sources filter
decreasing_by
  exact Walk.measure_step_lt (Classical.choose_spec (exists_reference_names sources filter)) _h

variable {sources : List ClassSource} {filter : PlatformFilter} {entry : ClassName} {walk : Walk}

theorem taken_of_stop {result : Except CheckError Outcome} {actions : List Action}
    (h : walk.step sources filter = (.stop result, actions)) :
    walk.taken sources filter = walk.worklist.head?.toList := by
  rw [Walk.taken]
  split
  · rfl
  · next hstep =>
      rw [h] at hstep
      simp at hstep

theorem taken_of_next {next : Walk} {actions : List Action}
    (h : walk.step sources filter = (.next next, actions)) :
    walk.taken sources filter = walk.worklist.head?.toList ++ next.taken sources filter := by
  rw [Walk.taken]
  split
  · next hstep =>
      rw [h] at hstep
      simp at hstep
  · next hstep =>
      rw [h] at hstep
      simp_all

/-- A round asks for the name that it takes, and for no other. -/
theorem askedOf?_step (index : Nat) {step : Step} {actions : List Action}
    (h : walk.step sources filter = (step, actions)) :
    actions.filterMap (Action.askedOf? index) =
      walk.worklist.head?.toList.filter fun name => IsAskedFor sources index name := by
  cases step with
  | stop result =>
      rcases step_eq_stop h with ⟨hworklist, _, rfl⟩ |
        ⟨name, rest, hworklist, ⟨_, _, _, rfl⟩ | ⟨_, _, rfl⟩⟩
      · rw [hworklist]
        exact askedOf?_logged index [.satisfied walk.resolved.length]
      · rw [hworklist, askedOf?_resolveFirst]
        rfl
      · have hlogged := askedOf?_logged index [.notFound name walk.resolved.length]
        rw [List.map_singleton] at hlogged
        rw [hworklist, List.filterMap_append, askedOf?_resolveFirst, hlogged, List.append_nil]
        rfl
  | next next =>
      obtain ⟨name, rest, source, model, hworklist, _, _, rfl⟩ := step_eq_next h
      have hlogged := askedOf?_logged index (.resolved name source :: descriptorWarnings model)
      rw [List.map_cons] at hlogged
      rw [hworklist, List.filterMap_append, askedOf?_resolveFirst, hlogged, List.append_nil]
      rfl

/-- Over a whole walk, each source is asked for those of the names taken that come to it. -/
theorem lookups_run (sources : List ClassSource) (filter : PlatformFilter) (walk : Walk)
    (index : Nat) :
    (walk.run sources filter).lookups index =
      (walk.taken sources filter).filter fun name => IsAskedFor sources index name := by
  induction walk using Walk.run.induct sources filter with
  | case1 walk result actions hstep =>
      rw [run_of_stop hstep, taken_of_stop hstep, Run.lookups, askedOf?_step index hstep]
  | case2 walk next actions hstep ih =>
      rw [run_of_next hstep, taken_of_next hstep, Run.lookups, List.filterMap_append,
        List.filter_append, askedOf?_step index hstep, ← ih, Run.lookups]

/-- The names resolved before, and those taken after, end with the name that the walk
stops at. -/
theorem exists_last_taken (sources : List ClassSource) (filter : PlatformFilter) (walk : Walk) :
    ∃ last actions, Relation.ReflTransGen (Continues sources filter) walk last ∧
      last.step sources filter = (.stop (walk.run sources filter).result, actions) ∧
      walk.resolvedNames ++ walk.taken sources filter =
        last.resolvedNames ++ last.worklist.head?.toList := by
  induction walk using Walk.run.induct sources filter with
  | case1 walk result actions hstep =>
      refine ⟨walk, actions, .refl, ?_, ?_⟩
      · rw [run_of_stop hstep, hstep]
      · rw [taken_of_stop hstep]
  | case2 walk next actions hstep ih =>
      obtain ⟨last, lastActions, hsteps, hlast, htaken⟩ := ih
      refine ⟨last, lastActions, .head ⟨actions, hstep⟩ hsteps, ?_, ?_⟩
      · rw [run_of_next hstep, hlast]
      · -- The name taken in this round is the one that it resolves.
        obtain ⟨name, rest, source, model, hworklist, _, rfl, _⟩ := step_eq_next hstep
        rw [taken_of_next hstep, ← htaken, resolve_eq]
        simp [resolvedNames, hworklist]

/-- Of the names that were seen, none but the entry is provided by the platform. -/
theorem Invariant.not_provides (hinv : Invariant sources filter entry walk) {name : ClassName}
    (hname : name ∈ walk.order) (hne : name ≠ entry) : filter.provides name = false := by
  obtain ⟨parent, _, _, ⟨model, _, href⟩, _⟩ := hinv.referrer name hname hne
  simpa using (ClassModel.mem_references.1 href).2

end Walk

/-! ## One check -/

/-- How the names that a check takes from its worklist go with its result: first come the
resolved names in the order of the report, and then the missing or failing one, if the
check stops at one. -/
inductive TakenWith (sources : List ClassSource) :
    Except CheckError Outcome → List ClassName → Prop
  | satisfied (resolved : List ResolvedClass) :
      TakenWith sources (.ok (.satisfied resolved)) (resolved.map (·.name))
  | missing {resolved : List ResolvedClass} {name : ClassName} {chain : List ClassName}
      (hresolved : ∀ item ∈ resolved, ∃ model,
        (resolveFirst sources item.name).1 = .found item.source model)
      (hname : (resolveFirst sources name).1 = .absent) :
      TakenWith sources (.ok (.missing name chain)) (resolved.map (·.name) ++ [name])
  | failed {resolved : List ResolvedClass} {name : ClassName} {error : CheckError}
      (hresolved : ∀ item ∈ resolved, ∃ model,
        (resolveFirst sources item.name).1 = .found item.source model)
      (hname : (resolveFirst sources name).1 = .failed error) :
      TakenWith sources (.error error) (resolved.map (·.name) ++ [name])

/-- The names that a check takes from its worklist, in order. -/
def takenNames (sources : List ClassSource) (filter : PlatformFilter) (entry : ClassName) :
    List ClassName :=
  (Walk.start entry).taken sources filter

/-- The names taken are those that the last state of the walk has resolved, and the one
that it is about to look up. -/
theorem exists_last_takenNames (sources : List ClassSource) (filter : PlatformFilter)
    (entry : ClassName) :
    ∃ last actions, Walk.Invariant sources filter entry last ∧
      last.step sources filter = (.stop (check sources filter entry).result, actions) ∧
      takenNames sources filter entry = last.resolvedNames ++ last.worklist.head?.toList := by
  obtain ⟨last, actions, hsteps, hlast, htaken⟩ :=
    Walk.exists_last_taken sources filter (Walk.start entry)
  exact ⟨last, actions, Walk.invariant_of_continues hsteps, hlast, htaken⟩

theorem takenWith_check (sources : List ClassSource) (filter : PlatformFilter)
    (entry : ClassName) :
    TakenWith sources (check sources filter entry).result (takenNames sources filter entry) := by
  obtain ⟨last, actions, hinv, hlast, htaken⟩ := exists_last_takenNames sources filter entry
  rw [htaken]
  rcases Walk.step_eq_stop hlast with ⟨hworklist, hresult, _⟩ |
    ⟨name, rest, hworklist, ⟨error, hname, hresult, _⟩ | ⟨hname, hresult, _⟩⟩
  · rw [hresult, hworklist, List.head?_nil, Option.toList_none, List.append_nil]
    exact .satisfied last.resolved
  · rw [hresult, hworklist]
    exact .failed hinv.found hname
  · rw [hresult, hworklist]
    exact .missing hinv.found hname

/-- The names taken are among those seen, in the same order. -/
theorem takenNames_sublist_order (sources : List ClassSource) (filter : PlatformFilter)
    (entry : ClassName) :
    ∃ last, Walk.Invariant sources filter entry last ∧
      (takenNames sources filter entry).Sublist last.order := by
  obtain ⟨last, _, hinv, _, htaken⟩ := exists_last_takenNames sources filter entry
  refine ⟨last, hinv, ?_⟩
  rw [htaken]
  refine (List.Sublist.refl _).append ?_
  cases last.worklist with
  | nil => exact .refl _
  | cons name rest => exact (List.nil_sublist rest).cons_cons name

theorem lookups_check (sources : List ClassSource) (filter : PlatformFilter) (entry : ClassName)
    (index : Nat) :
    (check sources filter entry).lookups index =
      (takenNames sources filter entry).filter fun name => IsAskedFor sources index name :=
  Walk.lookups_run sources filter (Walk.start entry) index

/-- A check looks up each name that it takes from its worklist once, and no source is asked
unless all sources before it lack the name.  So no source is asked twice for one name, or
for a name that an earlier source defines or fails on, and of the names that the platform
provides only the entry is ever asked for. -/
theorem check_asks_each_name_once (sources : List ClassSource) (filter : PlatformFilter)
    (entry : ClassName) :
    TakenWith sources (check sources filter entry).result (takenNames sources filter entry) ∧
    (takenNames sources filter entry).Nodup ∧
    (∀ index < sources.length, (check sources filter entry).lookups index =
      (takenNames sources filter entry).filter fun name =>
        ∀ earlier ∈ sources.take index, earlier.Lacks name) ∧
    ∀ index, ((check sources filter entry).lookups index).Nodup ∧
      ∀ name ∈ (check sources filter entry).lookups index,
        (∀ earlier ∈ sources.take index, ¬ earlier.Defines name ∧
          ∀ error, (earlier.answer name).finding ≠ .failed error) ∧
        (name ≠ entry → filter.provides name = false) := by
  obtain ⟨last, hinv, hsublist⟩ := takenNames_sublist_order sources filter entry
  have hnodup : (takenNames sources filter entry).Nodup := hinv.nodup.sublist hsublist
  refine ⟨takenWith_check sources filter entry, hnodup, fun index hindex => ?_, fun index => ?_⟩
  · rw [lookups_check]
    apply List.filter_congr
    intro name _
    simp [IsAskedFor, hindex]
  · rw [lookups_check]
    refine ⟨hnodup.filter _, fun name hname => ?_⟩
    obtain ⟨htaken, hasked⟩ := List.mem_filter.1 hname
    have hlacks := (of_decide_eq_true hasked).2
    refine ⟨fun earlier hearlier => ?_, fun hne => ?_⟩
    · have habsent : (earlier.answer name).finding = .absent := hlacks earlier hearlier
      simp [ClassSource.Defines, habsent]
    · exact hinv.not_provides (hsublist.subset htaken) hne

end Classpath
