import Classpath.Proofs.CheckOutcome

/-!
# What a check takes from its sources

Of its sources a check sees only what they find first under the reachable names.
Two lists of sources that agree on these lead through the same rounds, and the
outcomes differ in nothing but the numbers of the sources.  Definitions of other
names, definitions that are shadowed, and sources that lack all reachable names can
therefore be added, changed and removed.
-/

namespace Classpath

/-- The class comes from the first source that defines it. -/
def ResolvedClass.IsFirstIn (sources : List ClassSource) (item : ResolvedClass) : Prop :=
  IsLeast {index | ∃ source, sources[index]? = some source ∧ source.Defines item.name} item.source

/-- Results of checks over two lists of sources that say the same.  Satisfied checks
list the same classes, each with its first source. -/
inductive SameVerdict (sources others : List ClassSource) :
    Except CheckError Outcome → Except CheckError Outcome → Prop
  | failed (error : CheckError) : SameVerdict sources others (.error error) (.error error)
  | missing (name : ClassName) (chain : List ClassName) :
      SameVerdict sources others (.ok (.missing name chain)) (.ok (.missing name chain))
  | satisfied {resolved resolved' : List ResolvedClass}
      (hnames : resolved.map (·.name) = resolved'.map (·.name))
      (hfirst : ∀ item ∈ resolved, item.IsFirstIn sources)
      (hfirst' : ∀ item ∈ resolved', item.IsFirstIn others) :
      SameVerdict sources others (.ok (.satisfied resolved)) (.ok (.satisfied resolved'))

/-- The sources find the same under every name that is reachable in the first list. -/
def AgreeOnReachable (sources others : List ClassSource) (filter : PlatformFilter)
    (entry : ClassName) : Prop :=
  ∀ name, Reachable sources filter entry name →
    firstFinding sources name = firstFinding others name

namespace Walk

/-! ## Two walks side by side -/

/-- The states differ at most in the numbers of the sources. -/
structure Alike (walk walk' : Walk) : Prop where
  visited : walk.visited = walk'.visited
  worklist : walk.worklist = walk'.worklist
  referrers : walk.referrers = walk'.referrers
  resolvedNames : walk.resolvedNames = walk'.resolvedNames

theorem Alike.refl (walk : Walk) : Alike walk walk := ⟨rfl, rfl, rfl, rfl⟩

theorem Alike.withWorklist {walk walk' : Walk} (h : Alike walk walk') (worklist : List ClassName) :
    Alike { walk with worklist } { walk' with worklist } :=
  ⟨h.visited, rfl, h.referrers, h.resolvedNames⟩

theorem Alike.chain {walk walk' : Walk} (h : Alike walk walk') (name : ClassName) :
    walk.chain name = walk'.chain name := by
  rw [Walk.chain, Walk.chain, h.referrers]

/-- The model of a class decides what becomes of the walk, its source does not. -/
theorem Alike.resolve {walk walk' : Walk} (h : Alike walk walk') (filter : PlatformFilter)
    (name : ClassName) (source source' : Nat) (model : ClassModel) :
    Alike (walk.resolve filter name source model) (walk'.resolve filter name source' model) := by
  have hfresh : walk.fresh (model.references filter) = walk'.fresh (model.references filter) := by
    rw [fresh, fresh, h.visited]
  have hnames : walk.resolved.map (·.name) = walk'.resolved.map (·.name) := h.resolvedNames
  rw [resolve_eq, resolve_eq, hfresh]
  constructor
  · simp only [h.visited]
  · simp only [h.worklist]
  · simp only [h.referrers]
  · simp [Walk.resolvedNames, hnames]

section

variable {sources others : List ClassSource} {filter : PlatformFilter} {entry : ClassName}
  {walk walk' : Walk}

/-- If both find the same under the first name of the worklist, a round of one walk is
matched by a round of the other. -/
theorem Alike.continues (h : Alike walk walk')
    (hagree : ∀ name ∈ walk.worklist, firstFinding sources name = firstFinding others name)
    {next : Walk} (hnext : Continues sources filter walk next) :
    ∃ next', Continues others filter walk' next' ∧ Alike next next' := by
  obtain ⟨actions, hstep⟩ := hnext
  obtain ⟨name, rest, source, model, hworklist, hfound, rfl, _⟩ := step_eq_next hstep
  have hworklist' : walk'.worklist = name :: rest := h.worklist ▸ hworklist
  obtain ⟨source', hfound'⟩ := found_of_firstFinding_eq (hagree name (by simp [hworklist])) hfound
  exact ⟨_, continues_of_found hworklist' hfound',
    (h.withWorklist rest).resolve filter name source source' model⟩

/-- The other walk goes through matching states. -/
theorem exists_alike (hagree : AgreeOnReachable sources others filter entry)
    (hsteps : Relation.ReflTransGen (Continues sources filter) (start entry) walk) :
    ∃ walk', Relation.ReflTransGen (Continues others filter) (start entry) walk' ∧
      Alike walk walk' := by
  induction hsteps with
  | refl => exact ⟨start entry, .refl, .refl _⟩
  | @tail walk next hsteps hnext ih =>
      obtain ⟨walk', hsteps', halike⟩ := ih
      -- Whatever is on the worklist is reachable, so both find the same under it.
      have hinv := invariant_of_continues hsteps
      have hfindings : ∀ name ∈ walk.worklist, firstFinding sources name = firstFinding others name :=
        fun name hname => hagree name (hinv.reachable_of_mem_order (List.mem_append_right _ hname))
      obtain ⟨next', hnext', halike'⟩ := halike.continues hfindings hnext
      exact ⟨next', hsteps'.tail hnext', halike'⟩

end

end Walk

/-- A satisfied check names for each class the first source that defines it. -/
theorem isFirstIn_of_check_satisfied {sources : List ClassSource} {filter : PlatformFilter}
    {entry : ClassName} {resolved : List ResolvedClass}
    (h : (check sources filter entry).result = .ok (.satisfied resolved)) :
    ∀ item ∈ resolved, item.IsFirstIn sources := by
  intro item hitem
  obtain ⟨model, hfound⟩ := (of_check_satisfied h).2 item hitem
  obtain ⟨hdefines, hleast⟩ := source_isLeast_of_found hfound
  refine ⟨hdefines, ?_⟩
  rintro index ⟨source, hsource, hdef⟩
  exact hleast index source hsource hdef

/-- Lists of sources that agree on the reachable names lead to the same verdict. -/
theorem AgreeOnReachable.sameVerdict {sources others : List ClassSource}
    {filter : PlatformFilter} {entry : ClassName}
    (hagree : AgreeOnReachable sources others filter entry) :
    SameVerdict sources others (check sources filter entry).result
      (check others filter entry).result := by
  obtain ⟨last, actions, hsteps, hlast⟩ := Walk.exists_last sources filter (Walk.start entry)
  obtain ⟨last', hsteps', halike⟩ := Walk.exists_alike hagree hsteps
  have hresult : (check others filter entry).result = (last'.run others filter).result :=
    Walk.run_result_of_continues hsteps'
  rcases Walk.step_eq_stop hlast with ⟨hworklist, hstop, _⟩ | ⟨name, rest, hworklist, hstop⟩
  · have hworklist' : last'.worklist = [] := halike.worklist ▸ hworklist
    have hsatisfied : (check sources filter entry).result = .ok (.satisfied last.resolved) := hstop
    have hsatisfied' : (check others filter entry).result = .ok (.satisfied last'.resolved) := by
      rw [hresult, Walk.run_of_nil hworklist']
    have hfirst := isFirstIn_of_check_satisfied hsatisfied
    have hfirst' := isFirstIn_of_check_satisfied hsatisfied'
    rw [hsatisfied, hsatisfied']
    exact .satisfied halike.resolvedNames hfirst hfirst'
  · have hworklist' : last'.worklist = name :: rest := halike.worklist ▸ hworklist
    have hreachable : Reachable sources filter entry name := by
      apply (Walk.invariant_of_continues hsteps).reachable_of_mem_order
      simp [Walk.order, hworklist]
    have hsame : firstFinding sources name = firstFinding others name := hagree name hreachable
    rcases hstop with ⟨error, hfailed, hstop, _⟩ | ⟨habsent, hstop, _⟩
    · have hfails : (check sources filter entry).result = .error error := hstop
      rw [hfails, hresult, Walk.run_of_failed hworklist' (failed_of_firstFinding_eq hsame hfailed)]
      exact .failed error
    · have hmisses : (check sources filter entry).result = .ok (.missing name (last.chain name)) :=
        hstop
      rw [hmisses, hresult, Walk.run_of_absent hworklist' (absent_of_firstFinding_eq hsame habsent),
        halike.chain]
      exact .missing name _

/-- The outcome of a check depends on nothing but what is found first under the
reachable names.  So it stays the same, up to the numbers of the sources, when sources
are inserted that lack these names, when a source changes its answers where they are
shadowed or not reachable, and when sources that do not contradict one another on
these names change places. -/
theorem check_depends_on_first_findings (sources : List ClassSource) (filter : PlatformFilter)
    (entry : ClassName) :
    (∀ others, AgreeOnReachable sources others filter entry →
      SameVerdict sources others (check sources filter entry).result
        (check others filter entry).result) ∧
    (∀ before inserted after, sources = before ++ after →
      (∀ source ∈ inserted, ∀ name, Reachable sources filter entry name → source.Lacks name) →
      SameVerdict sources (before ++ inserted ++ after) (check sources filter entry).result
        (check (before ++ inserted ++ after) filter entry).result) ∧
    (∀ before old new after, sources = before ++ old :: after →
      (∀ name, Reachable sources filter entry name → (∀ earlier ∈ before, earlier.Lacks name) →
        (old.answer name).finding = (new.answer name).finding) →
      SameVerdict sources (before ++ new :: after) (check sources filter entry).result
        (check (before ++ new :: after) filter entry).result) ∧
    ∀ others, others.Perm sources →
      (∀ name, Reachable sources filter entry name → ∀ a ∈ sources, ∀ b ∈ sources,
        ¬ a.Lacks name → ¬ b.Lacks name → (a.answer name).finding = (b.answer name).finding) →
      SameVerdict sources others (check sources filter entry).result
        (check others filter entry).result := by
  refine ⟨fun others hagree => hagree.sameVerdict, ?_, ?_, ?_⟩
  · rintro before inserted after rfl hlacks
    apply AgreeOnReachable.sameVerdict
    intro name hname
    exact (firstFinding_insert fun source hsource => hlacks source hsource name hname).symm
  · rintro before old new after rfl hsame
    apply AgreeOnReachable.sameVerdict
    intro name hname
    exact firstFinding_replace (hsame name hname)
  · intro others hperm hsame
    apply AgreeOnReachable.sameVerdict
    intro name hname
    exact firstFinding_perm hperm (hsame name hname)

/-- A class and the one that it calls, from one source. -/
def couple : List ClassSource :=
  [.inMemory "couple" [(⟨"a"⟩, .decoded (callerOf "b")), (⟨"b"⟩, .decoded {})]]

/-- The same two classes from different sources, among a class that is not reached and
a second definition that comes too late. -/
def scatteredCouple : List ClassSource :=
  [.inMemory "first" [(⟨"b"⟩, .decoded {}), (⟨"z"⟩, .decoded (callerOf "nowhere"))],
    .inMemory "second" [(⟨"a"⟩, .decoded (callerOf "b")), (⟨"b"⟩, .decoded (callerOf "nowhere"))]]

theorem references_callerOf_b : (callerOf "b").references .empty = [⟨"b"⟩] := by cbv

theorem references_plain : ({} : ClassModel).references .empty = [] := by cbv

/-- Only the two classes are reached. -/
theorem mem_of_reachable_couple {name : ClassName}
    (h : Reachable couple .empty ⟨"a"⟩ name) : name ∈ [(⟨"a"⟩ : ClassName), ⟨"b"⟩] := by
  refine mem_of_reachable (by simp) ?_ h
  have hmodelA : modelOf? couple ⟨"a"⟩ = some (callerOf "b") := rfl
  have hmodelB : modelOf? couple ⟨"b"⟩ = some {} := rfl
  intro name hname reference href
  obtain ⟨model, hmodel, href⟩ := href
  simp only [List.mem_cons, List.not_mem_nil, or_false] at hname
  rcases hname with rfl | rfl
  · obtain rfl : callerOf "b" = model := by simpa [hmodelA] using hmodel
    simpa [references_callerOf_b] using Or.inr href
  · obtain rfl : {} = model := by simpa [hmodelB] using hmodel
    simp [references_plain] at href

theorem agreeOnReachable_scatteredCouple :
    AgreeOnReachable couple scatteredCouple .empty ⟨"a"⟩ := by
  intro name hname
  have hmem := mem_of_reachable_couple hname
  simp only [List.mem_cons, List.not_mem_nil, or_false] at hmem
  rcases hmem with rfl | rfl
  · rfl
  · rfl

theorem check_scatteredCouple :
    AgreeOnReachable couple scatteredCouple .empty ⟨"a"⟩ ∧
    (check couple .empty ⟨"a"⟩).result = .ok (.satisfied [⟨⟨"a"⟩, 0⟩, ⟨⟨"b"⟩, 0⟩]) ∧
    (check scatteredCouple .empty ⟨"a"⟩).result = .ok (.satisfied [⟨⟨"a"⟩, 1⟩, ⟨⟨"b"⟩, 0⟩]) ∧
    SameVerdict couple scatteredCouple (check couple .empty ⟨"a"⟩).result
      (check scatteredCouple .empty ⟨"a"⟩).result := by
  refine ⟨agreeOnReachable_scatteredCouple, ?_, ?_, ?_⟩
  · calc (check couple .empty ⟨"a"⟩).result = _ := Walk.run_of_found rfl rfl references_callerOf_b
      _ = _ := Walk.run_of_found rfl rfl references_plain
      _ = _ := Walk.run_of_nil rfl
  · calc (check scatteredCouple .empty ⟨"a"⟩).result = _ :=
          Walk.run_of_found rfl rfl references_callerOf_b
      _ = _ := Walk.run_of_found rfl rfl references_plain
      _ = _ := Walk.run_of_nil rfl
  · exact (check_depends_on_first_findings couple .empty ⟨"a"⟩).1 scatteredCouple
      agreeOnReachable_scatteredCouple

end Classpath
