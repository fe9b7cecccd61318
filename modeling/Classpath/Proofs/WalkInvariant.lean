import Classpath.Proofs.WalkStep

/-!
# What holds throughout a walk

The chains recorded by a walk are paths from the entry, and they follow one
another in the order of paths.  Every reference of a resolved class has been
seen, by a chain that does not come after the one through that class.
-/

namespace Classpath
namespace Walk

/-! ## Recorded chains -/

theorem chainTo_eq_append (name : ClassName) (after : List ClassName)
    (records : List (ClassName × ClassName)) :
    chainTo name after records = chainTo name [] records ++ after := by
  induction records generalizing name after with
  | nil => rfl
  | cons record older ih =>
      obtain ⟨child, parent⟩ := record
      rw [chainTo, chainTo]
      split
      · rw [ih parent (name :: after), ih parent [name], List.append_assoc]
        rfl
      · exact ih name after

/-- Records of one referrer lengthen the chains of their own names by one step
and change no other chain. -/
theorem chainTo_records {names : List ClassName} {referrer : ClassName}
    (hreferrer : referrer ∉ names) (name : ClassName) (older : List (ClassName × ClassName)) :
    chainTo name [] (names.map (·, referrer) ++ older) =
      if name ∈ names then chainTo referrer [] older ++ [name] else chainTo name [] older := by
  induction names generalizing name with
  | nil => simp
  | cons first rest ih =>
      rw [List.mem_cons, not_or] at hreferrer
      rw [List.map_cons, List.cons_append, chainTo]
      by_cases hname : first = name
      · -- The search goes on from the referrer, which none of the other records names.
        rw [if_pos hname, chainTo_eq_append, ih hreferrer.2, if_neg hreferrer.2]
        simp [hname]
      · rw [if_neg hname, ih hreferrer.2]
        have hname' : name ≠ first := fun h => hname h.symm
        simp [hname']

theorem chain_resolve {filter : PlatformFilter} {name : ClassName} {source : Nat}
    {model : ClassModel} (walk : Walk) (hseen : name ∈ walk.visited) (other : ClassName) :
    (walk.resolve filter name source model).chain other =
      if other ∈ walk.fresh (model.references filter) then walk.chain name ++ [other]
      else walk.chain other := by
  have hname : name ∉ (walk.fresh (model.references filter)).reverse := by
    simp [mem_fresh, hseen]
  rw [resolve_eq, chain, chainTo_records hname]
  simp [chain]

theorem lookup_records {names : List ClassName} {referrer : ClassName} (other : ClassName)
    (older : List (ClassName × ClassName)) :
    (names.map (·, referrer) ++ older).lookup other =
      if other ∈ names then some referrer else older.lookup other := by
  induction names with
  | nil => simp
  | cons first rest ih =>
      rw [List.map_cons, List.cons_append, List.lookup_cons, ih]
      by_cases hother : other = first
      · simp [hother]
      · rw [beq_false_of_ne hother]
        simp [hother]

/-! ## The invariant -/

/-- What holds before every round of a walk from an entry. -/
structure Invariant (sources : List ClassSource) (filter : PlatformFilter) (entry : ClassName)
    (walk : Walk) : Prop where
  /-- No class is seen twice. -/
  nodup : walk.order.Nodup
  mem_visited : ∀ name, name ∈ walk.visited ↔ name ∈ walk.order
  head : walk.order.head? = some entry
  found : ∀ item ∈ walk.resolved, ∃ model,
    (resolveFirst sources item.name).1 = .found item.source model
  /-- The entry was not reached through another class. -/
  root : walk.referrers.lookup entry = none ∧ walk.chain entry = [entry]
  /-- Every other class was reached through a resolved one. -/
  referrer : ∀ name ∈ walk.order, name ≠ entry → ∃ parent ∈ walk.resolvedNames,
    walk.referrers.lookup name = some parent ∧ RefersTo sources filter parent name ∧
      walk.chain name = walk.chain parent ++ [name]
  /-- The references of resolved classes have been seen, by no later chain. -/
  closed : ∀ name ∈ walk.resolvedNames, ∀ reference, RefersTo sources filter name reference →
    reference ∈ walk.order ∧ NotAfter (walk.chain reference) (walk.chain name ++ [reference])
  /-- Classes were seen in the order of their chains. -/
  sorted : walk.order.Pairwise fun a b => Before (walk.chain a) (walk.chain b)

theorem invariant_start (sources : List ClassSource) (filter : PlatformFilter)
    (entry : ClassName) : Invariant sources filter entry (start entry) where
  nodup := by simp [order, resolvedNames, start]
  mem_visited := by simp [order, resolvedNames, start]
  head := by simp [order, resolvedNames, start]
  found := by simp [start]
  root := by simp [start, chain, chainTo]
  referrer := by simp [order, resolvedNames, start]
  closed := by simp [resolvedNames, start]
  sorted := by simp [order, resolvedNames, start]

namespace Invariant

variable {sources : List ClassSource} {filter : PlatformFilter} {entry : ClassName} {walk : Walk}

theorem entry_mem (hinv : Invariant sources filter entry walk) : entry ∈ walk.order :=
  List.mem_of_mem_head? hinv.head

/-- A resolved class comes before every class of the worklist. -/
theorem before_of_mem (hinv : Invariant sources filter entry walk) {name other : ClassName}
    (hname : name ∈ walk.resolvedNames) (hother : other ∈ walk.worklist) :
    Before (walk.chain name) (walk.chain other) :=
  (List.pairwise_append.1 hinv.sorted).2.2 name hname other hother

theorem chain_ne_nil (hinv : Invariant sources filter entry walk) {name : ClassName}
    (hname : name ∈ walk.order) : walk.chain name ≠ [] := by
  by_cases hentry : name = entry
  · rw [hentry, hinv.root.2]
    simp
  · obtain ⟨parent, _, _, _, hchain⟩ := hinv.referrer name hname hentry
    rw [hchain]
    simp

/-- Whatever has been seen comes before each step from a class of the worklist. -/
theorem before_append (hinv : Invariant sources filter entry walk) {name other : ClassName}
    (hname : name ∈ walk.worklist) (hother : other ∈ walk.order) (reference : ClassName) :
    Before (walk.chain other) (walk.chain name ++ [reference]) := by
  by_cases hentry : other = entry
  · -- The chain of the entry is shorter than any chain with a step.
    rw [hentry, hinv.root.2]
    apply Before.of_length_lt
    have hpos := List.length_pos_iff.2
      (hinv.chain_ne_nil (List.mem_append_right walk.resolvedNames hname))
    simp only [List.length_append, List.length_singleton]
    omega
  · -- Both chains go on by one step, and the shorter ones compare as the classes were resolved.
    obtain ⟨parent, hparent, _, _, hchain⟩ := hinv.referrer other hother hentry
    rw [hchain]
    exact (hinv.before_of_mem hparent hname).append_singleton other reference

end Invariant

/-! ## One round -/

/-- How a round that finds a class changes a walk: the class joins the resolved
ones, and `new` joins the worklist. -/
structure Advance (sources : List ClassSource) (filter : PlatformFilter) (walk next : Walk)
    (name : ClassName) (new : List ClassName) : Prop where
  mem_worklist : name ∈ walk.worklist
  resolvedNames_eq : next.resolvedNames = walk.resolvedNames ++ [name]
  /-- The class moves across the border, so the order only grows at its end. -/
  order_eq : next.order = walk.order ++ new
  mem_visited : ∀ other, other ∈ next.visited ↔ other ∈ walk.visited ∨ other ∈ new
  mem_new : ∀ other, other ∈ new ↔ RefersTo sources filter name other ∧ other ∉ walk.visited
  sorted_new : new.Pairwise fun a b => a.bytes < b.bytes
  lookup_eq : ∀ other, next.referrers.lookup other =
    if other ∈ new then some name else walk.referrers.lookup other
  chain_eq : ∀ other, next.chain other =
    if other ∈ new then walk.chain name ++ [other] else walk.chain other
  found : ∀ item ∈ next.resolved, item ∈ walk.resolved ∨
    ∃ model, (resolveFirst sources item.name).1 = .found item.source model

theorem advance_resolve {sources : List ClassSource} {filter : PlatformFilter} {walk : Walk}
    {name : ClassName} {rest : List ClassName} {source : Nat} {model : ClassModel}
    (hseen : name ∈ walk.visited) (hworklist : walk.worklist = name :: rest)
    (hfound : (resolveFirst sources name).1 = .found source model) :
    Advance sources filter walk (resolve filter { walk with worklist := rest } name source model)
      name (walk.fresh (model.references filter)) where
  mem_worklist := by simp [hworklist]
  resolvedNames_eq := by simp [resolve_eq, resolvedNames]
  order_eq := by simp [resolve_eq, order, resolvedNames, hworklist, fresh]
  mem_visited := by simp [resolve_eq, fresh, or_comm]
  mem_new := by simp [mem_fresh, RefersTo, modelOf?, hfound, Resolution.model?]
  sorted_new := (model.pairwise_references filter).filter _
  lookup_eq other := by
    rw [resolve_eq, lookup_records]
    simp [fresh]
  chain_eq other := chain_resolve { walk with worklist := rest } hseen other
  found item hitem := by
    simp only [resolve_eq, List.mem_append, List.mem_singleton] at hitem
    rcases hitem with hold | rfl
    · exact .inl hold
    · exact .inr ⟨model, hfound⟩

namespace Advance

variable {sources : List ClassSource} {filter : PlatformFilter} {entry name : ClassName}
  {walk next : Walk} {new : List ClassName}

theorem not_mem_order (hadv : Advance sources filter walk next name new)
    (hinv : Invariant sources filter entry walk) {other : ClassName} (hother : other ∈ new) :
    other ∉ walk.order :=
  fun h => ((hadv.mem_new other).1 hother).2 ((hinv.mem_visited other).2 h)

theorem chain_of_mem_order (hadv : Advance sources filter walk next name new)
    (hinv : Invariant sources filter entry walk) {other : ClassName}
    (hother : other ∈ walk.order) : next.chain other = walk.chain other := by
  rw [hadv.chain_eq, if_neg fun h => hadv.not_mem_order hinv h hother]

theorem chain_of_mem_new (hadv : Advance sources filter walk next name new) {other : ClassName}
    (hother : other ∈ new) : next.chain other = walk.chain name ++ [other] := by
  rw [hadv.chain_eq, if_pos hother]

theorem nodup_order (hadv : Advance sources filter walk next name new)
    (hinv : Invariant sources filter entry walk) : next.order.Nodup := by
  rw [hadv.order_eq, List.nodup_append]
  refine ⟨hinv.nodup, hadv.sorted_new.imp fun {a b} hlt heq => ?_, ?_⟩
  · exact List.lt_irrefl _ (heq ▸ hlt)
  · rintro a ha b hb rfl
    exact hadv.not_mem_order hinv hb ha

theorem exists_referrer (hadv : Advance sources filter walk next name new)
    (hinv : Invariant sources filter entry walk) {other : ClassName}
    (hother : other ∈ next.order) (hne : other ≠ entry) :
    ∃ parent ∈ next.resolvedNames, next.referrers.lookup other = some parent ∧
      RefersTo sources filter parent other ∧ next.chain other = next.chain parent ++ [other] := by
  have hname : name ∈ walk.order := List.mem_append_right _ hadv.mem_worklist
  rw [hadv.order_eq] at hother
  rw [hadv.resolvedNames_eq]
  rcases List.mem_append.1 hother with hold | hnew
  · obtain ⟨parent, hparent, hlookup, href, hchain⟩ := hinv.referrer other hold hne
    refine ⟨parent, List.mem_append_left _ hparent, ?_, href, ?_⟩
    · rw [hadv.lookup_eq, if_neg fun h => hadv.not_mem_order hinv h hold]
      exact hlookup
    · rw [hadv.chain_of_mem_order hinv hold,
        hadv.chain_of_mem_order hinv (List.mem_append_left _ hparent)]
      exact hchain
  · refine ⟨name, List.mem_append_right _ (List.mem_singleton_self name), ?_,
      ((hadv.mem_new other).1 hnew).1, ?_⟩
    · rw [hadv.lookup_eq, if_pos hnew]
    · rw [hadv.chain_of_mem_new hnew, hadv.chain_of_mem_order hinv hname]

theorem references_seen (hadv : Advance sources filter walk next name new)
    (hinv : Invariant sources filter entry walk) {other reference : ClassName}
    (hother : other ∈ next.resolvedNames) (href : RefersTo sources filter other reference) :
    reference ∈ next.order ∧
      NotAfter (next.chain reference) (next.chain other ++ [reference]) := by
  rw [hadv.resolvedNames_eq] at hother
  rw [hadv.order_eq]
  rcases List.mem_append.1 hother with hold | hlast
  · obtain ⟨hmem, hle⟩ := hinv.closed other hold reference href
    refine ⟨List.mem_append_left _ hmem, ?_⟩
    rw [hadv.chain_of_mem_order hinv hmem,
      hadv.chain_of_mem_order hinv (List.mem_append_left _ hold)]
    exact hle
  · obtain rfl := List.mem_singleton.1 hlast
    rw [hadv.chain_of_mem_order hinv (List.mem_append_right _ hadv.mem_worklist)]
    by_cases hmem : reference ∈ walk.order
    · -- Seen earlier, so by a chain that comes before the one through the class.
      refine ⟨List.mem_append_left _ hmem, ?_⟩
      rw [hadv.chain_of_mem_order hinv hmem]
      exact .inr (hinv.before_append hadv.mem_worklist hmem reference)
    · have hnew : reference ∈ new :=
        (hadv.mem_new reference).2 ⟨href, fun h => hmem ((hinv.mem_visited reference).1 h)⟩
      exact ⟨List.mem_append_right _ hnew, .inl (hadv.chain_of_mem_new hnew)⟩

theorem sorted_order (hadv : Advance sources filter walk next name new)
    (hinv : Invariant sources filter entry walk) :
    next.order.Pairwise fun a b => Before (next.chain a) (next.chain b) := by
  rw [hadv.order_eq, List.pairwise_append]
  -- Old chains stay, new chains differ in their last step, and the old come before the new.
  refine ⟨?_, ?_, ?_⟩
  · refine hinv.sorted.imp_of_mem fun {a b} ha hb hab => ?_
    rw [hadv.chain_of_mem_order hinv ha, hadv.chain_of_mem_order hinv hb]
    exact hab
  · refine hadv.sorted_new.imp_of_mem fun {a b} ha hb hab => ?_
    rw [hadv.chain_of_mem_new ha, hadv.chain_of_mem_new hb]
    exact Before.append_of_lt hab _
  · intro a ha b hb
    rw [hadv.chain_of_mem_order hinv ha, hadv.chain_of_mem_new hb]
    exact hinv.before_append hadv.mem_worklist ha b

/-- One round keeps the invariant. -/
theorem invariant (hadv : Advance sources filter walk next name new)
    (hinv : Invariant sources filter entry walk) : Invariant sources filter entry next where
  nodup := hadv.nodup_order hinv
  mem_visited other := by
    rw [hadv.mem_visited, hadv.order_eq, List.mem_append, hinv.mem_visited]
  head := by
    rw [hadv.order_eq, List.head?_append, hinv.head]
    rfl
  found item hitem := (hadv.found item hitem).elim (hinv.found item) id
  root := by
    rw [hadv.lookup_eq, if_neg fun h => hadv.not_mem_order hinv h hinv.entry_mem,
      hadv.chain_of_mem_order hinv hinv.entry_mem]
    exact hinv.root
  referrer _ hother hne := hadv.exists_referrer hinv hother hne
  closed _ hother _ href := hadv.references_seen hinv hother href
  sorted := hadv.sorted_order hinv

end Advance

theorem Invariant.continues {sources : List ClassSource} {filter : PlatformFilter}
    {entry : ClassName} {walk next : Walk} (hinv : Invariant sources filter entry walk)
    (hnext : Continues sources filter walk next) : Invariant sources filter entry next := by
  obtain ⟨actions, hstep⟩ := hnext
  obtain ⟨name, rest, source, model, hworklist, hfound, rfl, _⟩ := step_eq_next hstep
  have hseen : name ∈ walk.visited := by
    rw [hinv.mem_visited, order, hworklist]
    simp
  exact (advance_resolve hseen hworklist hfound).invariant hinv

/-- The invariant holds at every point of every walk. -/
theorem invariant_of_continues {sources : List ClassSource} {filter : PlatformFilter}
    {entry : ClassName} {walk : Walk}
    (h : Relation.ReflTransGen (Continues sources filter) (start entry) walk) :
    Invariant sources filter entry walk := by
  induction h with
  | refl => exact invariant_start sources filter entry
  | tail _ hnext ih => exact ih.continues hnext

end Walk
end Classpath
