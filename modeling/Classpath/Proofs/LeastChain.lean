import Classpath.Proofs.WalkInvariant

/-!
# Recorded chains are least paths

Whoever follows references from the entry meets a class of the worklist before
any class that was not seen.  Since the chains of the worklist come after those
of the resolved classes, the chain recorded for a class is the first of all
paths to it, and its length gives the distance of the class.
-/

namespace Classpath
namespace Walk
namespace Invariant

variable {sources : List ClassSource} {filter : PlatformFilter} {entry : ClassName} {walk : Walk}

/-- The recorded chain of a class is a path to it. -/
theorem path_chain (hinv : Invariant sources filter entry walk) {name : ClassName}
    (hname : name ∈ walk.order) : Path sources filter entry (walk.chain name) name := by
  -- The chain of the referrer is one step shorter.
  induction hlength : (walk.chain name).length using Nat.strong_induction_on generalizing name with
  | _ length ih =>
      by_cases hentry : name = entry
      · rw [hentry, hinv.root.2]
        exact .start
      · obtain ⟨parent, hparent, _, href, hchain⟩ := hinv.referrer name hname hentry
        have hshorter : (walk.chain parent).length < length := by
          rw [← hlength, hchain]
          simp
        rw [hchain]
        exact (ih _ hshorter (List.mem_append_left _ hparent) rfl).step href

theorem reachable_of_mem_order (hinv : Invariant sources filter entry walk) {name : ClassName}
    (hname : name ∈ walk.order) : Reachable sources filter entry name :=
  reachable_iff_exists_path.2 ⟨_, hinv.path_chain hname⟩

/-- A path stays among the resolved classes or goes through the worklist. -/
theorem resolved_or_worklist (hinv : Invariant sources filter entry walk)
    {path : List ClassName} {name : ClassName} (hpath : Path sources filter entry path name) :
    name ∈ walk.resolvedNames ∨
      ∃ first ∈ walk.worklist, ∃ start, Path sources filter entry start first ∧ start <+: path := by
  induction hpath with
  | start =>
      rcases List.mem_append.1 hinv.entry_mem with hresolved | hworklist
      · exact .inl hresolved
      · exact .inr ⟨entry, hworklist, [entry], .start, List.prefix_rfl⟩
  | @step path name reference hpath href ih =>
      rcases ih with hresolved | ⟨first, hfirst, start, hstart, hprefix⟩
      · rcases List.mem_append.1 (hinv.closed name hresolved reference href).1 with
          hresolved' | hworklist
        · exact .inl hresolved'
        · exact .inr ⟨reference, hworklist, _, hpath.step href, List.prefix_rfl⟩
      · exact .inr ⟨first, hfirst, start, hstart, hprefix.trans (List.prefix_append _ _)⟩

/-- The recorded chain of a class comes before every other path to it. -/
theorem chain_notAfter (hinv : Invariant sources filter entry walk) {path : List ClassName}
    {name : ClassName} (hname : name ∈ walk.order)
    (hpath : Path sources filter entry path name) : NotAfter (walk.chain name) path := by
  -- On the length of the path: both its next-to-last class and the first class of the worklist
  -- on it are the ends of shorter paths.
  induction hlength : path.length using Nat.strong_induction_on generalizing path name with
  | _ length ih =>
      by_cases hentry : name = entry
      · rw [hentry, hinv.root.2]
        apply NotAfter.of_isPrefix
        obtain ⟨rest, rfl⟩ := List.head?_eq_some_iff.1 hpath.head?_eq
        simp
      · cases hpath with
        | start => exact absurd rfl hentry
        | @step before last _ hbefore href =>
            have hshorter : before.length < length := by
              rw [← hlength]
              simp
            rcases hinv.resolved_or_worklist hbefore with hresolved | ⟨first, hfirst, start, hstart, hprefix⟩
            · have hle := ih _ hshorter (List.mem_append_left _ hresolved) hbefore rfl
              exact (hinv.closed last hresolved name href).2.trans (hle.append_singleton name)
            · -- The referrer of the class was resolved before the path leaves what was resolved.
              obtain ⟨parent, hparent, _, _, hchain⟩ := hinv.referrer name hname hentry
              have hstartShorter : start.length < length :=
                Nat.lt_of_le_of_lt hprefix.length_le hshorter
              have hle := ih _ hstartShorter (List.mem_append_right _ hfirst) hstart rfl
              have hfirstLe : NotAfter (walk.chain parent) (walk.chain first) :=
                .inr (hinv.before_of_mem hparent hfirst)
              have hparentLe : NotAfter (walk.chain parent) before :=
                (hfirstLe.trans hle).trans (.of_isPrefix hprefix)
              rw [hchain]
              exact hparentLe.append_singleton name

/-- The distance of a class is the number of steps of its chain. -/
theorem distance_add_one (hinv : Invariant sources filter entry walk) {name : ClassName}
    (hname : name ∈ walk.order) :
    distance sources filter entry name + 1 = (walk.chain name).length := by
  have hchain := hinv.path_chain hname
  have hpos := hchain.length_pos
  -- The chain shows that the least number is attained, and no path is shorter.
  have hmem : (walk.chain name).length - 1 ∈
      {steps | ∃ path, Path sources filter entry path name ∧ path.length = steps + 1} :=
    ⟨_, hchain, by omega⟩
  obtain ⟨path, hpath, hlength⟩ := Nat.sInf_mem ⟨_, hmem⟩
  have hle := (hinv.chain_notAfter hname hpath).length_le
  have hge := Nat.sInf_le hmem
  unfold distance
  omega

theorem pairwise_distance_le (hinv : Invariant sources filter entry walk) :
    walk.order.Pairwise fun a b =>
      distance sources filter entry a ≤ distance sources filter entry b := by
  refine hinv.sorted.imp_of_mem fun {a b} ha hb hab => ?_
  have hlength := hab.length_le
  rw [← hinv.distance_add_one ha, ← hinv.distance_add_one hb] at hlength
  omega

end Invariant
end Walk
end Classpath
