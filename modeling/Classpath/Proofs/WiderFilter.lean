import Classpath.Proofs.CheckOutcome
import Classpath.Settings

/-!
# Filters that provide more

A class that the platform provides is not followed.  A filter that provides more
classes therefore leaves fewer paths, all of which are paths under the narrower filter
too.  What was satisfied stays satisfied with fewer classes to find, and what is missed
in spite of the wider filter is not found without it.
-/

namespace Classpath

/-! ## Comparing filters -/

/-- Whatever the first filter provides, the second one provides. -/
def PlatformFilter.Within (narrow wide : PlatformFilter) : Prop :=
  ∀ name, narrow.provides name = true → wide.provides name = true

/-- Neither the order of the starts nor their repeats matter. -/
theorem PlatformFilter.provides_ofStarts {starts : List String} {name : ClassName} :
    (ofStarts starts).provides name = true ↔
      ∃ start ∈ starts, start ≠ "" ∧ name.beginsWith start = true := by
  simp [provides, ofStarts, mem_ascending, and_assoc]

/-- More starts make a wider filter, and the disabled filter is the narrowest. -/
theorem Settings.platformFilter_within (settings : Settings) {starts more : List String}
    (h : starts ⊆ more) (isDisabled : Bool) :
    (settings.platformFilter starts isDisabled).Within (settings.platformFilter more false) := by
  intro name hname
  cases isDisabled with
  | true => simp [platformFilter, PlatformFilter.empty, PlatformFilter.provides] at hname
  | false =>
      simp only [platformFilter, Bool.false_eq_true, if_false,
        PlatformFilter.provides_ofStarts] at hname ⊢
      obtain ⟨start, hstart, hrest⟩ := hname
      refine ⟨start, ?_, hrest⟩
      rcases List.mem_append.1 hstart with hown | hextra
      · exact List.mem_append_left _ hown
      · exact List.mem_append_right _ (h hextra)

section

variable {sources : List ClassSource} {narrow wide : PlatformFilter} {entry : ClassName}

/-! ## Fewer steps, fewer paths -/

theorem RefersTo.of_within (hwithin : narrow.Within wide) {name reference : ClassName}
    (h : RefersTo sources wide name reference) : RefersTo sources narrow name reference := by
  obtain ⟨model, hmodel, href⟩ := h
  obtain ⟨hmention, hwide⟩ := ClassModel.mem_references.1 href
  have hnarrow : ¬ narrow.provides reference = true := fun h => hwide (hwithin reference h)
  exact ⟨model, hmodel, ClassModel.mem_references.2 ⟨hmention, hnarrow⟩⟩

theorem Reachable.of_within (hwithin : narrow.Within wide) {name : ClassName}
    (h : Reachable sources wide entry name) : Reachable sources narrow entry name := by
  induction h with
  | refl => exact .refl
  | tail _ href ih => exact ih.tail (href.of_within hwithin)

theorem Path.of_within (hwithin : narrow.Within wide) {path : List ClassName} {name : ClassName}
    (h : Path sources wide entry path name) : Path sources narrow entry path name := by
  induction h with
  | start => exact .start
  | step _ href ih => exact ih.step (href.of_within hwithin)

/-! ## The outcome of a check -/

/-- A class that is listed with both filters is listed with the same source. -/
theorem mem_of_check_satisfied {filter other : PlatformFilter}
    {resolved resolved' : List ResolvedClass}
    (h : (check sources filter entry).result = .ok (.satisfied resolved))
    (h' : (check sources other entry).result = .ok (.satisfied resolved'))
    {item : ResolvedClass} (hitem : item ∈ resolved')
    (hname : item.name ∈ resolved.map (·.name)) : item ∈ resolved := by
  obtain ⟨listed, hlisted, hsame⟩ := List.mem_map.1 hname
  obtain ⟨model, hfound⟩ := (of_check_satisfied h).2 listed hlisted
  obtain ⟨model', hfound'⟩ := (of_check_satisfied h').2 item hitem
  rw [hsame, hfound'] at hfound
  have hsource : item.source = listed.source := (Resolution.found.inj hfound).1
  obtain rfl : listed = item := by
    cases listed
    cases item
    simp_all
  exact hlisted

theorem check_satisfied_of_within (hwithin : narrow.Within wide) {resolved : List ResolvedClass}
    (h : (check sources narrow entry).result = .ok (.satisfied resolved)) :
    ∃ fewer, (check sources wide entry).result = .ok (.satisfied fewer) ∧ fewer ⊆ resolved := by
  have hlisted := (of_check_satisfied h).1
  obtain ⟨fewer, hfewer⟩ : ∃ fewer, (check sources wide entry).result = .ok (.satisfied fewer) := by
    apply exists_check_satisfied
    intro name hname hunresolved
    obtain ⟨item, hitem, rfl⟩ := List.mem_map.1 ((hlisted name).2 (hname.of_within hwithin))
    obtain ⟨model, hfound⟩ := (of_check_satisfied h).2 item hitem
    simp [Unresolved, modelOf?, hfound, Resolution.model?] at hunresolved
  refine ⟨fewer, hfewer, fun item hitem => ?_⟩
  have hreachable : Reachable sources wide entry item.name :=
    ((of_check_satisfied hfewer).1 item.name).1 (List.mem_map_of_mem hitem)
  exact mem_of_check_satisfied h hfewer hitem ((hlisted item.name).2 (hreachable.of_within hwithin))

theorem chain_notAfter_of_within (hwithin : narrow.Within wide) {name other : ClassName}
    {chain earlier : List ClassName}
    (h : (check sources wide entry).result = .ok (.missing name chain))
    (h' : (check sources narrow entry).result = .ok (.missing other earlier)) :
    NotAfter earlier chain := by
  obtain ⟨hwide, _⟩ := check_missing_iff.1 h
  obtain ⟨hnarrow, _⟩ := check_missing_iff.1 h'
  exact hnarrow.first chain name (hwide.leads.of_within hwithin) hwide.unresolved

end

/-- With more starts, or with a filter in place of none, a satisfied check stays
satisfied and lists none but the classes that it listed.  A class that is missing even
so keeps the check with fewer starts from being satisfied, and if that check misses a
class, its chain is not a later one. -/
theorem check_widen_filter (settings : Settings) {starts more : List String}
    (hstarts : starts ⊆ more) (isDisabled : Bool) (sources : List ClassSource)
    (entry : ClassName) :
    (∀ resolved, (check sources (settings.platformFilter starts isDisabled) entry).result =
        .ok (.satisfied resolved) →
      ∃ fewer, (check sources (settings.platformFilter more false) entry).result =
        .ok (.satisfied fewer) ∧ ∀ item ∈ fewer, item ∈ resolved) ∧
    ∀ name chain, (check sources (settings.platformFilter more false) entry).result =
        .ok (.missing name chain) →
      (∀ resolved, (check sources (settings.platformFilter starts isDisabled) entry).result ≠
        .ok (.satisfied resolved)) ∧
      ∀ other earlier, (check sources (settings.platformFilter starts isDisabled) entry).result =
        .ok (.missing other earlier) → NotAfter earlier chain := by
  have hwithin := settings.platformFilter_within hstarts isDisabled
  refine ⟨fun resolved h => ?_, fun name chain h => ⟨fun resolved h' => ?_, fun other earlier h' => ?_⟩⟩
  · exact check_satisfied_of_within hwithin h
  · obtain ⟨fewer, hfewer, _⟩ := check_satisfied_of_within hwithin h'
    simp [h] at hfewer
  · exact chain_notAfter_of_within hwithin h h'

/-- The relay is complete under a filter that provides its last class only. -/
theorem check_relay_of_references {filter : PlatformFilter}
    (hb : (callerOf "b").references filter = [⟨"b"⟩]) (hc : (callerOf "c").references filter = []) :
    (check relay filter ⟨"a"⟩).result = .ok (.satisfied [⟨⟨"a"⟩, 0⟩, ⟨⟨"b"⟩, 0⟩]) := by
  calc (check relay filter ⟨"a"⟩).result = _ := Walk.run_of_found rfl rfl hb
    _ = _ := Walk.run_of_found rfl rfl hc
    _ = _ := Walk.run_of_nil rfl

/-- The relay is complete at once if its second class is provided too. -/
theorem check_relay_of_no_references {filter : PlatformFilter}
    (hb : (callerOf "b").references filter = []) :
    (check relay filter ⟨"a"⟩).result = .ok (.satisfied [⟨⟨"a"⟩, 0⟩]) := by
  calc (check relay filter ⟨"a"⟩).result = _ := Walk.run_of_found rfl rfl hb
    _ = _ := Walk.run_of_nil rfl

/-- With one start more the second class of the relay is not looked up. -/
theorem check_relay_widened :
    ["c"] ⊆ ["b", "c"] ∧
      (check relay (Settings.platformFilter ⟨[]⟩ ["c"] false) ⟨"a"⟩).result =
        .ok (.satisfied [⟨⟨"a"⟩, 0⟩, ⟨⟨"b"⟩, 0⟩]) ∧
      ∃ fewer, (check relay (Settings.platformFilter ⟨[]⟩ ["b", "c"] false) ⟨"a"⟩).result =
        .ok (.satisfied fewer) ∧ fewer = [⟨⟨"a"⟩, 0⟩] ∧
        ∀ item ∈ fewer, item ∈ [(⟨⟨"a"⟩, 0⟩ : ResolvedClass), ⟨⟨"b"⟩, 0⟩] := by
  have hstarts : ["c"] ⊆ ["b", "c"] := by decide
  have hb : (callerOf "b").references (Settings.platformFilter ⟨[]⟩ ["c"] false) = [⟨"b"⟩] := by
    cbv
  have hc : (callerOf "c").references (Settings.platformFilter ⟨[]⟩ ["c"] false) = [] := by
    cbv
  have hsatisfied := check_relay_of_references hb hc
  have hprovided :
      (callerOf "b").references (Settings.platformFilter ⟨[]⟩ ["b", "c"] false) = [] := by
    refine List.eq_nil_iff_forall_not_mem.2 fun name hname => ?_
    obtain ⟨hmention, hnot⟩ := ClassModel.mem_references.1 hname
    obtain rfl : name = ⟨"b"⟩ := by
      have hmentions : (callerOf "b").mentions = [⟨"b"⟩] := by cbv
      simpa [hmentions] using hmention
    exact hnot (PlatformFilter.provides_ofStarts.2 ⟨"b", by decide, by decide, by decide +kernel⟩)
  obtain ⟨fewer, hfewer, hamong⟩ :=
    (check_widen_filter ⟨[]⟩ hstarts false relay ⟨"a"⟩).1 _ hsatisfied
  have hsame : [⟨⟨"a"⟩, 0⟩] = fewer := by
    simpa [check_relay_of_no_references hprovided] using hfewer
  exact ⟨hstarts, hsatisfied, fewer, hfewer, hsame.symm, hamong⟩

end Classpath
