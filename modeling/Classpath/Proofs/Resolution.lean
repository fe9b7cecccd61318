import Classpath.Source

/-!
# What a list of sources makes of a name

The sources are asked in order.  The first that does not answer that the class
is absent decides, whether it defines the class or fails on it.  Sources that
lack the class, and sources after the one that decides, do not matter.
-/

namespace Classpath

/-- The source has the class. -/
def ClassSource.Defines (source : ClassSource) (name : ClassName) : Prop :=
  ∃ model, (source.answer name).finding = .found model

/-- The source answers that it does not have the class. -/
def ClassSource.Lacks (source : ClassSource) (name : ClassName) : Prop :=
  (source.answer name).finding = .absent

instance (source : ClassSource) (name : ClassName) : Decidable (source.Lacks name) :=
  inferInstanceAs (Decidable ((source.answer name).finding = .absent))

/-- The sources up to the one that decides lack the class. -/
theorem resolveFrom_eq_found_iff {name : ClassName} {index place : Nat}
    {sources : List ClassSource} {model : ClassModel} :
    (resolveFrom name index sources).1 = .found place model ↔
      ∃ before source after, sources = before ++ source :: after ∧
        (∀ earlier ∈ before, earlier.Lacks name) ∧
        (source.answer name).finding = .found model ∧ place = index + before.length := by
  induction sources generalizing index with
  | nil => simp [resolveFrom]
  | cons first rest ih =>
      constructor
      · intro h
        simp only [resolveFrom] at h
        split at h
        · next found hfound =>
            simp only [Resolution.found.injEq] at h
            obtain ⟨rfl, rfl⟩ := h
            exact ⟨[], first, rest, rfl, by simp, hfound, rfl⟩
        · simp at h
        · next habsent =>
            obtain ⟨before, source, after, rfl, hbefore, hfound, rfl⟩ := ih.1 h
            refine ⟨first :: before, source, after, rfl, ?_, hfound, ?_⟩
            · simpa [ClassSource.Lacks, habsent] using hbefore
            · simp only [List.length_cons]
              omega
      · rintro ⟨before, source, after, hsplit, hbefore, hfound, rfl⟩
        cases before with
        | nil =>
            obtain ⟨rfl, rfl⟩ : first = source ∧ rest = after := by simpa using hsplit
            simp [resolveFrom, hfound]
        | cons skipped before =>
            obtain ⟨rfl, rfl⟩ : first = skipped ∧ rest = before ++ source :: after := by
              simpa using hsplit
            have habsent : (first.answer name).finding = .absent :=
              hbefore first List.mem_cons_self
            have hplace : index + (first :: before).length = index + 1 + before.length := by
              simp only [List.length_cons]
              omega
            have hrest := ih.2 ⟨before, source, after, rfl,
              fun earlier hmem => hbefore earlier (List.mem_cons_of_mem _ hmem), hfound, hplace⟩
            simp only [resolveFrom, habsent, hrest]

/-- A class that is found comes from the first source that defines it. -/
theorem source_isLeast_of_found {sources : List ClassSource} {name : ClassName} {place : Nat}
    {model : ClassModel} (h : (resolveFirst sources name).1 = .found place model) :
    (∃ source, sources[place]? = some source ∧ source.Defines name) ∧
      ∀ index source, sources[index]? = some source → source.Defines name → place ≤ index := by
  obtain ⟨before, source, after, rfl, hbefore, hfound, rfl⟩ := resolveFrom_eq_found_iff.1 h
  simp only [Nat.zero_add]
  refine ⟨⟨source, by simp, model, hfound⟩, fun index other hother hdefines => ?_⟩
  -- A smaller index is that of a source that lacks the class.
  refine Nat.le_of_not_lt fun hlt => ?_
  rw [List.getElem?_append_left (by omega)] at hother
  obtain ⟨otherModel, hotherModel⟩ := hdefines
  have hlacks : (other.answer name).finding = .absent :=
    hbefore other (List.mem_of_getElem? hother)
  rw [hlacks] at hotherModel
  exact absurd hotherModel (by simp)

/-! ## Lists of sources put together -/

theorem resolveFrom_eq_absent_iff {name : ClassName} {index : Nat} {sources : List ClassSource} :
    (resolveFrom name index sources).1 = .absent ↔ ∀ source ∈ sources, source.Lacks name := by
  induction sources generalizing index with
  | nil => simp [resolveFrom]
  | cons first rest ih =>
      cases hfirst : (first.answer name).finding with
      | absent => simp [resolveFrom, ClassSource.Lacks, hfirst, ih]
      | found model => simp [resolveFrom, ClassSource.Lacks, hfirst]
      | failed error => simp [resolveFrom, ClassSource.Lacks, hfirst]

/-- Sources after the one that decides are not asked. -/
theorem resolveFrom_append_of_ne_absent {name : ClassName} {index : Nat}
    {sources : List ClassSource} (h : (resolveFrom name index sources).1 ≠ .absent)
    (more : List ClassSource) :
    resolveFrom name index (sources ++ more) = resolveFrom name index sources := by
  induction sources generalizing index with
  | nil => simp [resolveFrom] at h
  | cons first rest ih =>
      cases hfirst : (first.answer name).finding with
      | absent =>
          simp only [resolveFrom, hfirst] at h
          simp only [List.cons_append, resolveFrom, hfirst, ih h]
      | found model => simp [resolveFrom, hfirst]
      | failed error => simp [resolveFrom, hfirst]

/-- What was found, whichever source it comes from. -/
def Resolution.finding : Resolution → Finding
  | absent => .absent
  | found _ model => .found model
  | failed error => .failed error

namespace Resolution

theorem finding_eq_absent_iff {resolution : Resolution} :
    resolution.finding = .absent ↔ resolution = .absent := by
  cases resolution <;> simp [finding]

theorem finding_eq_found_iff {resolution : Resolution} {model : ClassModel} :
    resolution.finding = .found model ↔ ∃ source, resolution = .found source model := by
  cases resolution <;> simp [finding]

theorem finding_eq_failed_iff {resolution : Resolution} {error : CheckError} :
    resolution.finding = .failed error ↔ resolution = .failed error := by
  cases resolution <;> simp [finding]

end Resolution

/-- What the sources make of a name, whichever of them decides. -/
def firstFinding (sources : List ClassSource) (name : ClassName) : Finding :=
  (resolveFirst sources name).1.finding

section

variable {sources others : List ClassSource} {name : ClassName}

/-! Lists of sources that find the same under a name resolve it alike. -/

theorem absent_of_firstFinding_eq (hsame : firstFinding sources name = firstFinding others name)
    (h : (resolveFirst sources name).1 = .absent) : (resolveFirst others name).1 = .absent := by
  rw [firstFinding, h] at hsame
  exact Resolution.finding_eq_absent_iff.1 hsame.symm

theorem found_of_firstFinding_eq (hsame : firstFinding sources name = firstFinding others name)
    {source : Nat} {model : ClassModel} (h : (resolveFirst sources name).1 = .found source model) :
    ∃ source', (resolveFirst others name).1 = .found source' model := by
  rw [firstFinding, h] at hsame
  exact Resolution.finding_eq_found_iff.1 hsame.symm

theorem failed_of_firstFinding_eq (hsame : firstFinding sources name = firstFinding others name)
    {error : CheckError} (h : (resolveFirst sources name).1 = .failed error) :
    (resolveFirst others name).1 = .failed error := by
  rw [firstFinding, h] at hsame
  exact Resolution.finding_eq_failed_iff.1 hsame.symm

end

/-- The finding does not depend on how the sources are numbered. -/
theorem finding_resolveFrom (name : ClassName) (index : Nat) (sources : List ClassSource) :
    (resolveFrom name index sources).1.finding = firstFinding sources name := by
  suffices h : ∀ index other, (resolveFrom name index sources).1.finding =
      (resolveFrom name other sources).1.finding from h index 0
  induction sources with
  | nil => simp [resolveFrom]
  | cons first rest ih =>
      intro index other
      cases hfirst : (first.answer name).finding with
      | absent => simpa only [resolveFrom, hfirst] using ih (index + 1) (other + 1)
      | found model => simp [resolveFrom, hfirst, Resolution.finding]
      | failed error => simp [resolveFrom, hfirst, Resolution.finding]

theorem firstFinding_cons (first : ClassSource) (rest : List ClassSource) (name : ClassName) :
    firstFinding (first :: rest) name =
      if first.Lacks name then firstFinding rest name else (first.answer name).finding := by
  cases hfirst : (first.answer name).finding with
  | absent =>
      have hlacks : first.Lacks name := hfirst
      rw [if_pos hlacks, ← finding_resolveFrom name 1 rest]
      simp [firstFinding, resolveFirst, resolveFrom, hfirst]
  | found model =>
      simp [firstFinding, resolveFirst, resolveFrom, ClassSource.Lacks, hfirst, Resolution.finding]
  | failed error =>
      simp [firstFinding, resolveFirst, resolveFrom, ClassSource.Lacks, hfirst, Resolution.finding]

/-- Sources put in front matter only for the names that they do not all lack. -/
theorem firstFinding_append (before after : List ClassSource) (name : ClassName) :
    firstFinding (before ++ after) name =
      if ∀ source ∈ before, source.Lacks name then firstFinding after name
      else firstFinding before name := by
  induction before with
  | nil => simp
  | cons first rest ih =>
      rw [List.cons_append, firstFinding_cons, ih, firstFinding_cons]
      by_cases hfirst : first.Lacks name
      · simp [hfirst]
      · simp [hfirst]

/-- Sources that lack a name may stand anywhere. -/
theorem firstFinding_insert {before inserted after : List ClassSource} {name : ClassName}
    (h : ∀ source ∈ inserted, source.Lacks name) :
    firstFinding (before ++ inserted ++ after) name = firstFinding (before ++ after) name := by
  rw [List.append_assoc, firstFinding_append, firstFinding_append inserted, if_pos h,
    firstFinding_append before after]

/-- A source may answer anything if an earlier one decides. -/
theorem firstFinding_replace {before after : List ClassSource} {old new : ClassSource}
    {name : ClassName} (h : (∀ earlier ∈ before, earlier.Lacks name) →
      (old.answer name).finding = (new.answer name).finding) :
    firstFinding (before ++ old :: after) name = firstFinding (before ++ new :: after) name := by
  rw [firstFinding_append, firstFinding_append]
  by_cases hbefore : ∀ earlier ∈ before, earlier.Lacks name
  · have hlacks : old.Lacks name ↔ new.Lacks name := by
      rw [ClassSource.Lacks, ClassSource.Lacks, h hbefore]
    rw [if_pos hbefore, if_pos hbefore, firstFinding_cons, firstFinding_cons]
    simp only [hlacks, h hbefore]
  · rw [if_neg hbefore, if_neg hbefore]

/-- If all sources that do not lack a name find the same, this is what is found. -/
theorem firstFinding_of_mem {sources : List ClassSource} {name : ClassName} {finding : Finding}
    (hmem : ∃ source ∈ sources, ¬ source.Lacks name)
    (hall : ∀ source ∈ sources, ¬ source.Lacks name → (source.answer name).finding = finding) :
    firstFinding sources name = finding := by
  induction sources with
  | nil => simp at hmem
  | cons first rest ih =>
      rw [List.forall_mem_cons] at hall
      rw [firstFinding_cons]
      by_cases hfirst : first.Lacks name
      · rw [if_pos hfirst]
        exact ih (by simpa [hfirst] using hmem) hall.2
      · rw [if_neg hfirst]
        exact hall.1 hfirst

theorem firstFinding_of_lacks {sources : List ClassSource} {name : ClassName}
    (h : ∀ source ∈ sources, source.Lacks name) : firstFinding sources name = .absent :=
  Resolution.finding_eq_absent_iff.2 (resolveFrom_eq_absent_iff.2 h)

/-- The order of sources that do not contradict one another does not matter. -/
theorem firstFinding_perm {sources others : List ClassSource} {name : ClassName}
    (hperm : others.Perm sources)
    (h : ∀ a ∈ sources, ∀ b ∈ sources, ¬ a.Lacks name → ¬ b.Lacks name →
      (a.answer name).finding = (b.answer name).finding) :
    firstFinding sources name = firstFinding others name := by
  by_cases hanswered : ∃ source ∈ sources, ¬ source.Lacks name
  · obtain ⟨source, hsource, hanswers⟩ := hanswered
    have hsame : ∀ other ∈ sources, ¬ other.Lacks name →
        (other.answer name).finding = (source.answer name).finding :=
      fun other hother hother' => h other hother source hsource hother' hanswers
    rw [firstFinding_of_mem ⟨source, hsource, hanswers⟩ hsame]
    refine (firstFinding_of_mem ⟨source, hperm.mem_iff.2 hsource, hanswers⟩ ?_).symm
    exact fun other hother => hsame other (hperm.mem_iff.1 hother)
  · have hlacks : ∀ source ∈ sources, source.Lacks name :=
      fun source hsource => Decidable.byContradiction fun h => hanswered ⟨source, hsource, h⟩
    have hlacks' : ∀ source ∈ others, source.Lacks name :=
      fun source hsource => hlacks source (hperm.mem_iff.1 hsource)
    rw [firstFinding_of_lacks hlacks, firstFinding_of_lacks hlacks']

end Classpath
