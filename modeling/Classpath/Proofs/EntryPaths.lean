import Classpath.Archive

/-!
# Class names and entry paths

A class is looked up under the entry path that its name spells with slashes.  A listing
goes the other way and turns every separator of an entry path into a dot.  The two ways
meet only where the entry path has slashes for separators and no dots of its own.
-/

namespace Classpath

theorem Text.dropEnding?_eq_some_iff {ending cs stem : List Char} :
    dropEnding? ending cs = some stem ↔ cs = stem ++ ending := by
  unfold dropEnding?
  constructor
  · intro h
    split at h
    · next hending =>
        obtain ⟨before, rfl⟩ := List.isSuffixOf_iff_suffix.1 hending
        simpa using h
    · simp at h
  · rintro rfl
    have hending : ending.isSuffixOf (stem ++ ending) = true :=
      List.isSuffixOf_iff_suffix.2 (List.suffix_append stem ending)
    simp [hending]

namespace ClassName

/-- What a listing makes of a character of an entry path. -/
def listedAs (c : Char) : Char := if c = '/' || c = '\\' then '.' else c

/-- What a lookup makes of a character of a name. -/
def lookedUpAs (c : Char) : Char := if c = '.' then '/' else c

/-- A character that is listed and looked up comes back unless it is a dot or a
backslash. -/
theorem lookedUpAs_listedAs_eq_iff {c : Char} :
    lookedUpAs (listedAs c) = c ↔ c ≠ '.' ∧ c ≠ '\\' := by
  unfold lookedUpAs listedAs
  by_cases hslash : c = '/'
  · simp [hslash]
  · by_cases hback : c = '\\'
    · simp [hback]
    · by_cases hdot : c = '.'
      · simp [hdot]
      · simp [hslash, hback, hdot]

theorem toList_entryPath (name : ClassName) :
    name.entryPath.toList = name.dotted.toList.map lookedUpAs ++ classEnding := by
  rw [entryPath, String.toList_append, Text.mapChars, Text.onChars, String.toList_ofList]
  rfl

/-- An entry path holds a class if it is a stem with the ending, where the stem is neither
empty nor that of a module declaration. -/
theorem ofEntryPath?_eq_some_iff {entry : String} {name : ClassName} :
    ofEntryPath? entry = some name ↔
      ∃ stem, entry.toList = stem ++ classEnding ∧ stem ≠ [] ∧ ¬ moduleInfo <:+ stem ∧
        name.dotted.toList = stem.map listedAs := by
  have hexcluded : ∀ stem : List Char,
      (stem.isEmpty || moduleInfo.isSuffixOf stem) = true ↔ stem = [] ∨ moduleInfo <:+ stem := by
    intro stem
    rw [Bool.or_eq_true, List.isEmpty_iff, List.isSuffixOf_iff_suffix]
  unfold ofEntryPath?
  constructor
  · intro h
    split at h
    · simp at h
    · next stem hstem =>
        split at h
        · simp at h
        · next hnot =>
            obtain rfl := Option.some.inj h
            rw [hexcluded, not_or] at hnot
            exact ⟨stem, Text.dropEnding?_eq_some_iff.1 hstem, hnot.1, hnot.2,
              String.toList_ofList⟩
  · rintro ⟨stem, hentry, hne, hmodule, hname⟩
    have hnot : ¬ (stem.isEmpty || moduleInfo.isSuffixOf stem) = true := by
      rw [hexcluded, not_or]
      exact ⟨hne, hmodule⟩
    have hdotted : name = ⟨String.ofList (stem.map listedAs)⟩ := by
      rw [← hname, String.ofList_toList]
    rw [Text.dropEnding?_eq_some_iff.2 hentry, hdotted]
    exact if_neg hnot

theorem map_eq_self_iff {f : Char → Char} {cs : List Char} :
    cs.map f = cs ↔ ∀ c ∈ cs, f c = c := by
  simpa using List.map_inj_left (l := cs) (f := f) (g := id)

theorem forall_mem_ne_and_ne_iff {a b : Char} {cs : List Char} :
    (∀ c ∈ cs, c ≠ a ∧ c ≠ b) ↔ a ∉ cs ∧ b ∉ cs := by
  simp only [imp_and, forall_and, ne_eq, List.forall_mem_ne']

/-- The entry path without its ending has neither dots nor backslashes. -/
def IsPlainEntry (entry : String) : Prop :=
  ∀ stem, entry.toList = stem ++ classEnding → ∀ c ∈ stem, c ≠ '.' ∧ c ≠ '\\'

theorem isPlainEntry_iff {entry : String} {stem : List Char}
    (h : entry.toList = stem ++ classEnding) :
    IsPlainEntry entry ↔ ∀ c ∈ stem, c ≠ '.' ∧ c ≠ '\\' := by
  unfold IsPlainEntry
  rw [h]
  constructor
  · exact fun hall => hall stem rfl
  · intro hall other hother
    rwa [← List.append_cancel_right hother]

/-- The class listed for an entry is looked up under that entry exactly if the entry is
plain. -/
theorem entryPath_eq_iff_isPlainEntry {entry : String} {name : ClassName}
    (h : ofEntryPath? entry = some name) : name.entryPath = entry ↔ IsPlainEntry entry := by
  obtain ⟨stem, hentry, _, _, hname⟩ := ofEntryPath?_eq_some_iff.1 h
  rw [isPlainEntry_iff hentry, ← String.toList_inj, toList_entryPath, hname, hentry,
    List.append_cancel_right_eq, List.map_map, map_eq_self_iff]
  simp only [Function.comp_apply, lookedUpAs_listedAs_eq_iff]

/-- A character that is looked up and listed comes back unless it is a separator of
entry paths. -/
theorem listedAs_lookedUpAs_eq_iff {c : Char} :
    listedAs (lookedUpAs c) = c ↔ c ≠ '/' ∧ c ≠ '\\' := by
  unfold listedAs lookedUpAs
  by_cases hdot : c = '.'
  · simp [hdot]
  · by_cases hslash : c = '/'
    · simp [hslash]
    · by_cases hback : c = '\\'
      · simp [hback]
      · simp [hdot, hslash, hback]

/-- Looking up makes no name that of a module declaration, which has neither dots nor
slashes. -/
theorem moduleInfo_suffix_map_lookedUpAs_iff {cs : List Char} :
    moduleInfo <:+ cs.map lookedUpAs ↔ moduleInfo <:+ cs := by
  have hkept : ∀ c, lookedUpAs c ∈ moduleInfo → lookedUpAs c = c := by
    intro c hc
    unfold lookedUpAs at hc ⊢
    split
    · next hdot =>
        rw [if_pos hdot] at hc
        exact absurd hc (by decide)
    · rfl
  have hfixed : moduleInfo.map lookedUpAs = moduleInfo := by decide
  constructor
  · rintro ⟨before, hsplit⟩
    obtain ⟨front, back, rfl, -, hback⟩ := List.map_eq_append_iff.1 hsplit.symm
    have hsame : back.map lookedUpAs = back := by
      rw [map_eq_self_iff]
      intro c hc
      apply hkept
      rw [← hback]
      exact List.mem_map_of_mem hc
    rw [← hback, hsame]
    exact List.suffix_append front back
  · rintro ⟨before, rfl⟩
    rw [List.map_append, hfixed]
    exact List.suffix_append _ _

/-- The entry path of a name is listed as that name exactly if the name is not empty, has
no slash or backslash, and does not end like a module declaration. -/
theorem ofEntryPath?_entryPath_eq_self_iff {name : ClassName} :
    ofEntryPath? name.entryPath = some name ↔
      name.dotted ≠ "" ∧ '/' ∉ name.dotted.toList ∧ '\\' ∉ name.dotted.toList ∧
        ¬ moduleInfo <:+ name.dotted.toList := by
  have hself : name.dotted.toList = (name.dotted.toList.map lookedUpAs).map listedAs ↔
      '/' ∉ name.dotted.toList ∧ '\\' ∉ name.dotted.toList := by
    rw [List.map_map, eq_comm, map_eq_self_iff]
    simp only [Function.comp_apply, listedAs_lookedUpAs_eq_iff]
    rw [forall_mem_ne_and_ne_iff]
  rw [ofEntryPath?_eq_some_iff]
  constructor
  · rintro ⟨stem, hentry, hne, hmodule, hname⟩
    rw [toList_entryPath] at hentry
    obtain rfl := List.append_cancel_right hentry
    rw [moduleInfo_suffix_map_lookedUpAs_iff] at hmodule
    have hchars := hself.1 hname
    exact ⟨by simpa using hne, hchars.1, hchars.2, hmodule⟩
  · rintro ⟨hne, hslash, hback, hmodule⟩
    refine ⟨_, toList_entryPath name, by simpa using hne, ?_, hself.2 ⟨hslash, hback⟩⟩
    rwa [moduleInfo_suffix_map_lookedUpAs_iff]

end ClassName
end Classpath
