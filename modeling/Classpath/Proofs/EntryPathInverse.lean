import Classpath.Proofs.Descriptor.Names
import Classpath.Proofs.EntryPaths
import Mathlib.Data.Set.Operations

/-!
# Where names and entry paths determine each other

Both maps between names and entry paths merge characters: a lookup takes a dot for a slash,
and a listing takes either slash for a dot.  Names with one entry path give the same name
when they are read as internal forms, and this reading leaves a name without slashes as it
is.  Main statement: the exact conditions under which each map undoes the other.
-/

namespace Classpath
namespace ClassName

open Descriptor (dotForSlash ofInternal_eq_map)

/-! ## Names with the same entry path -/

theorem dotForSlash_lookedUpAs (c : Char) : dotForSlash (lookedUpAs c) = dotForSlash c := by
  by_cases hdot : c = '.'
  · subst hdot
    decide
  · rw [lookedUpAs, if_neg hdot]

theorem lookedUpAs_dotForSlash (c : Char) : lookedUpAs (dotForSlash c) = lookedUpAs c := by
  by_cases hslash : c = '/'
  · subst hslash
    decide
  · rw [dotForSlash, if_neg hslash]

/-- Two texts are looked up alike exactly if they are the same once slashes are dots. -/
theorem map_lookedUpAs_eq_iff {cs ds : List Char} :
    cs.map lookedUpAs = ds.map lookedUpAs ↔ cs.map dotForSlash = ds.map dotForSlash := by
  -- Each spelling is a function of the other one.
  have hdotted : ∀ es : List Char, (es.map lookedUpAs).map dotForSlash = es.map dotForSlash := by
    intro es
    simp only [List.map_map, Function.comp_def, dotForSlash_lookedUpAs]
  have hslashed : ∀ es : List Char, (es.map dotForSlash).map lookedUpAs = es.map lookedUpAs := by
    intro es
    simp only [List.map_map, Function.comp_def, lookedUpAs_dotForSlash]
  constructor
  · intro h
    rw [← hdotted cs, h, hdotted]
  · intro h
    rw [← hslashed cs, h, hslashed]

theorem toList_ofInternal (text : String) :
    (ofInternal text).dotted.toList = text.toList.map dotForSlash := by
  rw [ofInternal_eq_map, String.toList_ofList]

theorem ext_toList {first second : ClassName} :
    first = second ↔ first.dotted.toList = second.dotted.toList := by
  rw [String.toList_inj, ClassName.mk.injEq]

/-- Two names have one entry path exactly if they give one name when they are read as
internal forms. -/
theorem entryPath_eq_entryPath_iff {first second : ClassName} :
    first.entryPath = second.entryPath ↔
      ofInternal first.dotted = ofInternal second.dotted := by
  rw [← String.toList_inj, toList_entryPath, toList_entryPath, List.append_cancel_right_eq,
    map_lookedUpAs_eq_iff, ext_toList, toList_ofInternal, toList_ofInternal]

example : entryPath ⟨"a/b"⟩ = entryPath ⟨"a.b"⟩ := by decide +kernel

/-- Only slashes change when a text is read as an internal form. -/
theorem ofInternal_dotted_eq_self_iff {name : ClassName} :
    ofInternal name.dotted = name ↔ '/' ∉ name.dotted.toList := by
  have hkept : ∀ c, dotForSlash c = c ↔ c ≠ '/' := by
    intro c
    by_cases hslash : c = '/' <;> simp [dotForSlash, hslash]
  rw [ext_toList, toList_ofInternal, map_eq_self_iff]
  simp only [hkept, ne_eq, List.forall_mem_ne']

/-- No two names without slashes share an entry path. -/
theorem injOn_entryPath : Set.InjOn entryPath {name | '/' ∉ name.dotted.toList} := by
  intro first hfirst second hsecond h
  calc first = ofInternal first.dotted := (ofInternal_dotted_eq_self_iff.2 hfirst).symm
    _ = ofInternal second.dotted := entryPath_eq_entryPath_iff.1 h
    _ = second := ofInternal_dotted_eq_self_iff.2 hsecond

/-! ## Entries that are their class's own -/

theorem toList_append_ending (stem : String) :
    (stem ++ ".class").toList = stem.toList ++ classEnding :=
  String.toList_append

/-- Only an entry with the ending holds a class. -/
theorem exists_stem_of_ofEntryPath? {entry : String} {name : ClassName}
    (h : ofEntryPath? entry = some name) : ∃ stem : String, entry = stem ++ ".class" := by
  obtain ⟨stem, hentry, _⟩ := ofEntryPath?_eq_some_iff.1 h
  refine ⟨String.ofList stem, ?_⟩
  rw [← String.toList_inj, toList_append_ending, String.toList_ofList, hentry]

theorem isPlainEntry_append_ending_iff {stem : String} :
    IsPlainEntry (stem ++ ".class") ↔ '.' ∉ stem.toList ∧ '\\' ∉ stem.toList := by
  rw [isPlainEntry_iff (toList_append_ending stem), forall_mem_ne_and_ne_iff]

/-- The class listed for an entry is looked up under that entry exactly if the entry has
neither dots nor backslashes before its ending. -/
theorem entryPath_eq_iff_exists_stem {entry : String} {name : ClassName}
    (h : ofEntryPath? entry = some name) :
    name.entryPath = entry ↔
      ∃ stem : String, entry = stem ++ ".class" ∧ '.' ∉ stem.toList ∧ '\\' ∉ stem.toList := by
  rw [entryPath_eq_iff_isPlainEntry h]
  constructor
  · intro hplain
    obtain ⟨stem, rfl⟩ := exists_stem_of_ofEntryPath? h
    exact ⟨stem, rfl, isPlainEntry_append_ending_iff.1 hplain⟩
  · rintro ⟨stem, rfl, hstem⟩
    exact isPlainEntry_append_ending_iff.2 hstem

/-! ## The inverse conditions -/

/-- A text is listed again for its own entry path exactly if it is not empty, has no slash or
backslash and does not end like a module declaration.  A class entry is the entry path of its
own class exactly if it has no dot or backslash before the ending.  No two names without
slashes share an entry path. -/
theorem entryPath_inverse_conditions :
    (∀ text : String, ofEntryPath? (entryPath ⟨text⟩) = some ⟨text⟩ ↔
      text ≠ "" ∧ '/' ∉ text.toList ∧ '\\' ∉ text.toList ∧
        ¬ "module-info".toList <:+ text.toList) ∧
    (∀ (entry : String) (name : ClassName), ofEntryPath? entry = some name →
      (name.entryPath = entry ↔ ∃ stem : String, entry = stem ++ ".class" ∧
        '.' ∉ stem.toList ∧ '\\' ∉ stem.toList)) ∧
    Set.InjOn entryPath {name | '/' ∉ name.dotted.toList} :=
  ⟨fun _ => ofEntryPath?_entryPath_eq_self_iff, fun _ _ => entryPath_eq_iff_exists_stem,
    injOn_entryPath⟩

/-- A class whose simple name is `class`: of the two entries that are listed as this class
only the one without a dot in its stem is looked up. -/
theorem entryPath_of_name_with_ending :
    ofEntryPath? "p/A.class.class" = some ⟨"p.A.class"⟩ ∧
    entryPath ⟨"p.A.class"⟩ ≠ "p/A.class.class" ∧
    ofEntryPath? "p/A/class.class" = some ⟨"p.A.class"⟩ ∧
    entryPath ⟨"p.A.class"⟩ = "p/A/class.class" := by
  have hdotted : ofEntryPath? "p/A.class.class" = some ⟨"p.A.class"⟩ := by decide +kernel
  have hplain : ofEntryPath? "p/A/class.class" = some ⟨"p.A.class"⟩ := by decide +kernel
  refine ⟨hdotted, ?_, hplain, ?_⟩
  · rw [Ne, entryPath_inverse_conditions.2.1 _ _ hdotted]
    rintro ⟨stem, hstem, hdot, _⟩
    have hsame : stem = "p/A.class" := by
      rw [← String.append_left_inj ".class", ← hstem]
      decide +kernel
    exact hdot (hsame ▸ by decide +kernel)
  · rw [entryPath_inverse_conditions.2.1 _ _ hplain]
    exact ⟨"p/A/class", by decide +kernel, by decide +kernel, by decide +kernel⟩

end ClassName
end Classpath
