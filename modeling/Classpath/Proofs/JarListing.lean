import Classpath.Proofs.ArchiveLookup
import Classpath.Proofs.EntryPaths

/-!
# Listed classes and defined classes

The classes a jar lists come from the names of its entries, and a class is looked up by
the entry that its name spells.  A listed class is defined if its own entry is plain, and
else only if another entry happens to have the name that is looked up.
-/

namespace Classpath
namespace Archive

variable {tree : FileTree} {archive : Archive} {path : String} {content : Zip.Jar}
  {name : ClassName}

/-- A class is listed for an entry that does not describe the archive. -/
theorem mem_classNames_iff :
    name ∈ archive.classNames tree ↔ ∃ entry ∈ archive.entries tree,
      isDescriptive entry = false ∧ ClassName.ofEntryPath? entry = some name := by
  simp [classNames, classesOf, mem_ascending, and_assoc]

/-- A jar defines a class if an entry has its entry path. -/
theorem lookup_jar_ne_absent_iff :
    ((jar path content).lookup tree name).finding ≠ .absent ↔ name.entryPath ∈ content.names := by
  rw [Ne, finding_lookup_eq_absent_iff]
  exact Classical.not_not

/-- All listed classes of a jar are defined exactly if each class entry is plain or the
path that its class is looked up under is an entry too. -/
theorem jar_lists_only_defined_iff (tree : FileTree) (path : String) (content : Zip.Jar) :
    (∀ name ∈ (jar path content).classNames tree,
      ((jar path content).lookup tree name).finding ≠ .absent) ↔
    ∀ entry ∈ content.names, isDescriptive entry = false →
      ∀ name, ClassName.ofEntryPath? entry = some name →
        ClassName.IsPlainEntry entry ∨ name.entryPath ∈ content.names := by
  constructor
  · intro h entry hentry hclass name hname
    exact .inr (lookup_jar_ne_absent_iff.1
      (h name (mem_classNames_iff.2 ⟨entry, hentry, hclass, hname⟩)))
  · intro h name hlisted
    obtain ⟨entry, hentry, hclass, hname⟩ := mem_classNames_iff.1 hlisted
    rw [lookup_jar_ne_absent_iff]
    rcases h entry hentry hclass name hname with hplain | hother
    · rwa [(ClassName.entryPath_eq_iff_isPlainEntry hname).2 hplain]
    · exact hother

/-- A jar with the single stored entry `pkg\A.class`, which holds the class `pkg/A`. -/
def backslashJar : ByteArray where
  data := #[
    -- the local header, the name and the class file
    0x50, 0x4b, 0x03, 0x04, 0x14, 0x00, 0x00, 0x00, 0x00, 0x00, 0x83, 0x18, 0x22, 0x50, 0x75,
    0x36, 0xbb, 0xd9, 0x39, 0x00, 0x00, 0x00, 0x39, 0x00, 0x00, 0x00, 0x0b, 0x00, 0x00, 0x00,
    0x70, 0x6b, 0x67, 0x5c, 0x41, 0x2e, 0x63, 0x6c, 0x61, 0x73, 0x73,
    0xca, 0xfe, 0xba, 0xbe, 0x00, 0x00, 0x00, 0x34, 0x00, 0x05, 0x01, 0x00, 0x05, 0x70, 0x6b,
    0x67, 0x2f, 0x41, 0x07, 0x00, 0x01, 0x01, 0x00, 0x10, 0x6a, 0x61, 0x76, 0x61, 0x2f, 0x6c,
    0x61, 0x6e, 0x67, 0x2f, 0x4f, 0x62, 0x6a, 0x65, 0x63, 0x74, 0x07, 0x00, 0x03, 0x00, 0x21,
    0x00, 0x02, 0x00, 0x04, 0x00, 0x00, 0x00, 0x00, 0x00, 0x00, 0x00, 0x00,
    -- the directory header and the name again
    0x50, 0x4b, 0x01, 0x02, 0x14, 0x03, 0x14, 0x00, 0x00, 0x00, 0x00, 0x00, 0x83, 0x18, 0x22,
    0x50, 0x75, 0x36, 0xbb, 0xd9, 0x39, 0x00, 0x00, 0x00, 0x39, 0x00, 0x00, 0x00, 0x0b, 0x00,
    0x00, 0x00, 0x00, 0x00, 0x00, 0x00, 0x00, 0x00, 0x00, 0x00, 0x80, 0x01, 0x00, 0x00, 0x00,
    0x00, 0x70, 0x6b, 0x67, 0x5c, 0x41, 0x2e, 0x63, 0x6c, 0x61, 0x73, 0x73,
    -- the end record
    0x50, 0x4b, 0x05, 0x06, 0x00, 0x00, 0x00, 0x00, 0x01, 0x00, 0x01, 0x00, 0x39, 0x00, 0x00,
    0x00, 0x62, 0x00, 0x00, 0x00, 0x00, 0x00]

/-- The class of an entry with a backslash is listed but not defined. -/
theorem backslashJar_lists_undefined : ∃ content, Zip.Jar.ofBytes backslashJar = .ok content ∧
    ⟨"pkg.A"⟩ ∈ (jar "a.jar" content).classNames {} ∧
    ((jar "a.jar" content).lookup {} ⟨"pkg.A"⟩).finding = .absent := by
  have hopen : (Zip.Jar.ofBytes backslashJar).map (·.names) = .ok ["pkg\\A.class"] := by
    decide +kernel
  cases hcontent : Zip.Jar.ofBytes backslashJar with
  | error error => simp [hcontent, Except.map] at hopen
  | ok content =>
      have hnames : content.names = ["pkg\\A.class"] := by
        simpa [hcontent, Except.map] using hopen
      refine ⟨content, rfl, mem_classNames_iff.2 ⟨"pkg\\A.class", ?_, ?_, ?_⟩, ?_⟩
      · show "pkg\\A.class" ∈ content.names
        simp [hnames]
      · decide +kernel
      · decide +kernel
      · rw [finding_lookup_eq_absent_iff, HasClass, hnames]
        decide +kernel

end Archive
end Classpath
