import Classpath.Proofs.JarListing
import Classpath.Proofs.NameOrder

/-!
# What an archive lists

An archive is a finite set of entries: those that a jar lists, or the files that lie below a
directory.  Its listing holds the classes of these entries, less those that describe the
archive.  Several entries can give one class, and a class that is looked up under an entry
of the archive need not be the one that is listed for it; the exact condition under which it
is comes from the two maps between names and paths.  Main statement: the listing is sorted
and complete.
-/

namespace Classpath

/-! ## The files of a directory -/

theorem FileTree.mem_filesBelow_iff {tree : FileTree} {root names : Place} :
    names ∈ tree.filesBelow root ↔
      ∃ content, (root ++ names, Node.file content) ∈ tree.nodes := by
  rw [filesBelow, List.mem_filterMap]
  constructor
  · rintro ⟨⟨found, node⟩, hmem, hfile⟩
    split at hfile
    · next content hnode =>
        obtain ⟨rfl, rfl⟩ := Prod.mk.inj hnode
        split at hfile
        · next hbelow =>
            obtain ⟨rest, rfl⟩ := List.isPrefixOf_iff_prefix.1 hbelow
            obtain rfl : rest = names := by simpa using hfile
            exact ⟨content, hmem⟩
        · cases hfile
    · cases hfile
  · rintro ⟨content, hmem⟩
    refine ⟨_, hmem, ?_⟩
    have hbelow : root.isPrefixOf (root ++ names) = true :=
      List.isPrefixOf_iff_prefix.2 (List.prefix_append root names)
    simp [hbelow]

/-! ## Ignore files -/

theorem Ignore.rulesAt_of_no_ignore_file {tree : FileTree}
    (h : ∀ node ∈ tree.nodes, node.1.getLast? ≠ some fileName) (place : Place) :
    rulesAt tree place = [] := by
  have hnone : tree.file? (place ++ [fileName]) = none := by
    cases hnode : tree.node? (place ++ [fileName]) with
    | none => simp [FileTree.file?, hnode]
    | some node =>
        obtain ⟨before, after, hsplit, _⟩ := List.lookup_eq_some_iff.1 hnode
        exact absurd List.getLast?_concat (h (place ++ [fileName], node) (by simp [hsplit]))
  rw [rulesAt, hnone]

theorem Ignore.Listing.isIgnored_of_no_rules {tree : FileTree}
    (h : ∀ place, rulesAt tree place = []) (listing : Listing) (names : Place)
    (isDirectory : Bool) : listing.isIgnored tree names isDirectory = false := by
  have hinner : (List.range names.length).reverse.findSome?
      (listing.innerVerdict? tree names isDirectory) = none := by
    refine List.findSome?_eq_none_iff.2 fun depth _ => ?_
    rw [innerVerdict?, h]
    rfl
  have houter : (List.range listing.place.length).reverse.findSome?
      (listing.outerVerdict? tree names isDirectory) = none := by
    refine List.findSome?_eq_none_iff.2 fun depth _ => ?_
    rw [outerVerdict?, h]
    rfl
  simp only [isIgnored, hinner, houter]
  rfl

namespace Archive

variable {tree : FileTree} {archive : Archive} {name : ClassName}

/-- The archive has an entry: the jar lists it, or the path leads from the directory to a
file. -/
def HasEntry (tree : FileTree) : Archive → String → Prop
  | jar _ content, entry => entry ∈ content.names
  | directory path, entry =>
      ∃ root names content, tree.locate path = .ok root ∧
        (root ++ names, Node.file content) ∈ tree.nodes ∧ pathText names = entry

/-- The walk through a directory leaves out no file. -/
def WalksEveryFile (tree : FileTree) : Archive → Prop
  | jar _ _ => True
  | directory path =>
      ∀ root names, tree.locate path = .ok root → names ∈ tree.filesBelow root →
        Ignore.Listing.isListed tree ⟨path.toList, root⟩ names = true

theorem mem_entries_iff (hwalk : archive.WalksEveryFile tree) {entry : String} :
    entry ∈ archive.entries tree ↔ archive.HasEntry tree entry := by
  cases archive with
  | jar path content => exact Iff.rfl
  | directory path =>
      cases hroot : tree.locate path with
      | error error => simp [entries, HasEntry, hroot]
      | ok root =>
          have hlisted := fun names => hwalk root names hroot
          simp only [entries, HasEntry, hroot, List.mem_map, List.mem_filter,
            FileTree.mem_filesBelow_iff, Except.ok.injEq]
          constructor
          · rintro ⟨names, ⟨⟨content, hfile⟩, _⟩, hentry⟩
            exact ⟨root, names, content, rfl, hfile, hentry⟩
          · rintro ⟨_, names, content, rfl, hfile, hentry⟩
            have hbelow := FileTree.mem_filesBelow_iff.2 ⟨content, hfile⟩
            exact ⟨names, ⟨⟨content, hfile⟩, hlisted names hbelow⟩, hentry⟩

/-- Where no directory holds an ignore file, no file is left out. -/
theorem walksEveryFile_of_no_ignore_file (archive : Archive)
    (h : ∀ node ∈ tree.nodes, node.1.getLast? ≠ some Ignore.fileName) :
    archive.WalksEveryFile tree := by
  cases archive with
  | jar path content => trivial
  | directory path =>
      intro root names _ _
      have hkept := Ignore.Listing.isIgnored_of_no_rules (Ignore.rulesAt_of_no_ignore_file h)
      simp [Ignore.Listing.isListed, hkept]

/-! ## The listing -/

theorem isDescriptive_eq_false_iff {entry : String} :
    isDescriptive entry = false ↔ ¬ "META-INF/".toList <+: entry.toList := by
  rw [isDescriptive, Text.beginsWith, Bool.eq_false_iff, Ne, List.isPrefixOf_iff_prefix]

theorem pairwise_classNames (tree : FileTree) (archive : Archive) :
    (archive.classNames tree).Pairwise fun a b => a.bytes < b.bytes :=
  (pairwise_lt_ascending _).imp ClassName.lt_iff_bytes_lt.1

/-- A class is listed for an entry of the archive that does not describe it. -/
theorem mem_classNames_iff_hasEntry (hwalk : archive.WalksEveryFile tree) :
    name ∈ archive.classNames tree ↔ ∃ entry, archive.HasEntry tree entry ∧
      ¬ "META-INF/".toList <+: entry.toList ∧ ClassName.ofEntryPath? entry = some name := by
  simp only [mem_classNames_iff, mem_entries_iff hwalk, isDescriptive_eq_false_iff]

/-- The listing of an archive whose walk leaves out no file ascends strictly by the bytes
of the names and holds exactly the classes of the entries outside `META-INF/`.  So a name
that is not empty, has no slash or backslash and does not end like a module declaration is
listed if its entry path is an entry outside `META-INF/`. -/
theorem classNames_sorted_and_complete (tree : FileTree) (archive : Archive)
    (hwalk : archive.WalksEveryFile tree) :
    ((archive.classNames tree).Pairwise fun a b => a.bytes < b.bytes) ∧
    (∀ name, name ∈ archive.classNames tree ↔ ∃ entry, archive.HasEntry tree entry ∧
      ¬ "META-INF/".toList <+: entry.toList ∧ ClassName.ofEntryPath? entry = some name) ∧
    ∀ name : ClassName, name.dotted ≠ "" → '/' ∉ name.dotted.toList →
      '\\' ∉ name.dotted.toList → ¬ "module-info".toList <:+ name.dotted.toList →
        archive.HasEntry tree name.entryPath → ¬ "META-INF/".toList <+: name.entryPath.toList →
          name ∈ archive.classNames tree := by
  refine ⟨pairwise_classNames tree archive, fun name => mem_classNames_iff_hasEntry hwalk, ?_⟩
  intro name hne hslash hback hmodule hentry houtside
  rw [mem_classNames_iff_hasEntry hwalk]
  refine ⟨name.entryPath, hentry, houtside, ?_⟩
  exact ClassName.ofEntryPath?_entryPath_eq_self_iff.2 ⟨hne, hslash, hback, hmodule⟩

/-- A directory with a class of its own and one below `META-INF`. -/
def twoClassTree : FileTree where
  nodes := [(["d", "pkg", "A.class"], .file (.ok ByteArray.empty)),
    (["d", "META-INF", "A.class"], .file (.ok ByteArray.empty))]

theorem classNames_twoClassTree :
    (directory "d").WalksEveryFile twoClassTree ∧
      ⟨"pkg.A"⟩ ∈ (directory "d").classNames twoClassTree := by
  have hwalk : (directory "d").WalksEveryFile twoClassTree :=
    walksEveryFile_of_no_ignore_file _ (by simp [twoClassTree, Ignore.fileName])
  refine ⟨hwalk, ?_⟩
  refine (classNames_sorted_and_complete twoClassTree _ hwalk).2.2 ⟨"pkg.A"⟩ (by decide)
    (by decide +kernel) (by decide +kernel) (by decide +kernel) ?_ (by decide +kernel)
  exact ⟨["d"], ["pkg", "A.class"], .ok ByteArray.empty, rfl, List.mem_cons_self, by decide +kernel⟩

end Archive
end Classpath
