import Classpath.Ascending
import Classpath.ClassFile.Decode
import Classpath.Ignore.Rules
import Classpath.Source
import Classpath.Zip.Jar

/-!
# Archives

An archive is a jar or a directory of class files.  A jar is read when it is
opened; a directory is looked at anew each time.  Either serves as a source of
classes.
-/

namespace Classpath

/-- An opened archive, with the path it was opened by. -/
inductive Archive
  | jar (path : String) (content : Zip.Jar)
  | directory (path : String)

/-- Do the names of an entry path stay below the directory it is looked up in?
Both slashes separate names here, and no name may be empty, `.` or `..`. -/
def isContainedEntry (entry : String) : Bool :=
  (Text.pieces (fun c => c == '/' || c == '\\') entry.toList).all fun name =>
    !name.isEmpty && name != ['.'] && name != ['.', '.']

namespace Archive

/-- The path an archive was opened by, which also names it in reports. -/
def path : Archive → String
  | jar path _ => path
  | directory path => path

/-- Open the archive at a path, given what opens the bytes of a jar. -/
def openAt (openJar : ByteArray → Except String Zip.Jar) (tree : FileTree) (path : String) :
    Except CheckError Archive :=
  match tree.stat path with
  | .error error => .error (.unavailable path (.file error))
  | .ok .directory => .ok (directory path)
  | .ok .device => .error (.unavailable path (.file .notRegular))
  | .ok (.file (.error error)) => .error (.unavailable path (.file error))
  | .ok (.file (.ok data)) =>
      match openJar data with
      | .ok content => .ok (jar path content)
      | .error message => .error (.unavailable path (.zip message))

/-- Open the archives at several paths.  The first that cannot be opened is the
failure. -/
def openAll (openJar : ByteArray → Except String Zip.Jar) (tree : FileTree)
    (paths : List String) : Except CheckError (List Archive) :=
  paths.mapM (openAt openJar tree)

/-- The greatest size a buffer can have. -/
def maxBuffer : Nat := 0x7fffffffffffffff

/-- Read an entry that a jar lists.  The buffer for it is made before it is read, with the
size that the archive declares. -/
def readListed (path entry : String) (content : Zip.Jar) : Except CheckError (Option ByteArray) :=
  match content.openEntry entry with
  | .error message => .error (.unreadable path entry (.zip message))
  | .ok opened =>
      if maxBuffer < opened.size.toNat then .error (.oversized path entry opened.size)
      else
        match opened.content with
        | .ok bytes => .ok (some bytes)
        | .error message => .error (.unreadable path entry (.zip message))

/-- The entry of a directory that is the given file, if there is one. -/
def entryOfFile? (path entry : String) :
    Option (Except FileError ByteArray) → Except CheckError (Option ByteArray)
  | none => .ok none
  | some (.ok bytes) => .ok (some bytes)
  | some (.error error) => .error (.unreadable path entry (.file error))

/-- Read an entry, if it is there.  The whole entry path is followed from a directory, so one
that begins at the root or goes up would leave it; such a path is refused without looking. -/
def readEntry (tree : FileTree) (archive : Archive) (entry : String) :
    Except CheckError (Option ByteArray) × List Event :=
  match archive with
  | jar path content =>
      if entry ∈ content.names then (readListed path entry content, []) else (.ok none, [])
  | directory path =>
      if isContainedEntry entry then
        (entryOfFile? path entry (tree.fileAt? (joinPath path entry)), [])
      else
        (.ok none, [.outsideEntry path entry])

/-- What a class file found under a name gives.  A file that declares another
name counts, with a warning. -/
def decodeEntry (path : String) (name : ClassName) (bytes : ByteArray) : Answer :=
  match ClassFile.decode bytes.data.toList with
  | .error error => ⟨.failed (.undecodable name path error), []⟩
  | .ok decoded =>
      if ClassName.ofInternal decoded.thisClass = name then ⟨.found decoded.model, []⟩
      else ⟨.found decoded.model, [.declaredElsewhere path name.entryPath decoded.thisClass]⟩

/-- Look up a class. -/
def lookup (tree : FileTree) (archive : Archive) (name : ClassName) : Answer :=
  match archive.readEntry tree name.entryPath with
  | (.error error, events) => ⟨.failed error, events⟩
  | (.ok none, events) => ⟨.absent, events⟩
  | (.ok (some bytes), events) =>
      let answer := decodeEntry archive.path name bytes
      ⟨answer.finding, events ++ answer.events⟩

/-- The entry paths of an archive.  Those of a directory leave out what its
ignore files say. -/
def entries (tree : FileTree) : Archive → List String
  | jar _ content => content.names
  | directory path =>
      match tree.locate path with
      | .ok place =>
          ((tree.filesBelow place).filter (Ignore.Listing.isListed tree ⟨path.toList, place⟩)).map
            pathText
      | .error _ => []

/-- Entries below this directory describe the archive and hold no classes. -/
def isDescriptive (entry : String) : Bool := Text.beginsWith "META-INF/" entry

/-- The classes of a list of entries, each once, in ascending order. -/
def classesOf (entries : List String) : List ClassName :=
  ascending ((entries.filter (!isDescriptive ·)).filterMap ClassName.ofEntryPath?)

/-- The classes an archive defines, each once, in ascending order. -/
def classNames (tree : FileTree) (archive : Archive) : List ClassName :=
  classesOf (archive.entries tree)

end Archive

/-- All texts that become the given one when dots are replaced by slashes. -/
def undotted : List Char → List (List Char)
  | [] => [[]]
  | c :: rest =>
      (undotted rest).flatMap fun more => if c = '/' then ['/' :: more, '.' :: more] else [c :: more]

theorem mem_undotted_map (cs : List Char) :
    cs ∈ undotted (cs.map fun c => if c = '.' then '/' else c) := by
  induction cs with
  | nil => simp [undotted]
  | cons c rest ih =>
      simp only [List.map_cons, undotted, List.mem_flatMap]
      refine ⟨rest, ih, ?_⟩
      by_cases h : c = '.'
      · simp [h]
      · by_cases h' : c = '/' <;> simp [h, h']

/-- Finitely many entry paths belong to finitely many names. -/
theorem ClassName.exists_names_of_entryPath_mem (entries : List String) :
    ∃ names : List ClassName, ∀ name : ClassName, name.entryPath ∈ entries → name ∈ names := by
  refine ⟨entries.flatMap fun entry =>
    (undotted (entry.toList.take (entry.toList.length - 6))).map fun cs => ⟨String.ofList cs⟩,
    fun name hname => List.mem_flatMap.2 ⟨_, hname, List.mem_map.2 ⟨name.dotted.toList, ?_, ?_⟩⟩⟩
  · have h := mem_undotted_map name.dotted.toList
    have hlen : ".class".toList.length = 6 := by decide
    simpa [entryPath, Text.mapChars, Text.onChars, hlen] using h
  · simp

theorem FileTree.mem_nodes_of_look {tree : FileTree} {place : Place}
    {content : Except FileError ByteArray} (h : tree.look place = .ok (.file content)) :
    place ∈ tree.nodes.map (·.1) := by
  unfold look node? at h
  split at h
  · next found hlookup =>
      obtain ⟨before, after, hsplit, _⟩ := List.lookup_eq_some_iff.1 hlookup
      simp [hsplit]
  · split at h
    · simp at h
    · simp at h

theorem FileTree.fileAt?_eq_some_iff {tree : FileTree} {path : String}
    {content : Except FileError ByteArray} :
    tree.fileAt? path = some content ↔
      ∃ place, tree.locate path = .ok place ∧ tree.look place = .ok (.file content) := by
  unfold fileAt? stat
  cases tree.locate path with
  | error error => simp [Bind.bind, Except.bind]
  | ok place =>
      simp only [Bind.bind, Except.bind, Except.ok.injEq, exists_eq_left']
      split
      · next found hlook => simp [hlook]
      · next hnone =>
          simp only [reduceCtorEq, false_iff]
          exact hnone content

/-- The paths that lead from a place to the places listed below it. -/
def FileTree.pathsBelow (tree : FileTree) (place : Place) : List String :=
  tree.nodes.map fun node => pathText (node.1.drop place.length)

theorem FileTree.mem_pathsBelow {tree : FileTree} {place : Place} {path : String}
    (h : place ++ pathNames path ∈ tree.nodes.map (·.1)) : path ∈ tree.pathsBelow place := by
  obtain ⟨node, hmem, heq⟩ := List.mem_map.1 h
  exact List.mem_map.2 ⟨node, hmem, by simp [heq, pathText_pathNames]⟩

/-- The names of a contained entry path lead down only. -/
theorem isPlainName_of_isContainedEntry {entry : String} (h : isContainedEntry entry = true) :
    ∀ name ∈ pathNames entry, IsPlainName name := by
  have hpieces : ∀ piece ∈ (Text.pieces (· == '/') entry.toList).flatMap
      (Text.pieces (· == '\\')), piece ≠ [] ∧ piece ≠ ['.'] ∧ piece ≠ ['.', '.'] := by
    rw [← Text.pieces_or]
    simpa [isContainedEntry, and_assoc] using h
  -- A name without a backslash is a piece at both separators.
  have hwhole : ∀ piece ∈ Text.pieces (· == '/') entry.toList,
      Text.pieces (· == '\\') piece = [piece] → piece ≠ [] ∧ piece ≠ ['.'] ∧ piece ≠ ['.', '.'] :=
    fun piece hpiece hcut => hpieces piece (List.mem_flatMap.2 ⟨piece, hpiece, by simp [hcut]⟩)
  intro name hname
  obtain ⟨piece, hpiece, rfl⟩ := List.mem_map.1 hname
  refine ⟨fun hempty => ?_, fun hhere => ?_, fun hup => ?_⟩
  · obtain rfl : piece = [] := by simpa [← String.toList_inj] using hempty
    exact (hwhole [] hpiece rfl).1 rfl
  · obtain rfl : piece = ['.'] := by simpa [← String.toList_inj] using hhere
    exact (hwhole _ hpiece rfl).2.1 rfl
  · obtain rfl : piece = ['.', '.'] := by simpa [← String.toList_inj] using hup
    exact (hwhole _ hpiece rfl).2.2 rfl

theorem isRelative_of_isContainedEntry {entry : String} (h : isContainedEntry entry = true) :
    entry ≠ "" ∧ Text.beginsWith "/" entry = false := by
  have hplain := isPlainName_of_isContainedEntry h
  constructor
  · rintro rfl
    exact (hplain "" (by decide)).1 rfl
  · cases hchars : entry.toList with
    | nil => simp [Text.beginsWith, hchars]
    | cons c cs =>
        rw [Bool.eq_false_iff]
        intro hbegins
        obtain rfl : '/' = c := by simpa [Text.beginsWith, hchars] using hbegins
        refine (hplain "" ?_).1 rfl
        rw [pathNames, hchars, Text.pieces_cons_separator (by simp)]
        exact List.mem_cons_self

/-- A contained entry path is followed down from where its directory is. -/
theorem FileTree.locate_contained (tree : FileTree) (path : String) {entry : String}
    (h : isContainedEntry entry = true) :
    tree.locate (joinPath path entry) =
      (tree.base path).bind fun root => tree.follow root (pathNames entry) :=
  have hrelative := isRelative_of_isContainedEntry h
  tree.locate_joinPath path hrelative.1 hrelative.2

/-- A contained entry path leads to a place below its directory. -/
theorem FileTree.exists_base_of_locate {tree : FileTree} {path entry : String} {place : Place}
    (hcontained : isContainedEntry entry = true)
    (h : tree.locate (joinPath path entry) = .ok place) :
    ∃ root, tree.base path = .ok root ∧ place = root ++ pathNames entry := by
  rw [tree.locate_contained path hcontained] at h
  cases hbase : tree.base path with
  | error error =>
      rw [hbase] at h
      cases h
  | ok root =>
      rw [hbase] at h
      exact ⟨root, rfl, eq_append_of_follow (isPlainName_of_isContainedEntry hcontained) h⟩

namespace Archive

/-- The entries an archive can possibly read. -/
def readableEntries (tree : FileTree) : Archive → List String
  | jar _ content => content.names
  | directory path =>
      match tree.base path with
      | .ok place => tree.pathsBelow place
      | .error _ => []

theorem mem_readableEntries_of_readEntry {tree : FileTree} {archive : Archive} {entry : String}
    (h : (archive.readEntry tree entry).1 ≠ .ok none) : entry ∈ archive.readableEntries tree := by
  cases archive with
  | jar path content =>
      simp only [readEntry] at h
      split at h
      · next hlisted => exact hlisted
      · simp at h
  | directory path =>
      simp only [readEntry] at h
      split at h
      · next hcontained =>
          have hsome : tree.fileAt? (joinPath path entry) ≠ none := by
            intro hnone
            simp [hnone, entryOfFile?] at h
          obtain ⟨content, hfile⟩ := Option.ne_none_iff_exists'.1 hsome
          obtain ⟨place, hplace, hlook⟩ := FileTree.fileAt?_eq_some_iff.1 hfile
          obtain ⟨root, hroot, rfl⟩ := FileTree.exists_base_of_locate hcontained hplace
          simp only [readableEntries, hroot]
          exact FileTree.mem_pathsBelow (FileTree.mem_nodes_of_look hlook)
      · simp at h

/-- An archive defines finitely many names. -/
theorem exists_names_of_lookup (tree : FileTree) (archive : Archive) :
    ∃ names : List ClassName, ∀ name,
      (archive.lookup tree name).finding ≠ .absent → name ∈ names := by
  obtain ⟨names, hnames⟩ :=
    ClassName.exists_names_of_entryPath_mem (archive.readableEntries tree)
  refine ⟨names, fun name hname => hnames name (mem_readableEntries_of_readEntry fun hread => ?_)⟩
  unfold lookup at hname
  split at hname
  · next hfailed => simp [hfailed] at hread
  · simp at hname
  · next hfound => simp [hfound] at hread

/-- An archive as a source of classes. -/
def toSource (tree : FileTree) (archive : Archive) : ClassSource where
  label := archive.path
  answer := archive.lookup tree
  finite := by
    obtain ⟨names, hnames⟩ := archive.exists_names_of_lookup tree
    exact ⟨names, fun name model hfound => hnames name (by simp [hfound])⟩

end Archive
end Classpath
