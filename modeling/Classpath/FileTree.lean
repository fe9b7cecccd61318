import Classpath.FileError
import Classpath.Text.Pieces

/-!
# File trees

The part of a file system that a run can see, as a value: a list of places with
what is there.  A place is the list of names on the way to it from the root.
Every directory on the way to a node counts as one, whether it is listed or not.
-/

namespace Classpath

/-- The names on the way from the root to a place. -/
abbrev Place := List String

/-- What is at a place: an ordinary file with what reading it gives, a directory, or
something else. -/
inductive Node
  | file (content : Except FileError ByteArray)
  | directory
  | device

/-- The visible part of a file system, and the place relative paths start from. -/
structure FileTree where
  nodes : List (Place × Node) := []
  workingDirectory : Place := []

/-- The names of a path, with an empty one at every end and between neighbouring
slashes. -/
def pathNames (path : String) : List String :=
  (Text.pieces (· == '/') path.toList).map String.ofList

/-- The path with the given names. -/
def pathText (names : List String) : String :=
  String.ofList (Text.rejoin '/' (names.map String.toList))

/-- A path followed by another one, with one slash between them.  A path that begins at the
root stands for itself. -/
def joinPath (path entry : String) : String :=
  if Text.beginsWith "/" entry then entry
  else if path = "" || path.toList.getLast? = some '/' then path ++ entry
  else path ++ "/" ++ entry

theorem pathText_pathNames (path : String) : pathText (pathNames path) = path := by
  have h : (pathNames path).map String.toList = Text.pieces (· == '/') path.toList := by
    simp [pathNames, Function.comp_def]
  simp [pathText, h, Text.rejoin_pieces]

namespace FileTree

/-- What is listed at a place. -/
def node? (tree : FileTree) (place : Place) : Option Node :=
  tree.nodes.lookup place

/-- The content of the file at a place, if it can be read. -/
def file? (tree : FileTree) (place : Place) : Option ByteArray :=
  match tree.node? place with
  | some (.file (.ok content)) => some content
  | _ => none

/-- Is there a directory at a place? -/
def isDirectory (tree : FileTree) (place : Place) : Bool :=
  match tree.node? place with
  | some .directory => true
  | some _ => false
  | none => place.isPrefixOf tree.workingDirectory || tree.nodes.any (place.isPrefixOf ·.1)

/-- What is at a place, listed or not. -/
def look (tree : FileTree) (place : Place) : Except FileError Node :=
  match tree.node? place with
  | some node => .ok node
  | none => if tree.isDirectory place then .ok .directory else .error .notFound

/-- Take one name from a place, whatever is there.  The empty name and `.` stay,
`..` goes up. -/
def descend (place : Place) (name : String) : Place :=
  if name = "" || name = "." then place
  else if name = ".." then place.dropLast
  else place ++ [name]

/-- Follow names from a place.  Only a directory can be left through a name. -/
def follow (tree : FileTree) (place : Place) : List String → Except FileError Place
  | [] => .ok place
  | name :: rest =>
      match tree.look place with
      | .error error => .error error
      | .ok .directory =>
          tree.follow (descend place name) rest
      | .ok _ => .error .notDirectory

/-- The place a path leads to. -/
def locate (tree : FileTree) (path : String) : Except FileError Place :=
  if path = "" then .error .notFound
  else if Text.beginsWith "/" path then tree.follow [] (pathNames path)
  else tree.follow tree.workingDirectory (pathNames path)

/-- The place that paths relative to a path start from. -/
def base (tree : FileTree) (path : String) : Except FileError Place :=
  if path = "" then .ok tree.workingDirectory else tree.locate path

/-- What a path leads to. -/
def stat (tree : FileTree) (path : String) : Except FileError Node := do
  tree.look (← tree.locate path)

/-- What reading the ordinary file a path leads to gives, if there is one. -/
def fileAt? (tree : FileTree) (path : String) : Option (Except FileError ByteArray) :=
  match tree.stat path with
  | .ok (.file content) => some content
  | _ => none

/-- Read the file a path leads to. -/
def read (tree : FileTree) (path : String) : Except FileError ByteArray := do
  match ← tree.stat path with
  | .file content => content
  | .directory => throw .isDirectory
  | .device => return ByteArray.empty

/-- Read the file a path leads to as text. -/
def readText (tree : FileTree) (path : String) : Except FileError String := do
  match String.fromUTF8? (← tree.read path) with
  | some text => return text
  | none => throw .notText

/-- Does a path lead anywhere? -/
def hasPath (tree : FileTree) (path : String) : Bool :=
  (tree.stat path).isOk

/-- The place a path spells, whatever is there. -/
def plainPlace (tree : FileTree) (path : String) : Place :=
  (pathNames path).foldl descend (if Text.beginsWith "/" path then [] else tree.workingDirectory)

/-- Put a node at a place, with a directory at every place on the way. -/
def insert (tree : FileTree) (place : Place) (node : Node) : FileTree :=
  let parents := (List.range place.length).map fun n => place.take n
  let missing := parents.filter fun parent => (tree.node? parent).isNone
  { tree with
    nodes := (place, node) :: missing.map (·, .directory) ++
      tree.nodes.filter (·.1 ≠ place) }

/-- Write the file at a path. -/
def write (tree : FileTree) (path : String) (content : ByteArray) : FileTree :=
  tree.insert (tree.plainPlace path) (.file (.ok content))

/-- Make the directory at a path. -/
def makeDirectory (tree : FileTree) (path : String) : FileTree :=
  if tree.isDirectory (tree.plainPlace path) then tree
  else tree.insert (tree.plainPlace path) .directory

/-- Remove the file at a path. -/
def remove (tree : FileTree) (path : String) : FileTree :=
  { tree with nodes := tree.nodes.filter (·.1 ≠ tree.plainPlace path) }

/-- The files below a place, by the names that lead from it to them. -/
def filesBelow (tree : FileTree) (place : Place) : List Place :=
  tree.nodes.filterMap fun
    | (found, .file _) =>
        if place.isPrefixOf found then some (found.drop place.length) else none
    | _ => none

end FileTree

/-! ## Paths that go down only -/

/-- A name that leads from a directory to something in it. -/
def IsPlainName (name : String) : Prop := name ≠ "" ∧ name ≠ "." ∧ name ≠ ".."

namespace FileTree

theorem descend_of_isPlainName {name : String} (h : IsPlainName name) (place : Place) :
    descend place name = place ++ [name] := by
  simp [descend, h.1, h.2.1, h.2.2]

theorem follow_append (tree : FileTree) (place : Place) (names more : List String) :
    tree.follow place (names ++ more) =
      (tree.follow place names).bind fun reached => tree.follow reached more := by
  induction names generalizing place with
  | nil => rfl
  | cons name names ih =>
      rw [List.cons_append, follow, follow]
      cases tree.look place with
      | error error => rfl
      | ok node =>
          cases node with
          | directory => exact ih (descend place name)
          | file content => rfl
          | device => rfl

/-- Plain names are added to the place they are followed from. -/
theorem eq_append_of_follow {tree : FileTree} {names : List String}
    (hplain : ∀ name ∈ names, IsPlainName name) {place reached : Place}
    (h : tree.follow place names = .ok reached) : reached = place ++ names := by
  induction names generalizing place with
  | nil => simpa using (Except.ok.inj h).symm
  | cons name names ih =>
      rw [follow] at h
      split at h
      · cases h
      · rw [descend_of_isPlainName (hplain name List.mem_cons_self)] at h
        have hrest := ih (fun other hother => hplain other (List.mem_cons_of_mem name hother)) h
        rw [hrest, List.append_assoc, List.singleton_append]
      · cases h

/-- The empty name asks only that there is a directory, as every other name does. -/
theorem follow_empty_bind (tree : FileTree) (place : Place) {names : List String}
    (hnames : names ≠ []) :
    ((tree.follow place [""]).bind fun reached => tree.follow reached names) =
      tree.follow place names := by
  obtain ⟨name, more, rfl⟩ := List.exists_cons_of_ne_nil hnames
  simp only [follow]
  cases hlook : tree.look place with
  | error error => rfl
  | ok node =>
      cases node with
      | directory =>
          show tree.follow (descend place "") (name :: more) = _
          rw [show descend place "" = place from rfl, follow, hlook]
      | file content => rfl
      | device => rfl

end FileTree

theorem pathNames_ne_nil (path : String) : pathNames path ≠ [] := by
  simp [pathNames, Text.pieces_ne_nil]

theorem pathNames_of_append {path first second : String}
    (h : path.toList = first.toList ++ '/' :: second.toList) :
    pathNames path = pathNames first ++ pathNames second := by
  rw [pathNames, h, Text.pieces_append_separator (by simp), List.map_append]
  rfl

namespace FileTree

/-- Where the names of a path are followed from. -/
def start (tree : FileTree) (path : String) : Place :=
  if Text.beginsWith "/" path then [] else tree.workingDirectory

theorem locate_of_ne_empty (tree : FileTree) {path : String} (hpath : path ≠ "") :
    tree.locate path = tree.follow (tree.start path) (pathNames path) := by
  rw [locate, if_neg hpath, start]
  split
  · rfl
  · rfl

theorem start_append (tree : FileTree) {path : String} (hpath : path ≠ "") (entry : String) :
    tree.start (path ++ entry) = tree.start path := by
  have hchars : path.toList ≠ [] := by simpa using hpath
  obtain ⟨c, cs, hcs⟩ := List.exists_cons_of_ne_nil hchars
  have hbegins : Text.beginsWith "/" (path ++ entry) = Text.beginsWith "/" path := by
    rw [Text.beginsWith, Text.beginsWith, String.toList_append, hcs]
    rfl
  rw [start, start, hbegins]

/-- A relative path is followed from where the path in front of it leads. -/
theorem locate_joinPath (tree : FileTree) (path : String) {entry : String} (hentry : entry ≠ "")
    (hrelative : Text.beginsWith "/" entry = false) :
    tree.locate (joinPath path entry) =
      (tree.base path).bind fun root => tree.follow root (pathNames entry) := by
  by_cases hpath : path = ""
  · subst hpath
    have hjoin : joinPath "" entry = entry := by simp [joinPath, hrelative]
    rw [hjoin, locate_of_ne_empty tree hentry, start, hrelative]
    rfl
  have hbase : tree.base path = tree.follow (tree.start path) (pathNames path) := by
    rw [base, if_neg hpath, locate_of_ne_empty tree hpath]
  by_cases hslash : path.toList.getLast? = some '/'
  · -- The names of the path end in an empty one, which stays where it is.
    obtain ⟨front, hfront⟩ := List.getLast?_eq_some_iff.1 hslash
    have hjoin : joinPath path entry = path ++ entry := by simp [joinPath, hrelative, hslash]
    have hnames : pathNames path = pathNames (String.ofList front) ++ pathNames "" :=
      pathNames_of_append (by simpa using hfront)
    have hjoined : pathNames (path ++ entry) =
        pathNames (String.ofList front) ++ pathNames entry :=
      pathNames_of_append (by simp [hfront])
    rw [hjoin, locate_of_ne_empty tree (by simp [hpath]), tree.start_append hpath, hjoined, hbase,
      hnames, follow_append, follow_append]
    cases tree.follow (tree.start path) (pathNames (String.ofList front)) with
    | error error => rfl
    | ok reached => exact (follow_empty_bind tree reached (pathNames_ne_nil entry)).symm
  · have hjoin : joinPath path entry = path ++ ("/" ++ entry) := by
      simp [joinPath, hrelative, hpath, hslash, String.append_assoc]
    have hjoined : pathNames (path ++ ("/" ++ entry)) = pathNames path ++ pathNames entry :=
      pathNames_of_append (by simp)
    rw [hjoin, locate_of_ne_empty tree (by simp [hpath]), tree.start_append hpath, hjoined,
      follow_append, hbase]

end FileTree
end Classpath
