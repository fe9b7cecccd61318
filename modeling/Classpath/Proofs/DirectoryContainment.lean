import Classpath.Proofs.EntryPaths

/-!
# Directory lookups stay below their directory

A class name may hold anything, and a path that is followed in a file system can begin at
the root, go up, or pass through empty names.  The names of an entry path are looked at
before it is followed, and only those that go down are let through.  Main statement: a
lookup in a directory either answers without the file system or depends on nothing but
what lies on the way down from the directory; which of the two it is can be read off the
class name.
-/

namespace Classpath

/-! ## Cutting texts that are changed or extended -/

namespace Text

/-- Changing each character and cutting is cutting where the changed characters would be
separators. -/
theorem pieces_map {α β : Type} (isSeparator : β → Bool) (f : α → β) (xs : List α) :
    pieces isSeparator (xs.map f) = (pieces (isSeparator ∘ f) xs).map (List.map f) := by
  induction xs with
  | nil => rfl
  | cons x xs ih =>
      rw [List.map_cons]
      by_cases hx : isSeparator (f x) = true
      · have hsame : (isSeparator ∘ f) x = true := hx
        rw [pieces_cons_separator hx, pieces_cons_separator hsame, ih]
        rfl
      · have hsame : ¬ (isSeparator ∘ f) x = true := hx
        obtain ⟨first, more, hxs, hcons⟩ := pieces_cons_other hsame xs
        rw [pieces, if_neg hx, ih, hxs, hcons]
        rfl

theorem not_isSeparator_of_mem_pieces {α : Type} {isSeparator : α → Bool} {xs piece : List α}
    (hpiece : piece ∈ pieces isSeparator xs) {x : α} (hx : x ∈ piece) :
    ¬ isSeparator x = true := by
  induction xs generalizing piece with
  | nil =>
      obtain rfl : piece = [] := by simpa [pieces] using hpiece
      cases hx
  | cons y ys ih =>
      by_cases hy : isSeparator y = true
      · rw [pieces_cons_separator hy] at hpiece
        rcases List.mem_cons.1 hpiece with rfl | hpiece
        · cases hx
        · exact ih hpiece hx
      · obtain ⟨first, more, hys, hcons⟩ := pieces_cons_other hy ys
        rw [hys] at ih
        rw [hcons] at hpiece
        rcases List.mem_cons.1 hpiece with rfl | hpiece
        · rcases List.mem_cons.1 hx with rfl | hx
          · exact hy
          · exact ih List.mem_cons_self hx
        · exact ih (List.mem_cons_of_mem first hpiece) hx

/-- A text without separators is one piece. -/
theorem pieces_of_forall_not {α : Type} {isSeparator : α → Bool} {xs : List α}
    (h : ∀ x ∈ xs, ¬ isSeparator x = true) : pieces isSeparator xs = [xs] := by
  induction xs with
  | nil => rfl
  | cons x xs ih =>
      rw [pieces, if_neg (h x List.mem_cons_self),
        ih fun y hy => h y (List.mem_cons_of_mem x hy)]

/-- What is put at the end of a text and holds no separators extends the last piece. -/
theorem pieces_append_other {α : Type} {isSeparator : α → Bool} {ys : List α}
    (hys : ∀ y ∈ ys, ¬ isSeparator y = true) (xs : List α) :
    ∃ before last, pieces isSeparator xs = before ++ [last] ∧
      pieces isSeparator (xs ++ ys) = before ++ [last ++ ys] := by
  induction xs with
  | nil => exact ⟨[], [], rfl, pieces_of_forall_not hys⟩
  | cons x xs ih =>
      obtain ⟨before, last, hxs, hboth⟩ := ih
      rw [List.cons_append]
      by_cases hx : isSeparator x = true
      · rw [pieces_cons_separator hx, pieces_cons_separator hx, hxs, hboth]
        exact ⟨[] :: before, last, rfl, rfl⟩
      · rw [pieces, if_neg hx, pieces, if_neg hx, hxs, hboth]
        cases before with
        | nil => exact ⟨[], x :: last, rfl, rfl⟩
        | cons first before => exact ⟨(x :: first) :: before, last, rfl, rfl⟩

end Text

/-! ## Names whose entry path is contained -/

namespace ClassName

/-- The parts of a name between dots, slashes and backslashes. -/
def segments (name : ClassName) : List (List Char) :=
  Text.pieces (fun c => c == '.' || c == '/' || c == '\\') name.dotted.toList

theorem lookedUpAs_ne_dot (c : Char) : lookedUpAs c ≠ '.' := by
  unfold lookedUpAs
  split
  · decide
  · next hdot => exact hdot

/-- The entry path of a name has the segments of the name for its names, the last one with
the class ending. -/
theorem pieces_entryPath (name : ClassName) :
    ∃ last : List Char, Text.pieces (fun c => c == '/' || c == '\\') name.entryPath.toList =
      name.segments.dropLast.map (List.map lookedUpAs) ++
        [last.map lookedUpAs ++ classEnding] := by
  have hsegments : (fun c => c == '/' || c == '\\') ∘ lookedUpAs =
      fun c => c == '.' || c == '/' || c == '\\' := by
    funext c
    simp only [Function.comp, lookedUpAs]
    by_cases hdot : c = '.'
    · simp [hdot]
    · rw [if_neg hdot, beq_false_of_ne hdot, Bool.false_or]
  have hall : (classEnding.all fun c => !(c == '/' || c == '\\')) = true := by decide +kernel
  have hending : ∀ c ∈ classEnding, ¬ (c == '/' || c == '\\') = true := by
    simpa only [List.all_eq_true, Bool.not_eq_true', Bool.not_eq_true] using hall
  obtain ⟨before, last, hstem, hentry⟩ :=
    Text.pieces_append_other hending (name.dotted.toList.map lookedUpAs)
  rw [Text.pieces_map, hsegments] at hstem
  obtain ⟨front, back, hfront, rfl, hback⟩ := List.map_eq_append_iff.1 hstem
  obtain ⟨piece, rfl, rfl⟩ := List.map_eq_singleton_iff.1 hback
  have hdrop : name.segments.dropLast = front := by
    rw [segments, hfront, List.dropLast_concat]
  exact ⟨piece, by rw [toList_entryPath, hentry, hdrop]⟩

/-- The entry path of a name is contained if no segment of the name is empty, but possibly
the last. -/
theorem isContainedEntry_entryPath_iff {name : ClassName} :
    isContainedEntry name.entryPath = true ↔
      ∀ segment ∈ name.segments.dropLast, segment ≠ [] := by
  -- No name of the path is `.` or `..`, because every dot of the class name is gone.
  have hdots : ∀ segment : List Char, '.' ∉ segment.map lookedUpAs := by
    intro segment hdot
    obtain ⟨c, _, hc⟩ := List.mem_map.1 hdot
    exact lookedUpAs_ne_dot c hc
  have hsegment : ∀ segment : List Char,
      (!(segment.map lookedUpAs).isEmpty && segment.map lookedUpAs != ['.'] &&
        segment.map lookedUpAs != ['.', '.']) = true ↔ segment ≠ [] := by
    intro segment
    have hone : segment.map lookedUpAs ≠ ['.'] := fun h => hdots segment (by simp [h])
    have htwo : segment.map lookedUpAs ≠ ['.', '.'] := fun h => hdots segment (by simp [h])
    simp [hone, htwo]
  obtain ⟨last, hpieces⟩ := name.pieces_entryPath
  have hlast : 2 < (last.map lookedUpAs ++ classEnding).length := by
    have hending : classEnding.length = 6 := by decide
    rw [List.length_append]
    omega
  generalize last.map lookedUpAs ++ classEnding = ending at hpieces hlast
  have hlonger : ∀ name : List Char, name.length ≤ 2 → ending ≠ name := by
    rintro _ hname rfl
    omega
  have hending : (!ending.isEmpty && ending != ['.'] && ending != ['.', '.']) = true := by
    simp [hlonger [] (by decide), hlonger ['.'] (by decide), hlonger ['.', '.'] (by decide)]
  simp only [isContainedEntry, hpieces, List.all_append, List.all_map, List.all_cons, hending]
  simp only [Function.comp_def, List.all_eq_true, List.all_nil, Bool.and_true, hsegment]

end ClassName

/-! ## Following contained entry paths -/

theorem slash_notMem_of_mem_pathNames {path name : String} (h : name ∈ pathNames path) :
    '/' ∉ name.toList := by
  obtain ⟨piece, hpiece, rfl⟩ := List.mem_map.1 h
  rw [String.toList_ofList]
  intro hslash
  simpa using Text.not_isSeparator_of_mem_pieces hpiece hslash

/-- A contained entry path is put after the path of the directory. -/
theorem joinPath_of_isContainedEntry {entry : String} (h : isContainedEntry entry = true)
    (path : String) :
    ∃ separator ∈ ["", "/"], joinPath path entry = path ++ separator ++ entry := by
  have hrelative := (isRelative_of_isContainedEntry h).2
  unfold joinPath
  rw [hrelative, if_neg Bool.false_ne_true]
  split
  · exact ⟨"", by simp, by rw [String.append_empty]⟩
  · exact ⟨"/", by simp, rfl⟩

namespace FileTree

variable {tree other : FileTree} {root : Place}

/-- Two trees have the same at a place and on the way down from it. -/
def AgreesAlong (tree other : FileTree) (root : Place) (names : List String) : Prop :=
  ∀ n, tree.look (root ++ names.take n) = other.look (root ++ names.take n)

/-- Each name that is followed looks at one more place on the way. -/
theorem AgreesAlong.follow_eq {names : List String} (h : tree.AgreesAlong other root names)
    (hplain : ∀ name ∈ names, IsPlainName name) :
    tree.follow root names = other.follow root names := by
  induction names generalizing root with
  | nil => rfl
  | cons name names ih =>
      have hroot : tree.look root = other.look root := by simpa using h 0
      have hrest : tree.AgreesAlong other (root ++ [name]) names := by
        intro n
        simpa using h (n + 1)
      rw [follow, follow, hroot, descend_of_isPlainName (hplain name List.mem_cons_self),
        ih hrest fun more hmore => hplain more (List.mem_cons_of_mem name hmore)]

/-- What a contained entry path leads to depends on nothing beside the way to it. -/
theorem AgreesAlong.fileAt?_eq {path entry : String}
    (h : tree.AgreesAlong other root (pathNames entry))
    (hcontained : isContainedEntry entry = true) (hbase : tree.base path = .ok root)
    (hother : other.base path = .ok root) :
    tree.fileAt? (joinPath path entry) = other.fileAt? (joinPath path entry) := by
  have hplain := isPlainName_of_isContainedEntry hcontained
  have hfollow := h.follow_eq hplain
  unfold fileAt? stat
  rw [tree.locate_contained path hcontained, other.locate_contained path hcontained, hbase, hother]
  simp only [Except.bind]
  rw [← hfollow]
  cases hreached : tree.follow root (pathNames entry) with
  | error error => rfl
  | ok reached =>
      have hlook := h (pathNames entry).length
      rw [List.take_length, ← eq_append_of_follow hplain hreached] at hlook
      simp only [Bind.bind, Except.bind, hlook]

end FileTree

namespace Archive

/-- A directory is asked for a class either without a look at the file system, or by the
path of the directory followed by names that go down.  In the second case that path leads
below the directory if it leads anywhere, and the answer depends on nothing beside the way
to it.  It is the second case exactly if no part of the class name between dots, slashes and
backslashes is empty, but possibly the last. -/
theorem directory_lookup_stays_below (path : String) (name : ClassName) :
    ((isContainedEntry name.entryPath = false ∧
        ∀ tree, (directory path).readEntry tree name.entryPath =
          (.ok none, [.outsideEntry path name.entryPath])) ∨
      (isContainedEntry name.entryPath = true ∧
        pathNames name.entryPath ≠ [] ∧
        (∀ part ∈ pathNames name.entryPath,
          part ≠ "" ∧ part ≠ "." ∧ part ≠ ".." ∧ '/' ∉ part.toList) ∧
        ∃ separator ∈ ["", "/"], ∀ tree,
          (directory path).readEntry tree name.entryPath =
            (entryOfFile? path name.entryPath
              (tree.fileAt? (path ++ separator ++ name.entryPath)), []) ∧
          (∀ place, tree.locate (path ++ separator ++ name.entryPath) = .ok place →
            ∃ root, tree.base path = .ok root ∧ place = root ++ pathNames name.entryPath) ∧
          ∀ other root, tree.base path = .ok root → other.base path = .ok root →
            tree.AgreesAlong other root (pathNames name.entryPath) →
              (directory path).readEntry tree name.entryPath =
                (directory path).readEntry other name.entryPath)) ∧
    (isContainedEntry name.entryPath = true ↔
      ∀ segment ∈ name.segments.dropLast, segment ≠ []) := by
  refine ⟨?_, ClassName.isContainedEntry_entryPath_iff⟩
  by_cases hcontained : isContainedEntry name.entryPath = true
  · right
    have hread : ∀ tree, (directory path).readEntry tree name.entryPath =
        (entryOfFile? path name.entryPath (tree.fileAt? (joinPath path name.entryPath)), []) := by
      intro tree
      simp only [readEntry, if_pos hcontained]
    obtain ⟨separator, hseparator, hjoin⟩ := joinPath_of_isContainedEntry hcontained path
    refine ⟨hcontained, pathNames_ne_nil _, fun part hpart => ?_, separator, hseparator,
      fun tree => ?_⟩
    · obtain ⟨hempty, hhere, hup⟩ := isPlainName_of_isContainedEntry hcontained part hpart
      exact ⟨hempty, hhere, hup, slash_notMem_of_mem_pathNames hpart⟩
    · rw [← hjoin]
      refine ⟨hread tree, fun place => FileTree.exists_base_of_locate hcontained, ?_⟩
      intro other root hbase hother hagree
      rw [hread, hread, hagree.fileAt?_eq hcontained hbase hother]
  · left
    refine ⟨Bool.eq_false_iff.2 hcontained, fun tree => ?_⟩
    simp only [readEntry, if_neg hcontained]

/-- A directory `classes` with the class `pkg.A`, and what lies beside it. -/
def treeBeside (beside : List (Place × Node)) : FileTree where
  nodes := (["classes", "pkg", "A.class"], .file (.ok ByteArray.empty)) :: beside

/-- A file beside the directory is seen neither by a harmless nor by a hostile name. -/
theorem treeBeside_unseen :
    (directory "classes").readEntry (treeBeside []) (ClassName.mk "pkg.A").entryPath =
      (directory "classes").readEntry (treeBeside [(["B.class"], .file (.ok ByteArray.empty))])
        (ClassName.mk "pkg.A").entryPath ∧
    ∀ tree, ((directory "classes").readEntry tree (ClassName.mk "...B").entryPath).1 =
      .ok none := by
  constructor
  · have hentry : pathNames (ClassName.mk "pkg.A").entryPath = ["pkg", "A.class"] := by
      decide +kernel
    rcases (directory_lookup_stays_below "classes" ⟨"pkg.A"⟩).1 with ⟨houtside, _⟩ |
      ⟨_, _, _, _, _, hread⟩
    · exact absurd houtside (by decide +kernel)
    · refine (hread _).2.2 _ ["classes"] rfl rfl ?_
      rw [hentry]
      intro n
      match n with
      | 0 => rfl
      | 1 => rfl
      | _ + 2 => rfl
  · rcases (directory_lookup_stays_below "classes" ⟨"...B"⟩).1 with ⟨_, hread⟩ | ⟨hinside, _⟩
    · intro tree
      rw [hread]
    · exact absurd hinside (by decide +kernel)

end Archive
end Classpath
