import Classpath.CheckPaths
import Classpath.Proofs.DirectoryContainment
import Classpath.Proofs.Resolution
import Mathlib.Data.List.Forall2

/-!
# What archives make of a class

A path leads to an archive or is shut, and what is there says which.  An archive has a
class if it has an entry under the entry path of the class.  The entry is read and decoded,
and either can fail; an entry that declares too many bytes is not even read.  Of several
archives the first that has the class decides.  Archives are opened in order up to the
first that does not open.
-/

namespace Classpath

section

variable {α β ε : Type} {f : α → Except ε β}

theorem mapM_eq_ok_iff_forall₂ {items : List α} {results : List β} :
    items.mapM f = .ok results ↔
      List.Forall₂ (fun item result => f item = .ok result) items results := by
  induction items generalizing results with
  | nil => cases results <;> simp [Pure.pure, Except.pure]
  | cons item rest ih =>
      rw [List.mapM_cons, List.forall₂_cons_left_iff]
      simp only [← ih]
      cases hitem : f item with
      | error error => simp [Bind.bind, Except.bind]
      | ok first =>
          cases hrest : rest.mapM f with
          | error error => simp [Bind.bind, Except.bind]
          | ok more =>
              simp only [Bind.bind, Except.bind, Pure.pure, Except.pure, Except.ok.injEq]
              constructor
              · rintro rfl
                exact ⟨first, more, rfl, rfl, rfl⟩
              · rintro ⟨_, _, rfl, rfl, rfl⟩
                rfl

/-- The error is that of the first item that gives one. -/
theorem mapM_eq_error_iff {items : List α} {error : ε} :
    items.mapM f = .error error ↔ ∃ before item after, items = before ++ item :: after ∧
      (∀ earlier ∈ before, ∃ result, f earlier = .ok result) ∧ f item = .error error := by
  induction items with
  | nil => simp [Pure.pure, Except.pure]
  | cons first rest ih =>
      rw [List.mapM_cons]
      constructor
      · intro h
        cases hfirst : f first with
        | error other =>
            obtain rfl : other = error := by simpa [hfirst, Bind.bind, Except.bind] using h
            exact ⟨[], first, rest, rfl, by simp, hfirst⟩
        | ok result =>
            have hrest : rest.mapM f = .error error := by
              cases hrest : rest.mapM f with
              | error other => simpa [hfirst, hrest, Bind.bind, Except.bind] using h
              | ok results =>
                  simp [hfirst, hrest, Bind.bind, Except.bind, Pure.pure, Except.pure] at h
            obtain ⟨before, item, after, rfl, hbefore, hitem⟩ := ih.1 hrest
            refine ⟨first :: before, item, after, rfl, ?_, hitem⟩
            exact List.forall_mem_cons.2 ⟨⟨result, hfirst⟩, hbefore⟩
      · rintro ⟨before, item, after, hsplit, hbefore, hitem⟩
        cases before with
        | nil =>
            obtain ⟨rfl, rfl⟩ : first = item ∧ rest = after := by simpa using hsplit
            simp [hitem, Bind.bind, Except.bind]
        | cons skipped before =>
            obtain ⟨rfl, hrest⟩ : first = skipped ∧ rest = before ++ item :: after := by
              simpa using hsplit
            obtain ⟨⟨result, hresult⟩, hbefore⟩ := List.forall_mem_cons.1 hbefore
            have herror := ih.2 ⟨before, item, after, hrest, hbefore, hitem⟩
            simp [hresult, herror, Bind.bind, Except.bind]

end

namespace Archive

variable {openJar : ByteArray → Except String Zip.Jar} {tree : FileTree} {archive : Archive}
  {archives : List Archive} {name : ClassName}

/-! ## Opening -/

/-- The path leads to an archive: a directory, or a file that opens as a jar. -/
inductive Opens (openJar : ByteArray → Except String Zip.Jar) (tree : FileTree) (path : String) :
    Archive → Prop
  | directory (hthere : tree.stat path = .ok .directory) : Opens openJar tree path (directory path)
  | jar {data : ByteArray} {content : Zip.Jar} (hthere : tree.stat path = .ok (.file (.ok data)))
      (hjar : openJar data = .ok content) : Opens openJar tree path (jar path content)

/-- Why a path leads to no archive: to nothing, to what is no ordinary file, to a file that
cannot be read, or to one that is no jar. -/
inductive Shut (openJar : ByteArray → Except String Zip.Jar) (tree : FileTree) (path : String) :
    ReadFailure → Prop
  | nothing {error : FileError} (hthere : tree.stat path = .error error) :
      Shut openJar tree path (.file error)
  | device (hthere : tree.stat path = .ok .device) : Shut openJar tree path (.file .notRegular)
  | unreadable {error : FileError} (hthere : tree.stat path = .ok (.file (.error error))) :
      Shut openJar tree path (.file error)
  | noJar {data : ByteArray} {message : String}
      (hthere : tree.stat path = .ok (.file (.ok data))) (hjar : openJar data = .error message) :
      Shut openJar tree path (.zip message)

theorem openAt_cases (openJar : ByteArray → Except String Zip.Jar) (tree : FileTree)
    (path : String) :
    (∃ archive, Opens openJar tree path archive ∧ openAt openJar tree path = .ok archive) ∨
      ∃ cause, Shut openJar tree path cause ∧
        openAt openJar tree path = .error (.unavailable path cause) := by
  unfold openAt
  split
  · next hthere => exact .inr ⟨_, .nothing hthere, rfl⟩
  · next hthere => exact .inl ⟨_, .directory hthere, rfl⟩
  · next hthere => exact .inr ⟨_, .device hthere, rfl⟩
  · next hthere => exact .inr ⟨_, .unreadable hthere, rfl⟩
  · next hthere =>
      split
      · next hjar => exact .inl ⟨_, .jar hthere hjar, rfl⟩
      · next hjar => exact .inr ⟨_, .noJar hthere hjar, rfl⟩

theorem openAt_eq_ok_iff {path : String} :
    openAt openJar tree path = .ok archive ↔ Opens openJar tree path archive := by
  constructor
  · intro h
    rcases openAt_cases openJar tree path with ⟨other, hopens, hother⟩ | ⟨cause, _, hother⟩
    · obtain rfl : other = archive := by simpa [hother] using h
      exact hopens
    · simp [hother] at h
  · intro h
    cases h with
    | directory hthere => simp [openAt, hthere]
    | jar hthere hjar => simp [openAt, hthere, hjar]

/-- An archive that does not open is unavailable, whatever the reason. -/
theorem openAt_eq_error_iff {path : String} {error : CheckError} :
    openAt openJar tree path = .error error ↔
      ∃ cause, Shut openJar tree path cause ∧ error = .unavailable path cause := by
  constructor
  · intro h
    rcases openAt_cases openJar tree path with ⟨other, _, hother⟩ | ⟨cause, hshut, hother⟩
    · simp [hother] at h
    · obtain rfl : .unavailable path cause = error := by simpa [hother] using h
      exact ⟨cause, hshut, rfl⟩
  · rintro ⟨cause, hshut, rfl⟩
    cases hshut with
    | nothing hthere => simp [openAt, hthere]
    | device hthere => simp [openAt, hthere]
    | unreadable hthere => simp [openAt, hthere]
    | noJar hthere hjar => simp [openAt, hthere, hjar]

theorem openAll_eq_ok_iff {paths : List String} :
    openAll openJar tree paths = .ok archives ↔
      List.Forall₂ (Opens openJar tree) paths archives := by
  rw [openAll, mapM_eq_ok_iff_forall₂]
  simp only [openAt_eq_ok_iff]

/-- The first path whose archive does not open decides. -/
theorem openAll_eq_error_iff {paths : List String} {error : CheckError} :
    openAll openJar tree paths = .error error ↔ ∃ before path after cause,
      paths = before ++ path :: after ∧
      (∀ earlier ∈ before, ∃ archive, Opens openJar tree earlier archive) ∧
      Shut openJar tree path cause ∧ error = .unavailable path cause := by
  rw [openAll, mapM_eq_error_iff]
  simp only [openAt_eq_ok_iff, openAt_eq_error_iff]
  constructor
  · rintro ⟨before, path, after, hpaths, hbefore, cause, hshut, herror⟩
    exact ⟨before, path, after, cause, hpaths, hbefore, hshut, herror⟩
  · rintro ⟨before, path, after, cause, hpaths, hbefore, hshut, herror⟩
    exact ⟨before, path, after, hpaths, hbefore, cause, hshut, herror⟩

/-! ## One archive -/

/-- The file of the class in a directory, with what reading it gives.  No part of the name but
possibly the last is empty, so that the way to the file goes down. -/
def HasFile (tree : FileTree) (path : String) (name : ClassName)
    (content : Except FileError ByteArray) : Prop :=
  (∀ segment ∈ name.segments.dropLast, segment ≠ []) ∧
    tree.stat (joinPath path name.entryPath) = .ok (.file content)

/-- The archive has an entry for the class: the jar lists one, or the directory has a file. -/
def HasClass (tree : FileTree) : Archive → ClassName → Prop
  | jar _ content, name => name.entryPath ∈ content.names
  | directory path, name => ∃ content, HasFile tree path name content

/-- The bytes of the entry.  Those of a jar fit into a buffer of the size that is declared. -/
inductive Yields (tree : FileTree) (name : ClassName) : Archive → ByteArray → Prop
  | jar {path : String} {content : Zip.Jar} {opened : Zip.OpenedEntry} {bytes : ByteArray}
      (hlisted : name.entryPath ∈ content.names)
      (hopen : content.openEntry name.entryPath = .ok opened)
      (hsize : opened.size.toNat ≤ 9223372036854775807) (hread : opened.content = .ok bytes) :
      Yields tree name (jar path content) bytes
  | directory {path : String} {bytes : ByteArray} (hfile : HasFile tree path name (.ok bytes)) :
      Yields tree name (directory path) bytes

/-- The entry is there but does not open, or opens and cannot be read. -/
inductive Withholds (tree : FileTree) (name : ClassName) : Archive → ReadFailure → Prop
  | unopened {path : String} {content : Zip.Jar} {message : String}
      (hlisted : name.entryPath ∈ content.names)
      (hopen : content.openEntry name.entryPath = .error message) :
      Withholds tree name (jar path content) (.zip message)
  | unread {path : String} {content : Zip.Jar} {opened : Zip.OpenedEntry} {message : String}
      (hlisted : name.entryPath ∈ content.names)
      (hopen : content.openEntry name.entryPath = .ok opened)
      (hsize : opened.size.toNat ≤ 9223372036854775807) (hread : opened.content = .error message) :
      Withholds tree name (jar path content) (.zip message)
  | file {path : String} {error : FileError} (hfile : HasFile tree path name (.error error)) :
      Withholds tree name (directory path) (.file error)

/-- The entry of a jar declares a size above the greatest that a buffer can have. -/
inductive Oversizes (name : ClassName) : Archive → UInt64 → Prop
  | jar {path : String} {content : Zip.Jar} {opened : Zip.OpenedEntry}
      (hlisted : name.entryPath ∈ content.names)
      (hopen : content.openEntry name.entryPath = .ok opened)
      (hsize : 9223372036854775807 < opened.size.toNat) :
      Oversizes name (jar path content) opened.size

theorem hasFile_iff {path : String} {content : Except FileError ByteArray} :
    HasFile tree path name content ↔ isContainedEntry name.entryPath = true ∧
      tree.fileAt? (joinPath path name.entryPath) = some content := by
  rw [HasFile, ClassName.isContainedEntry_entryPath_iff, FileTree.fileAt?]
  cases tree.stat (joinPath path name.entryPath) with
  | error error => simp
  | ok node => cases node <;> simp

/-- What reading the entry of a class gives, and why. -/
theorem readEntry_cases (tree : FileTree) (archive : Archive) (name : ClassName) :
    (¬ archive.HasClass tree name ∧
      (archive.readEntry tree name.entryPath).1 = .ok none) ∨
    (∃ bytes, archive.Yields tree name bytes ∧
      (archive.readEntry tree name.entryPath).1 = .ok (some bytes)) ∨
    (∃ cause, archive.Withholds tree name cause ∧
      (archive.readEntry tree name.entryPath).1 =
        .error (.unreadable archive.path name.entryPath cause)) ∨
    ∃ size, archive.Oversizes name size ∧
      (archive.readEntry tree name.entryPath).1 =
        .error (.oversized archive.path name.entryPath size) := by
  cases archive with
  | jar path content =>
      simp only [readEntry]
      split
      · next hlisted =>
          simp only [readListed]
          split
          · next hopen => exact .inr (.inr (.inl ⟨_, .unopened hlisted hopen, rfl⟩))
          · next opened hopen =>
              split
              · next hsize => exact .inr (.inr (.inr ⟨_, .jar hlisted hopen hsize, rfl⟩))
              · next hsize =>
                  have hfits : opened.size.toNat ≤ maxBuffer := Nat.le_of_not_lt hsize
                  split
                  · next hread => exact .inr (.inl ⟨_, .jar hlisted hopen hfits hread, rfl⟩)
                  · next hread =>
                      exact .inr (.inr (.inl ⟨_, .unread hlisted hopen hfits hread, rfl⟩))
      · next hlisted => exact .inl ⟨hlisted, rfl⟩
  | directory path =>
      simp only [readEntry]
      split
      · next hcontained =>
          cases hfile : tree.fileAt? (joinPath path name.entryPath) with
          | none =>
              refine .inl ⟨?_, rfl⟩
              rintro ⟨content, hcontent⟩
              simp [hasFile_iff, hfile] at hcontent
          | some content =>
              have hhas := hasFile_iff.2 ⟨hcontained, hfile⟩
              cases content with
              | ok bytes => exact .inr (.inl ⟨bytes, .directory hhas, rfl⟩)
              | error error => exact .inr (.inr (.inl ⟨_, .file hhas, rfl⟩))
      · next hcontained =>
          refine .inl ⟨?_, rfl⟩
          rintro ⟨content, hcontent⟩
          exact hcontained (hasFile_iff.1 hcontent).1

theorem readEntry_of_not_hasClass (h : ¬ archive.HasClass tree name) :
    (archive.readEntry tree name.entryPath).1 = .ok none := by
  cases archive with
  | jar path content =>
      have hlisted : name.entryPath ∉ content.names := h
      simp [readEntry, hlisted]
  | directory path =>
      by_cases hcontained : isContainedEntry name.entryPath = true
      · have hnone : tree.fileAt? (joinPath path name.entryPath) = none := by
          refine Option.eq_none_iff_forall_ne_some.2 fun content hfile => h ?_
          exact ⟨content, hasFile_iff.2 ⟨hcontained, hfile⟩⟩
        simp [readEntry, hcontained, hnone, entryOfFile?]
      · simp [readEntry, hcontained]

theorem Yields.readEntry_eq {bytes : ByteArray} (h : archive.Yields tree name bytes) :
    (archive.readEntry tree name.entryPath).1 = .ok (some bytes) := by
  cases h with
  | jar hlisted hopen hsize hread =>
      simp [readEntry, readListed, hlisted, hopen, hread, maxBuffer, Nat.not_lt.2 hsize]
  | directory hfile =>
      obtain ⟨hcontained, hfile⟩ := hasFile_iff.1 hfile
      simp [readEntry, hcontained, hfile, entryOfFile?]

theorem Withholds.readEntry_eq {cause : ReadFailure} (h : archive.Withholds tree name cause) :
    (archive.readEntry tree name.entryPath).1 =
      .error (.unreadable archive.path name.entryPath cause) := by
  cases h with
  | unopened hlisted hopen => simp [readEntry, readListed, hlisted, hopen, path]
  | unread hlisted hopen hsize hread =>
      simp [readEntry, readListed, hlisted, hopen, hread, maxBuffer, Nat.not_lt.2 hsize, path]
  | file hfile =>
      obtain ⟨hcontained, hfile⟩ := hasFile_iff.1 hfile
      simp [readEntry, hcontained, hfile, entryOfFile?, path]

theorem Oversizes.readEntry_eq {size : UInt64} (h : archive.Oversizes name size) :
    (archive.readEntry tree name.entryPath).1 =
      .error (.oversized archive.path name.entryPath size) := by
  cases h with
  | jar hlisted hopen hsize => simp [readEntry, readListed, hlisted, hopen, hsize, maxBuffer, path]

/-- The entry of the class is there and decodes. -/
def Decodes (tree : FileTree) (archive : Archive) (name : ClassName) (model : ClassModel) : Prop :=
  ∃ bytes decoded, archive.Yields tree name bytes ∧
    ClassFile.decode bytes.data.toList = .ok decoded ∧ decoded.model = model

/-- The entry of the class is there but cannot be read or decoded. -/
inductive FailsOn (tree : FileTree) (archive : Archive) (name : ClassName) : CheckError → Prop
  | read {cause : ReadFailure} (hread : archive.Withholds tree name cause) :
      FailsOn tree archive name (.unreadable archive.path name.entryPath cause)
  | decode {bytes : ByteArray} {cause : ClassFile.DecodeError}
      (hread : archive.Yields tree name bytes)
      (hdecode : ClassFile.decode bytes.data.toList = .error cause) :
      FailsOn tree archive name (.undecodable name archive.path cause)

/-- A lookup reads the entry of the class and decodes it. -/
theorem finding_lookup (tree : FileTree) (archive : Archive) (name : ClassName) :
    (archive.lookup tree name).finding =
      match (archive.readEntry tree name.entryPath).1 with
      | .error error => .failed error
      | .ok none => .absent
      | .ok (some bytes) =>
          match ClassFile.decode bytes.data.toList with
          | .error cause => .failed (.undecodable name archive.path cause)
          | .ok decoded => .found decoded.model := by
  unfold lookup
  rcases archive.readEntry tree name.entryPath with ⟨error | _ | bytes, events⟩
  · rfl
  · rfl
  · simp only [decodeEntry]
    cases ClassFile.decode bytes.data.toList with
    | error cause => rfl
    | ok decoded =>
        dsimp only
        split
        · rfl
        · rfl

/-- What a lookup finds, and why. -/
theorem finding_lookup_cases (tree : FileTree) (archive : Archive) (name : ClassName) :
    (¬ archive.HasClass tree name ∧ (archive.lookup tree name).finding = .absent) ∨
    (∃ model, archive.Decodes tree name model ∧
      (archive.lookup tree name).finding = .found model) ∨
    (∃ error, archive.FailsOn tree name error ∧
      (archive.lookup tree name).finding = .failed error) ∨
    ∃ size, archive.Oversizes name size ∧ (archive.lookup tree name).finding =
      .failed (.oversized archive.path name.entryPath size) := by
  rw [finding_lookup]
  rcases readEntry_cases tree archive name with ⟨hlacks, hread⟩ | ⟨bytes, hyields, hread⟩ |
    ⟨cause, hwithholds, hread⟩ | ⟨size, hsize, hread⟩
  · exact .inl ⟨hlacks, by rw [hread]⟩
  · rw [hread]
    dsimp only
    cases hdecode : ClassFile.decode bytes.data.toList with
    | ok decoded => exact .inr (.inl ⟨_, ⟨bytes, decoded, hyields, hdecode, rfl⟩, rfl⟩)
    | error cause => exact .inr (.inr (.inl ⟨_, .decode hyields hdecode, rfl⟩))
  · exact .inr (.inr (.inl ⟨_, .read hwithholds, by rw [hread]⟩))
  · exact .inr (.inr (.inr ⟨size, hsize, by rw [hread]⟩))

theorem Decodes.finding_lookup_eq {model : ClassModel} (h : archive.Decodes tree name model) :
    (archive.lookup tree name).finding = .found model := by
  obtain ⟨bytes, decoded, hyields, hdecode, rfl⟩ := h
  simp [finding_lookup, hyields.readEntry_eq, hdecode]

theorem FailsOn.finding_lookup_eq {error : CheckError} (h : archive.FailsOn tree name error) :
    (archive.lookup tree name).finding = .failed error := by
  cases h with
  | read hread => simp [finding_lookup, hread.readEntry_eq]
  | decode hread hdecode => simp [finding_lookup, hread.readEntry_eq, hdecode]

theorem Oversizes.finding_lookup_eq {size : UInt64} (h : archive.Oversizes name size) :
    (archive.lookup tree name).finding =
      .failed (.oversized archive.path name.entryPath size) := by
  simp [finding_lookup, h.readEntry_eq]

theorem finding_lookup_eq_absent_iff :
    (archive.lookup tree name).finding = .absent ↔ ¬ archive.HasClass tree name := by
  refine ⟨fun h => ?_, fun h => by simp [finding_lookup, readEntry_of_not_hasClass h]⟩
  rcases finding_lookup_cases tree archive name with ⟨hlacks, _⟩ | ⟨_, _, hother⟩ |
    ⟨_, _, hother⟩ | ⟨_, _, hother⟩
  · exact hlacks
  · simp [hother] at h
  · simp [hother] at h
  · simp [hother] at h

theorem finding_lookup_eq_found_iff {model : ClassModel} :
    (archive.lookup tree name).finding = .found model ↔ archive.Decodes tree name model := by
  refine ⟨fun h => ?_, Decodes.finding_lookup_eq⟩
  rcases finding_lookup_cases tree archive name with ⟨_, hother⟩ | ⟨other, hdecodes, hother⟩ |
    ⟨_, _, hother⟩ | ⟨_, _, hother⟩
  · simp [hother] at h
  · obtain rfl : other = model := by simpa [hother] using h
    exact hdecodes
  · simp [hother] at h
  · simp [hother] at h

/-- A lookup that fails does so on an entry that cannot be read or decoded, or at one that
is too large to be read. -/
theorem finding_lookup_eq_failed_iff {error : CheckError} :
    (archive.lookup tree name).finding = .failed error ↔ archive.FailsOn tree name error ∨
      ∃ size, archive.Oversizes name size ∧
        error = .oversized archive.path name.entryPath size := by
  constructor
  · intro h
    rcases finding_lookup_cases tree archive name with ⟨_, hother⟩ | ⟨_, _, hother⟩ |
      ⟨other, hfails, hother⟩ | ⟨size, hsize, hother⟩
    · simp [hother] at h
    · simp [hother] at h
    · obtain rfl : other = error := by simpa [hother] using h
      exact .inl hfails
    · obtain rfl : .oversized archive.path name.entryPath size = error := by
        simpa [hother] using h
      exact .inr ⟨size, hsize, rfl⟩
  · rintro (hfails | ⟨size, hsize, rfl⟩)
    · exact hfails.finding_lookup_eq
    · exact hsize.finding_lookup_eq

/-! ## Several archives -/

theorem lacks_toSource_iff :
    (archive.toSource tree).Lacks name ↔ ¬ archive.HasClass tree name :=
  finding_lookup_eq_absent_iff

/-- The first archive that has an entry for the class. -/
def IsFirstWithEntry (tree : FileTree) (archives : List Archive) (name : ClassName)
    (archive : Archive) : Prop :=
  ∃ before after, archives = before ++ archive :: after ∧
    (∀ earlier ∈ before, ¬ earlier.HasClass tree name) ∧ archive.HasClass tree name

theorem exists_isFirstWithEntry (h : ¬ ∀ archive ∈ archives, ¬ archive.HasClass tree name) :
    ∃ archive, IsFirstWithEntry tree archives name archive := by
  induction archives with
  | nil => simp at h
  | cons first rest ih =>
      by_cases hfirst : first.HasClass tree name
      · exact ⟨first, [], rest, rfl, by simp, hfirst⟩
      · have hrest : ¬ ∀ archive ∈ rest, ¬ archive.HasClass tree name := by
          simpa [hfirst] using h
        obtain ⟨archive, before, after, rfl, hbefore, harchive⟩ := ih hrest
        refine ⟨archive, first :: before, after, rfl, ?_, harchive⟩
        exact List.forall_mem_cons.2 ⟨hfirst, hbefore⟩

/-- The first archive that has an entry decides. -/
theorem IsFirstWithEntry.firstFinding_eq (h : IsFirstWithEntry tree archives name archive) :
    firstFinding (archives.map (toSource tree)) name = (archive.lookup tree name).finding := by
  obtain ⟨before, after, rfl, hbefore, harchive⟩ := h
  have hlacks : ∀ source ∈ before.map (toSource tree), source.Lacks name := by
    intro source hsource
    obtain ⟨earlier, hearlier, rfl⟩ := List.mem_map.1 hsource
    exact lacks_toSource_iff.2 (hbefore earlier hearlier)
  rw [List.map_append, firstFinding_append, if_pos hlacks, List.map_cons, firstFinding_cons,
    if_neg fun hlacks => lacks_toSource_iff.1 hlacks harchive]
  rfl

theorem resolveFirst_eq_absent_iff :
    (resolveFirst (archives.map (toSource tree)) name).1 = .absent ↔
      ∀ archive ∈ archives, ¬ archive.HasClass tree name := by
  rw [resolveFirst, resolveFrom_eq_absent_iff, List.forall_mem_map]
  simp only [lacks_toSource_iff]

/-- A finding other than that the class is absent is that of the first archive with an
entry. -/
theorem firstFinding_eq_iff {finding : Finding} (hfinding : finding ≠ .absent) :
    firstFinding (archives.map (toSource tree)) name = finding ↔
      ∃ archive, IsFirstWithEntry tree archives name archive ∧
        (archive.lookup tree name).finding = finding := by
  constructor
  · rintro rfl
    have hsome : ¬ ∀ archive ∈ archives, ¬ archive.HasClass tree name := by
      rwa [Ne, firstFinding, Resolution.finding_eq_absent_iff, resolveFirst_eq_absent_iff]
        at hfinding
    obtain ⟨archive, harchive⟩ := exists_isFirstWithEntry hsome
    exact ⟨archive, harchive, harchive.firstFinding_eq.symm⟩
  · rintro ⟨archive, harchive, rfl⟩
    exact harchive.firstFinding_eq

/-- The first archive that has an entry for the class has one that decodes to the model. -/
def ResolvesTo (tree : FileTree) (archives : List Archive) (name : ClassName)
    (model : ClassModel) : Prop :=
  ∃ archive, IsFirstWithEntry tree archives name archive ∧ archive.Decodes tree name model

theorem exists_resolveFirst_eq_found_iff {model : ClassModel} :
    (∃ source, (resolveFirst (archives.map (toSource tree)) name).1 = .found source model) ↔
      ResolvesTo tree archives name model := by
  rw [← Resolution.finding_eq_found_iff, ← firstFinding, firstFinding_eq_iff (by simp)]
  simp only [finding_lookup_eq_found_iff, ResolvesTo]

theorem resolveFirst_eq_failed_iff {error : CheckError} :
    (resolveFirst (archives.map (toSource tree)) name).1 = .failed error ↔
      ∃ archive, IsFirstWithEntry tree archives name archive ∧
        (archive.FailsOn tree name error ∨ ∃ size, archive.Oversizes name size ∧
          error = .oversized archive.path name.entryPath size) := by
  rw [← Resolution.finding_eq_failed_iff, ← firstFinding, firstFinding_eq_iff (by simp)]
  simp only [finding_lookup_eq_failed_iff]

end Archive
end Classpath
