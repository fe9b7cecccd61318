import Classpath.Proofs.ArchiveLookup
import Classpath.Proofs.MentionSites
import Classpath.Proofs.SettingsInUse
import Classpath.Proofs.WiderFilter

/-!
# The verdict of a check command

A check command loads its settings, opens its archives and walks from the entry class.
Its exit code tells how far it came and what the walk found, and a failure is that of the
first stage that fails.  What a run should come to is said in terms of the files alone: what
the paths lead to, what the jars list and yield, and what the classes name.  The one case in
which a run comes to something else is that of an entry too large for any buffer, at which
it breaks down.
-/

namespace Classpath

open CommandLine (Format Invocation)

/-- A check as it is asked for, but for how its outcome is shown. -/
structure CheckRequest where
  entry : String
  paths : List String
  settingsPath : Option String := none
  extraStarts : List String := []
  noFilter : Bool := false

namespace CheckRequest

/-- The invocation that asks for the check. -/
def invocation (request : CheckRequest) (format : Format) (verbosity : Nat) : Invocation where
  command := .check request.entry request.paths format request.extraStarts request.noFilter
  settingsPath := request.settingsPath
  verbosity := verbosity

/-- The class that the walk starts from. -/
def name (request : CheckRequest) : ClassName := ⟨CommandLine.entryName request.entry⟩

/-! ## What the files say -/

section

variable (tree : FileTree) (request : CheckRequest) (settings : Settings)
  (archives : List Archive)

/-- The platform provides the class: unless there is no filter, its name begins with a start
of the settings or of the request. -/
def Provided (name : ClassName) : Prop :=
  request.noFilter = false ∧ ∃ start ∈ settings.platformStarts ++ request.extraStarts,
    start ≠ "" ∧ start.toList <+: name.dotted.toList

/-- The class is found and decodes, and names another that the platform does not provide. -/
def Refers (name reference : ClassName) : Prop :=
  ∃ model, Archive.ResolvesTo tree archives name model ∧ model.Names reference ∧
    ¬ request.Provided settings reference

/-- The names lead from the entry to the class. -/
structure Leads (path : List ClassName) (name : ClassName) : Prop where
  first : path.head? = some request.name
  last : path.getLast? = some name
  chain : path.IsChain (request.Refers tree settings archives)

/-- The class is the first on the way of the walk that is not found or does not decode. -/
def StopsAt (name : ClassName) : Prop :=
  ∃ path, request.Leads tree settings archives path name ∧
    (∀ model, ¬ Archive.ResolvesTo tree archives name model) ∧
    ∀ other last, request.Leads tree settings archives other last →
      (∀ model, ¬ Archive.ResolvesTo tree archives last model) → NotAfter path other

end

section

variable (readers : Readers) (surroundings : Surroundings) (request : CheckRequest)

/-- The settings load and all archives open. -/
structure Loads (settings : Settings) (archives : List Archive) : Prop where
  inUse : SettingsInUse readers surroundings request.settingsPath settings
  opened : List.Forall₂ (Archive.Opens readers.openJar surroundings.tree) request.paths archives

/-- The failures of a check, in the order of the stages they belong to. -/
inductive FailsWith : ProgramError → Prop
  | settings {error : SettingsError}
      (hfails : SettingsFail readers surroundings request.settingsPath error) :
      FailsWith (.settings error)
  | archive {settings : Settings} {before after : List String} {path : String}
      {cause : ReadFailure}
      (hsettings : SettingsInUse readers surroundings request.settingsPath settings)
      (hpaths : request.paths = before ++ path :: after)
      (hbefore : ∀ earlier ∈ before, ∃ opened,
        Archive.Opens readers.openJar surroundings.tree earlier opened)
      (hshut : Archive.Shut readers.openJar surroundings.tree path cause) :
      FailsWith (.check (.unavailable path cause))
  | entry {settings : Settings} {archives : List Archive} {name : ClassName} {archive : Archive}
      {error : CheckError} (hloads : request.Loads readers surroundings settings archives)
      (hstops : request.StopsAt surroundings.tree settings archives name)
      (hfirst : Archive.IsFirstWithEntry surroundings.tree archives name archive)
      (hfails : archive.FailsOn surroundings.tree name error) : FailsWith (.check error)

/-- The walk stops at an entry that declares more bytes than any buffer can have. -/
inductive BreaksAt : CheckError → Prop
  | entry {settings : Settings} {archives : List Archive} {name : ClassName} {archive : Archive}
      {size : UInt64} (hloads : request.Loads readers surroundings settings archives)
      (hstops : request.StopsAt surroundings.tree settings archives name)
      (hfirst : Archive.IsFirstWithEntry surroundings.tree archives name archive)
      (hsize : archive.Oversizes name size) :
      BreaksAt (.oversized archive.path name.entryPath size)

end

/-! ## The walk over archives -/

/-- The filter of the walk under some settings. -/
def filter (request : CheckRequest) (settings : Settings) : PlatformFilter :=
  settings.platformFilter request.extraStarts request.noFilter

/-- The walk over the archives. -/
def walk (tree : FileTree) (request : CheckRequest) (settings : Settings)
    (archives : List Archive) : Run :=
  check (archives.map (Archive.toSource tree)) (request.filter settings) request.name

section

variable {tree : FileTree} {request : CheckRequest} {settings : Settings}
  {archives : List Archive} {name : ClassName}

theorem provides_filter_iff :
    (request.filter settings).provides name = true ↔ request.Provided settings name := by
  unfold filter Settings.platformFilter Provided
  cases request.noFilter with
  | true => simp [PlatformFilter.empty, PlatformFilter.provides]
  | false =>
      simp only [Bool.false_eq_true, if_false, PlatformFilter.provides_ofStarts, true_and,
        ClassName.beginsWith, Text.beginsWith, List.isPrefixOf_iff_prefix]

theorem modelOf?_eq_some_iff {model : ClassModel} :
    modelOf? (archives.map (Archive.toSource tree)) name = some model ↔
      Archive.ResolvesTo tree archives name model := by
  rw [← Archive.exists_resolveFirst_eq_found_iff, modelOf?]
  cases (resolveFirst (archives.map (Archive.toSource tree)) name).1 with
  | absent => simp [Resolution.model?]
  | found source other => simp [Resolution.model?]
  | failed error => simp [Resolution.model?]

theorem unresolved_toSource_iff :
    Unresolved (archives.map (Archive.toSource tree)) name ↔
      ∀ model, ¬ Archive.ResolvesTo tree archives name model := by
  simp only [Unresolved, Option.eq_none_iff_forall_ne_some, Ne, modelOf?_eq_some_iff]

theorem refersTo_eq (tree : FileTree) (request : CheckRequest) (settings : Settings)
    (archives : List Archive) :
    RefersTo (archives.map (Archive.toSource tree)) (request.filter settings) =
      request.Refers tree settings archives := by
  funext name reference
  simp only [RefersTo, Refers, modelOf?_eq_some_iff, ClassModel.mem_references,
    ClassModel.mem_mentions, provides_filter_iff]

theorem path_iff_leads {path : List ClassName} :
    Path (archives.map (Archive.toSource tree)) (request.filter settings) request.name path
      name ↔ request.Leads tree settings archives path name := by
  constructor
  · intro h
    exact ⟨h.head?_eq, h.getLast?_eq, refersTo_eq tree request settings archives ▸ h.isChain⟩
  · intro h
    refine .of_isChain h.first h.last ?_
    rw [refersTo_eq]
    exact h.chain

theorem exists_firstUnresolvedPath_iff :
    (∃ path, FirstUnresolvedPath (archives.map (Archive.toSource tree)) (request.filter settings)
      request.name path name) ↔ request.StopsAt tree settings archives name := by
  constructor
  · rintro ⟨path, h⟩
    refine ⟨path, path_iff_leads.1 h.leads, unresolved_toSource_iff.1 h.unresolved, ?_⟩
    exact fun other last hleads hlast =>
      h.first other last (path_iff_leads.2 hleads) (unresolved_toSource_iff.2 hlast)
  · rintro ⟨path, hleads, hname, hfirst⟩
    exact ⟨path, path_iff_leads.2 hleads, unresolved_toSource_iff.2 hname,
      fun other last hpath hlast =>
        hfirst other last (path_iff_leads.1 hpath) (unresolved_toSource_iff.1 hlast)⟩

theorem walk_failed_iff {error : CheckError} :
    (request.walk tree settings archives).result = .error error ↔
      ∃ name, request.StopsAt tree settings archives name ∧
        ∃ archive, Archive.IsFirstWithEntry tree archives name archive ∧
          (archive.FailsOn tree name error ∨ ∃ size, archive.Oversizes name size ∧
            error = .oversized archive.path name.entryPath size) := by
  rw [walk, check_failed_iff, exists_comm]
  simp only [Archive.resolveFirst_eq_failed_iff, exists_and_right, exists_firstUnresolvedPath_iff]

end

/-! ## The stages of a check -/

/-- What a check comes to, however it is shown. -/
def outcome (readers : Readers) (surroundings : Surroundings) (request : CheckRequest) :
    Except ProgramError Outcome :=
  match (loadSettings readers surroundings request.settingsPath).1 with
  | .error error => .error (.settings error)
  | .ok settings =>
      (checkPaths readers.openJar surroundings.tree (request.filter settings) request.name
        request.paths).result.mapError .check

section

variable {readers : Readers} {surroundings : Surroundings} {request : CheckRequest}
  {settings : Settings} {archives : List Archive} {error : ProgramError} {format : Format}
  {verbosity : Nat}

/-- Once all is loaded, the outcome is that of the walk. -/
theorem Loads.outcome_eq (h : request.Loads readers surroundings settings archives) :
    request.outcome readers surroundings =
      (request.walk surroundings.tree settings archives).result.mapError .check := by
  rw [outcome, h.inUse.loadSettings_eq]
  dsimp only
  rw [checkPaths, Archive.openAll_eq_ok_iff.2 h.opened]
  rfl

theorem Loads.outcome_eq_error_iff (h : request.Loads readers surroundings settings archives) :
    request.outcome readers surroundings = .error error ↔ ∃ failure,
      (request.walk surroundings.tree settings archives).result = .error failure ∧
        error = .check failure := by
  rw [h.outcome_eq]
  cases (request.walk surroundings.tree settings archives).result with
  | ok other => simp [Except.mapError]
  | error failure => simp [Except.mapError, eq_comm]

theorem FailsWith.outcome_eq (h : request.FailsWith readers surroundings error) :
    request.outcome readers surroundings = .error error := by
  cases h with
  | settings hfails => rw [outcome, hfails.loadSettings_eq]
  | archive hsettings hpaths hbefore hshut =>
      have hall := Archive.openAll_eq_error_iff.2 ⟨_, _, _, _, hpaths, hbefore, hshut, rfl⟩
      rw [outcome, hsettings.loadSettings_eq]
      dsimp only
      rw [checkPaths, hall]
      rfl
  | entry hloads hstops hfirst hfails =>
      have hwalk := walk_failed_iff.2 ⟨_, hstops, _, hfirst, .inl hfails⟩
      exact hloads.outcome_eq_error_iff.2 ⟨_, hwalk, rfl⟩

theorem BreaksAt.outcome_eq {failure : CheckError}
    (h : request.BreaksAt readers surroundings failure) :
    request.outcome readers surroundings = .error (.check failure) := by
  cases h with
  | entry hloads hstops hfirst hsize =>
      have hwalk := walk_failed_iff.2 ⟨_, hstops, _, hfirst, .inr ⟨_, hsize, rfl⟩⟩
      exact hloads.outcome_eq_error_iff.2 ⟨_, hwalk, rfl⟩

/-- A check fails while loading, or all is loaded. -/
theorem loading_cases (readers : Readers) (surroundings : Surroundings)
    (request : CheckRequest) :
    (∃ error, request.FailsWith readers surroundings error) ∨
      ∃ settings archives, request.Loads readers surroundings settings archives := by
  rcases settings_cases readers surroundings request.settingsPath with
    ⟨settings, hinUse⟩ | ⟨error, hfails⟩
  · cases hopen : Archive.openAll readers.openJar surroundings.tree request.paths with
    | error error =>
        obtain ⟨before, path, after, cause, hpaths, hbefore, hshut, -⟩ :=
          Archive.openAll_eq_error_iff.1 hopen
        exact .inl ⟨_, .archive hinUse hpaths hbefore hshut⟩
    | ok archives => exact .inr ⟨settings, archives, hinUse, Archive.openAll_eq_ok_iff.1 hopen⟩
  · exact .inl ⟨_, .settings hfails⟩

/-- A check that comes to an error has failed in one of its stages, or has broken down. -/
theorem outcome_eq_error_iff :
    request.outcome readers surroundings = .error error ↔
      request.FailsWith readers surroundings error ∨
        ∃ failure, request.BreaksAt readers surroundings failure ∧ error = .check failure := by
  constructor
  · intro h
    rcases loading_cases readers surroundings request with
      ⟨other, hfails⟩ | ⟨settings, archives, hloads⟩
    · obtain rfl : other = error := by simpa [hfails.outcome_eq] using h
      exact .inl hfails
    · obtain ⟨failure, hwalk, rfl⟩ := hloads.outcome_eq_error_iff.1 h
      obtain ⟨name, hstops, archive, hfirst, hfails | ⟨size, hsize, rfl⟩⟩ :=
        walk_failed_iff.1 hwalk
      · exact .inl (.entry hloads hstops hfirst hfails)
      · exact .inr ⟨_, .entry hloads hstops hfirst hsize, rfl⟩
  · rintro (hfails | ⟨failure, hbreaks, rfl⟩)
    · exact hfails.outcome_eq
    · exact hbreaks.outcome_eq

end

end CheckRequest

end Classpath
