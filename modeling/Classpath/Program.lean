import Classpath.Catalog
import Classpath.CheckPaths
import Classpath.CommandLine.EntryName
import Classpath.CommandLine.Options
import Classpath.Json.Pretty
import Classpath.Log
import Classpath.Settings

/-!
# The program

A run takes an invocation and the state of its surroundings to an answer or a
failure, and to what is worth logging.  The exit code and the printed texts
follow from these.
-/

namespace Classpath

open CommandLine (Command Format Invocation)

/-- The readers a run relies on: what opens the bytes of a jar, and what reads settings from
the text of a file. -/
structure Readers where
  openJar : ByteArray → Except String Zip.Jar
  readSettings : String → Except String Settings

/-- The readers of zip archives and of JSON texts. -/
def Readers.standard : Readers where
  openJar data := (Zip.Jar.ofBytes data).mapError Zip.ZipError.message
  readSettings := Settings.parse

/-- What a run can see besides its arguments. -/
structure Surroundings where
  tree : FileTree
  /-- The settings path given by the environment. -/
  settingsVariable : Option String := none
  /-- The directory of the user's settings. -/
  userDirectory : Option String := none
  /-- The log directives given by the environment. -/
  logVariable : Option String := none

/-- Why a run fails. -/
inductive ProgramError
  | check (error : CheckError)
  | settings (error : SettingsError)
deriving DecidableEq, Repr

namespace ProgramError

/-- The wording of a failure, without its cause. -/
def message : ProgramError → String
  | check error => error.message
  | settings error => error.message

/-- The wording of the cause. -/
def causeMessage : ProgramError → String
  | check error => error.causeMessage
  | settings error => error.causeMessage

/-- The line that reports a failure.  A run that breaks down only says so. -/
def render : ProgramError → String
  | check (.oversized archive entry size) => (CheckError.oversized archive entry size).message
  | error => "error: " ++ error.message ++ ": " ++ error.causeMessage

/-- The exit code of a run that fails. -/
def failureCode : Nat := 2

/-- The exit code of a run that breaks down. -/
def breakdownCode : Nat := 101

def exitCode : ProgramError → Nat
  | check (.oversized _ _ _) => breakdownCode
  | _ => failureCode

end ProgramError

/-- The answer of a run that does not fail. -/
inductive Answered
  | checked (entry : ClassName) (archives : List String) (format : Format) (outcome : Outcome)
  | listed (catalogs : List Catalog) (format : Format)
deriving DecidableEq, Repr

/-- What a run comes to. -/
structure Execution where
  result : Except ProgramError Answered
  events : List Event

/-- The settings file to use: the one asked for, else the one the environment
names, else the user's if there is one. -/
def settingsPath? (surroundings : Surroundings) (asked : Option String) : Option String :=
  asked <|> surroundings.settingsVariable.filter (· != "") <|>
    (surroundings.userDirectory.map (· ++ "/class-closure/config.json")).filter
      surroundings.tree.hasPath

/-- The settings of a run. -/
def loadSettings (readers : Readers) (surroundings : Surroundings) (asked : Option String) :
    Except SettingsError Settings × List Event :=
  match settingsPath? surroundings asked with
  | none => (.ok {}, [])
  | some path =>
      match Settings.load readers.readSettings surroundings.tree path with
      | .ok settings => (.ok settings, [.loadedSettings path])
      | .error error => (.error error, [])

/-- A list of texts as a value. -/
def textsValue (texts : List String) : Json.Value := .list (texts.map .text)

/-- A list of names as a value. -/
def namesValue (names : List ClassName) : Json.Value := textsValue (names.map (·.dotted))

/-- The members that describe the outcome of a check. -/
def Outcome.members : Outcome → List (String × Json.Value)
  | satisfied resolved => [
      ("status", .text "satisfied"),
      ("resolved", .list (resolved.map fun item =>
        .object [("class", .text item.name.dotted), ("source", .number item.source)]))]
  | missing name chain => [
      ("status", .text "missing"),
      ("class", .text name.dotted),
      ("chain", namesValue chain)]

/-- The outcome of a check in words. -/
def Outcome.sentences : Outcome → String
  | satisfied _ => "All required dependencies are satisfied.\n"
  | missing name chain =>
      "Class not found: " ++ name.dotted ++ "\n" ++
        if 1 < chain.length then
          "Reference chain: " ++ Text.joined " -> " (chain.map (·.dotted)) ++ "\n"
        else ""

/-- A catalog as a value. -/
def Catalog.value (catalog : Catalog) : Json.Value :=
  .object [("archive", .text catalog.archive), ("classes", namesValue catalog.classes)]

/-- A catalog in lines: the archive, then its classes indented. -/
def Catalog.lines (catalog : Catalog) : String :=
  catalog.archive ++ ":\n" ++
    String.join (catalog.classes.map fun name => "  " ++ name.dotted ++ "\n")

namespace Answered

/-- A check succeeds if it is satisfied, a listing always. -/
def exitCode : Answered → Nat
  | checked _ _ _ outcome => if outcome.isSatisfied then 0 else 1
  | listed _ _ => 0

/-- The answer as it is printed.  In JSON, a check tells how many milliseconds it
took. -/
def output (milliseconds : Nat) : Answered → String
  | checked _ _ .text outcome => outcome.sentences
  | checked entry archives .json outcome =>
      Json.render (.object ([
        ("entry", .text entry.dotted),
        ("archives", textsValue archives),
        ("duration_ms", .number milliseconds)] ++ outcome.members)) ++ "\n"
  | listed catalogs .text => String.join (catalogs.map Catalog.lines)
  | listed catalogs .json => Json.render (.list (catalogs.map Catalog.value)) ++ "\n"

end Answered

namespace Execution

def exitCode (execution : Execution) : Nat :=
  match execution.result with
  | .ok answered => answered.exitCode
  | .error error => error.exitCode

/-- What is printed as the answer.  A run that fails prints none. -/
def output (execution : Execution) (milliseconds : Nat) : String :=
  match execution.result with
  | .ok answered => answered.output milliseconds
  | .error _ => ""

/-- What is printed beside the answer: the events shown, then the failure. -/
def sideOutput (execution : Execution) (filter : LogFilter) : List String :=
  (execution.events.filter filter.shows).map Event.render ++
    match execution.result with
    | .ok _ => []
    | .error error => [error.render]

end Execution

/-- The catalogs of the archives that open before one does not. -/
def catalogsUntilFailure (readers : Readers) (tree : FileTree) : List String → List Catalog
  | [] => []
  | path :: rest =>
      match Catalog.ofPath readers.openJar tree path with
      | .ok catalog => catalog :: catalogsUntilFailure readers tree rest
      | .error _ => []

/-- List the classes of archives. -/
def runClasses (readers : Readers) (tree : FileTree) (archives : List String) (format : Format) :
    Execution where
  result :=
    match Catalog.ofPaths readers.openJar tree archives with
    | .ok catalogs => .ok (.listed catalogs format)
    | .error error => .error (.check error)
  events := (catalogsUntilFailure readers tree archives).map Catalog.event

/-- Check an entry class.  Settings are loaded before any archive is opened. -/
def runCheck (readers : Readers) (surroundings : Surroundings) (asked : Option String)
    (entry : String) (archives : List String) (format : Format) (extraStarts : List String)
    (noFilter : Bool) : Execution :=
  match loadSettings readers surroundings asked with
  | (.error error, events) => ⟨.error (.settings error), events⟩
  | (.ok settings, events) =>
      let filter := settings.platformFilter extraStarts noFilter
      let name : ClassName := ⟨CommandLine.entryName entry⟩
      let run := checkPaths readers.openJar surroundings.tree filter name archives
      match run.result with
      | .ok outcome => ⟨.ok (.checked name archives format outcome), events ++ run.events⟩
      | .error error => ⟨.error (.check error), events ++ run.events⟩

/-- Carry out an invocation. -/
def execute (readers : Readers) (surroundings : Surroundings) (invocation : Invocation) :
    Execution :=
  match invocation.command with
  | .classes archives format => runClasses readers surroundings.tree archives format
  | .check entry archives format extraStarts noFilter =>
      runCheck readers surroundings invocation.settingsPath entry archives format extraStarts
        noFilter

end Classpath
