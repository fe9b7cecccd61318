import Classpath.Program

/-!
# The command line

Reads the arguments, the environment and the files a run can see, carries the
run out and prints what it comes to.
-/

namespace Classpath

open CommandLine (Command Invocation UsageError)

namespace Snapshot

/-- The path that leads to a place from the root. -/
def absolutePath (place : Place) : String := "/" ++ pathText place

/-- Add what is at a place, with all that is below it.  A link to a file counts
as the file; a link to a directory below the first one is not followed. -/
partial def addBelow (tree : FileTree) (place : Place) (isFirst : Bool) : IO FileTree := do
  let path := (← IO.currentDir) / absolutePath place
  let kind := (← path.symlinkMetadata).type
  if ← path.isDir then
    let tree := tree.insert place .directory
    if isFirst || kind matches .dir then
      (← path.readDir).foldlM (fun tree entry => addBelow tree (place ++ [entry.fileName]) false)
        tree
    else
      return tree
  else if (← path.metadata).type matches .file then
    let content ← try
        pure (.ok (← IO.FS.readBinFile path))
      catch error => pure (.error (.refused (toString error)))
    return tree.insert place (.file content)
  else
    return tree.insert place .device

/-- Add what is at a place if it can be read. -/
def add (tree : FileTree) (place : Place) : IO FileTree := do
  try addBelow tree place true catch _ => return tree

/-- Add the ignore files in the directories above a place. -/
def addIgnoreFiles (tree : FileTree) (place : Place) : IO FileTree :=
  (List.range place.length).foldlM (fun tree n => add tree (place.take n ++ [".ignore"])) tree

/-- Add what a path leads to, with the ignore files that bear on it. -/
def addPath (tree : FileTree) (path : String) : IO FileTree := do
  let place := tree.plainPlace path
  addIgnoreFiles (← add tree place) place

end Snapshot

/-- The archives a command reads. -/
def CommandLine.Command.archives : Command → List String
  | .check _ archives .. => archives
  | .classes archives _ => archives

/-- The directory of the user's settings, by the environment. -/
def userDirectory? (settingsHome home : Option String) : Option String :=
  settingsHome.filter (Text.beginsWith "/") <|> home.map (· ++ "/.config")

/-- What a run can see. -/
def observe (invocation : Invocation) : IO Surroundings := do
  let settingsVariable ← IO.getEnv "CLASS_CLOSURE_CONFIG"
  let logVariable ← IO.getEnv "CLASS_CLOSURE_LOG"
  let userDirectory := userDirectory? (← IO.getEnv "XDG_CONFIG_HOME") (← IO.getEnv "HOME")
  let here := (pathNames (← IO.currentDir).toString).filter (· ≠ "")
  let settingsPaths := invocation.settingsPath.toList ++ settingsVariable.toList ++
    (userDirectory.map (· ++ "/class-closure/config.json")).toList
  let tree ← (settingsPaths ++ invocation.command.archives).foldlM Snapshot.addPath
    { workingDirectory := here }
  return { tree, settingsVariable, userDirectory, logVariable }

/-- How the program is called. -/
def usage : String :=
  "Check that every class reachable from an entry class is present in a set of jars\n\n" ++
  "Usage: class-closure [--config FILE] [-v]... [check] [-f text|json]\n" ++
  "         [--platform-prefix PREFIX]... [--no-platform-filter] ENTRY ARCHIVE...\n" ++
  "       class-closure [--config FILE] [-v]... classes [-f text|json] ARCHIVE...\n"

/-- What is wrong with the arguments. -/
def CommandLine.UsageError.message : UsageError → String
  | .help => ""
  | .noArguments => ""
  | .missingSubcommand => "error: a subcommand is required\n\n"
  | .unknownSubcommand => "error: unrecognized subcommand\n\n"
  | .missingArgument => "error: a required argument was not given\n\n"
  | .unknownArgument => "error: unexpected argument\n\n"
  | .invalidValue => "error: invalid value for an argument\n\n"
  | .conflict => "error: an argument was given more than once\n\n"
  | .unneededValue => "error: unexpected value for an argument\n\n"

/-- Report that arguments ask for no run. -/
def refuse (error : UsageError) : IO UInt32 := do
  if error = .help then IO.print usage else IO.eprint (error.message ++ usage)
  return UInt32.ofNat error.exitCode

/-- Carry out a run and print what it comes to. -/
def carryOut (invocation : Invocation) : IO UInt32 := do
  let start ← IO.monoMsNow
  let surroundings ← observe invocation
  let execution := execute .standard surroundings invocation
  for line in execution.sideOutput
      (LogFilter.choose surroundings.logVariable invocation.verbosity) do
    IO.eprintln line
  IO.print (execution.output ((← IO.monoMsNow) - start))
  return UInt32.ofNat execution.exitCode

end Classpath

open Classpath in
/-- Check the closure of an entry class, or list the classes of archives. -/
def main (args : List String) : IO UInt32 :=
  match CommandLine.parse ((CommandLine.insertCheck ("class-closure" :: args)).drop 1) with
  | .ok invocation => carryOut invocation
  | .error error => refuse error
