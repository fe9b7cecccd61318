import Classpath.CommandLine.ImplicitCheck

/-!
# Options

The arguments of a run, scanned from left to right.  A value of an option or of
a positional argument is judged only when the next argument has been recognised,
so an unknown option is reported before a bad value in front of it.  What stands
after the subcommand is judged before the last value in front of it.
-/

namespace Classpath
namespace CommandLine

/-- How results are printed. -/
inductive Format
  | text
  | json
deriving DecidableEq, Repr

/-- What a run shall do. -/
inductive Command
  | check (entry : String) (archives : List String) (format : Format) (extraStarts : List String)
      (noFilter : Bool)
  | classes (archives : List String) (format : Format)
deriving DecidableEq, Repr

/-- A run as asked for. -/
structure Invocation where
  command : Command
  settingsPath : Option String
  verbosity : Nat
deriving DecidableEq, Repr

/-- Why arguments do not ask for a run. -/
inductive UsageError
  | help
  | noArguments
  | missingSubcommand
  | unknownSubcommand
  | missingArgument
  | unknownArgument
  | invalidValue
  | conflict
  | unneededValue
deriving DecidableEq, Repr

/-- Asking for help is no failure. -/
def UsageError.exitCode : UsageError → Nat
  | help => 0
  | _ => 2

/-- Where arguments stand: in front of the subcommand, or after one of the two. -/
inductive Scope
  | top
  | check
  | classes
deriving DecidableEq, Repr

/-- The options there are. -/
inductive Switch
  | settings
  | verbose
  | help
  | format
  | platformStart
  | noFilter
deriving DecidableEq, Repr

namespace Switch

/-- Is the option known in a scope?  The first three are known everywhere. -/
def isKnown (scope : Scope) : Switch → Bool
  | settings => true
  | verbose => true
  | help => true
  | format => scope ≠ .top
  | platformStart => scope = .check
  | noFilter => scope = .check

def takesValue : Switch → Bool
  | settings => true
  | format => true
  | platformStart => true
  | _ => false

/-- The option with a long name. -/
def ofLong? (scope : Scope) (name : String) : Option Switch :=
  let named : Option Switch :=
    match name with
    | "config" => some settings
    | "verbose" => some verbose
    | "help" => some help
    | "format" => some format
    | "platform-prefix" => some platformStart
    | "no-platform-filter" => some noFilter
    | _ => none
  named.filter (isKnown scope)

/-- The option with a short name. -/
def ofShort? (scope : Scope) (letter : Char) : Option Switch :=
  let named : Option Switch :=
    match letter with
    | 'v' => some verbose
    | 'h' => some help
    | 'f' => some format
    | _ => none
  named.filter (isKnown scope)

end Switch

/-- A value that has been taken but not yet judged. -/
inductive Pending
  | value (switch : Switch) (given : Option String)
  | entry (given : String)
  | archives (given : List String)
deriving DecidableEq, Repr

/-- What the arguments of one scope have said so far. -/
structure Scan where
  settingsPath : Option String := none
  verbosity : Nat := 0
  format : Option Format := none
  extraStarts : List String := []
  noFilter : Bool := false
  entry : Option String := none
  archives : List String := []
  pending : Option Pending := none
deriving DecidableEq, Repr

namespace Scan

/-- The format with a name. -/
def formatOf? : String → Option Format
  | "text" => some .text
  | "json" => some .json
  | _ => none

/-- Give an option its value. -/
def assign (scan : Scan) (switch : Switch) (value : String) : Except UsageError Scan :=
  match switch with
  | .settings =>
      if scan.settingsPath.isSome then .error .conflict
      else if value = "" then .error .invalidValue
      else .ok { scan with settingsPath := some value }
  | .format =>
      if scan.format.isSome then .error .conflict
      else
        match formatOf? value with
        | some format => .ok { scan with format := some format }
        | none => .error .invalidValue
  | .platformStart => .ok { scan with extraStarts := scan.extraStarts ++ [value] }
  | _ => .error .unneededValue

/-- Judge the value taken last. -/
def settle (scan : Scan) : Except UsageError Scan :=
  let settled := { scan with pending := none }
  match scan.pending with
  | none => .ok scan
  | some (.value _ none) => .error .invalidValue
  | some (.value switch (some value)) => settled.assign switch value
  | some (.entry given) => .ok { settled with entry := some given }
  | some (.archives given) =>
      if given.contains "" then .error .invalidValue
      else .ok { settled with archives := scan.archives ++ given }

/-- The most that repeated `-v` count. -/
def maxVerbosity : Nat := 255

/-- Set an option that takes no value. -/
def raise (scan : Scan) (switch : Switch) : Except UsageError Scan :=
  match switch with
  | .verbose => .ok { scan with verbosity := min (scan.verbosity + 1) maxVerbosity }
  | .noFilter =>
      if scan.noFilter then .error .conflict else .ok { scan with noFilter := true }
  | _ => .error .help

/-- Take an option, with the value attached to it if there is one. -/
def takeSwitch (scan : Scan) (switch : Switch) (attached : Option String) :
    Except UsageError Scan := do
  let scan ← scan.settle
  if switch.takesValue then
    match attached with
    | some value => scan.assign switch value
    | none => return { scan with pending := some (.value switch none) }
  else
    scan.raise switch

/-- The name of a long option and the value after its equals sign. -/
def splitLong (body : List Char) : String × Option String :=
  let name := String.ofList (body.takeWhile (· != '='))
  match body.dropWhile (· != '=') with
  | _ :: value => (name, some (String.ofList value))
  | [] => (name, none)

/-- Take a long option, given without its dashes. -/
def takeLong (scope : Scope) (scan : Scan) (body : List Char) : Except UsageError Scan :=
  let (name, attached) := splitLong body
  match Switch.ofLong? scope name with
  | none => .error .unknownArgument
  | some switch =>
      if attached.isSome && !switch.takesValue then .error .unneededValue
      else scan.takeSwitch switch attached

/-- Take a group of short options, given without their dash.  The first one that
takes a value takes what is left of the group. -/
def takeShorts (scope : Scope) (scan : Scan) : List Char → Except UsageError Scan
  | [] => .ok scan
  | letter :: rest =>
      match Switch.ofShort? scope letter with
      | none => .error .unknownArgument
      | some switch =>
          if switch.takesValue then
            match rest with
            | [] => scan.takeSwitch switch none
            | '=' :: value => scan.takeSwitch switch (some (String.ofList value))
            | value => scan.takeSwitch switch (some (String.ofList value))
          else do
            let scan ← scan.takeSwitch switch none
            scan.takeShorts scope rest

/-- Does an option wait for its value? -/
def isWaiting (scan : Scan) : Bool :=
  match scan.pending with
  | some (.value _ none) => true
  | _ => false

/-- Has the entry class been given? -/
def hasEntry (scan : Scan) : Bool :=
  match scan.pending with
  | some (.entry _) => true
  | _ => scan.entry.isSome

/-- Take an archive.  Archives in a row are judged together. -/
def takeArchive (scan : Scan) (arg : String) : Except UsageError Scan := do
  match scan.pending with
  | some (.archives given) => return { scan with pending := some (.archives (given ++ [arg])) }
  | _ => return { (← scan.settle) with pending := some (.archives [arg]) }

/-- Take an argument that is no option.  In front of the subcommand there can be
none. -/
def takePositional (scope : Scope) (scan : Scan) (arg : String) : Except UsageError Scan := do
  match scope with
  | .top => throw .unknownSubcommand
  | .classes => scan.takeArchive arg
  | .check =>
      if scan.hasEntry then scan.takeArchive arg
      else return { (← scan.settle) with pending := some (.entry arg) }

/-- Take arguments after `--`, where none is an option.  A subcommand is not
recognised there. -/
def takeTrailing (scope : Scope) (scan : Scan) : List String → Except UsageError Scan
  | [] => .ok scan
  | arg :: rest => do
      if scope = .top && subcommands.contains arg then
        throw .unknownArgument
      let scan ← scan.takePositional scope arg
      scan.takeTrailing scope rest

/-- Take an argument that is neither `--` nor a subcommand. -/
def takeArgument (scope : Scope) (scan : Scan) (arg : String) : Except UsageError Scan :=
  match arg.toList with
  | '-' :: '-' :: body => scan.takeLong scope body
  | '-' :: letter :: rest => scan.takeShorts scope (letter :: rest)
  | _ =>
      match scan.pending with
      | some (.value switch none) =>
          .ok { scan with pending := some (.value switch (some arg)) }
      | _ => scan.takePositional scope arg

/-- Take arguments up to the subcommand, which is given with what follows it. -/
def takeArguments (scope : Scope) (scan : Scan) :
    List String → Except UsageError (Scan × List String)
  | [] => .ok (scan, [])
  | arg :: rest => do
      if scope = .top && !scan.isWaiting && subcommands.contains arg then
        return (scan, arg :: rest)
      else if arg = "--" then
        return (← scan.takeTrailing scope rest, [])
      else
        let scan ← scan.takeArgument scope arg
        scan.takeArguments scope rest

/-- What the arguments after `check` or `classes` ask for. -/
def command (scope : Scope) (scan : Scan) : Except UsageError Command :=
  let format := scan.format.getD .text
  if scan.archives.isEmpty then .error .missingArgument
  else
    match scope, scan.entry with
    | .classes, _ => .ok (.classes scan.archives format)
    | _, some entry => .ok (.check entry scan.archives format scan.extraStarts scan.noFilter)
    | _, none => .error .missingArgument

/-- Has anything been said in front of the subcommand? -/
def isSilent (scan : Scan) : Bool := scan.settingsPath.isNone && scan.verbosity = 0

end Scan

/-- What `help` with some words gives: help on at most one subcommand. -/
def helpOn : List String → UsageError
  | [] => .help
  | [word] => if subcommands.contains word then .help else .unknownSubcommand
  | _ => .unknownSubcommand

/-- The run that arguments ask for, without the name of the program.  Global
options after the subcommand win over those in front of it. -/
def parse (args : List String) : Except UsageError Invocation := do
  let (top, rest) ← Scan.takeArguments .top {} args
  match rest with
  | [] =>
      let top ← top.settle
      throw (if top.isSilent then .noArguments else .missingSubcommand)
  | "help" :: words => throw (helpOn words)
  | word :: rest =>
      let scope := if word = "classes" then .classes else .check
      let (sub, _) ← Scan.takeArguments scope {} rest
      let sub ← sub.settle
      let command ← sub.command scope
      let top ← top.settle
      return {
        command
        settingsPath := sub.settingsPath <|> top.settingsPath
        verbosity := if sub.verbosity = 0 then top.verbosity else sub.verbosity }

end CommandLine
end Classpath
