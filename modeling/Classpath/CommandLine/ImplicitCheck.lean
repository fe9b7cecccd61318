import Classpath.Text.Pieces

/-!
# The implicit subcommand

Arguments that name no subcommand mean `check`.  The word is put right after the
global options, so that options of `check` may stand in front of the entry
class.
-/

namespace Classpath
namespace CommandLine

/-- The words that name a subcommand. -/
def subcommands : List String := ["check", "classes", "help"]

/-- Is the argument `-v`, `-vv` and so on? -/
def isRepeatedVerbose (arg : String) : Bool :=
  match arg.toList with
  | '-' :: c :: rest => (c :: rest).all (· = 'v')
  | _ => false

/-- Is the argument a global option that needs no further argument? -/
def isGlobalFlag (arg : String) : Bool :=
  isRepeatedVerbose arg || Text.beginsWith "--config=" arg ||
    ["--verbose", "-h", "--help"].contains arg

/-- Put `check` in front unless a subcommand is there. -/
def atSubcommand : List String → List String
  | [] => []
  | arg :: rest => if subcommands.contains arg then arg :: rest else "check" :: arg :: rest

/-- Pass over the global options, then put `check` in front unless a subcommand
is there. -/
def afterGlobals : List String → List String
  | [] => []
  | [arg] =>
      if arg = "--config" || arg = "--" || isGlobalFlag arg then [arg] else atSubcommand [arg]
  | arg :: next :: rest =>
      if arg = "--" then arg :: atSubcommand (next :: rest)
      else if arg = "--config" then arg :: next :: afterGlobals rest
      else if isGlobalFlag arg then arg :: afterGlobals (next :: rest)
      else atSubcommand (arg :: next :: rest)

/-- The arguments with the implicit subcommand made explicit.  The first one is
the name of the program. -/
def insertCheck : List String → List String
  | [] => []
  | program :: args => program :: afterGlobals args

end CommandLine
end Classpath
