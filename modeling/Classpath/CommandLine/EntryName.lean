import Classpath.Text.Blank
import Classpath.Text.Pieces

/-!
# Entry names as typed

An entry class may be typed the way an import declaration spells it, with blanks
anywhere, the word `import` in front and semicolons behind.
-/

namespace Classpath
namespace CommandLine

/-- Without the word `import` in front, if a blank follows it. -/
def dropImport (text : List Char) : List Char :=
  match Text.dropStart? "import".toList text with
  | some (c :: rest) => if Text.isBlank c then Text.trim (c :: rest) else text
  | _ => text

/-- Without the semicolons at the end. -/
def dropSemicolons (text : List Char) : List Char :=
  if text.getLast? = some ';' then
    Text.trim (text.reverse.dropWhile (· = ';')).reverse
  else text

/-- The class name that was meant. -/
def entryName (typed : String) : String :=
  let text := dropSemicolons (dropImport (Text.trim typed.toList))
  String.ofList (text.filter (!Text.isBlank ·))

end CommandLine
end Classpath
