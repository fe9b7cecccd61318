import Classpath.Text.Hex

/-!
# Printing JSON

Values are printed over several lines, with two blanks for each level.  Of the
characters in strings only quotes, backslashes and controls are escaped.
-/

namespace Classpath
namespace Json

/-- The values that reports are made of. -/
inductive Value
  | text (value : String)
  | number (value : Nat)
  | list (elements : List Value)
  | object (members : List (String × Value))

/-- A character as it stands in a string. -/
def quotedChar (c : Char) : String :=
  if c = '"' then "\\\""
  else if c = '\\' then "\\\\"
  else if c = '\x08' then "\\b"
  else if c = '\x0c' then "\\f"
  else if c = '\n' then "\\n"
  else if c = '\r' then "\\r"
  else if c = '\t' then "\\t"
  else if c.toNat < 0x20 then "\\u" ++ Text.hex 4 c.toNat
  else String.singleton c

/-- A string with its quotes. -/
def quoted (text : String) : String :=
  "\"" ++ String.join (text.toList.map quotedChar) ++ "\""

/-- The blanks in front of a line at a level. -/
def indentation (level : Nat) : String :=
  String.ofList (List.replicate (2 * level) ' ')

mutual

/-- A value whose first line has already been indented to a level. -/
def Value.pretty (level : Nat) : Value → String
  | .text value => quoted value
  | .number value => toString value
  | .list [] => "[]"
  | .list (first :: rest) =>
      "[\n" ++ prettyElements (level + 1) (first :: rest) ++ "\n" ++ indentation level ++ "]"
  | .object [] => "\x7b\x7d"
  | .object (first :: rest) =>
      "\x7b\n" ++ prettyMembers (level + 1) (first :: rest) ++ "\n" ++ indentation level ++ "\x7d"

/-- The elements of a list, one after another. -/
def prettyElements (level : Nat) : List Value → String
  | [] => ""
  | [last] => indentation level ++ Value.pretty level last
  | first :: next :: rest =>
      indentation level ++ Value.pretty level first ++ ",\n" ++ prettyElements level (next :: rest)

/-- The members of an object, one after another. -/
def prettyMembers (level : Nat) : List (String × Value) → String
  | [] => ""
  | [(key, last)] => indentation level ++ quoted key ++ ": " ++ Value.pretty level last
  | (key, first) :: next :: rest =>
      indentation level ++ quoted key ++ ": " ++ Value.pretty level first ++ ",\n" ++
        prettyMembers level (next :: rest)

end

/-- A value printed from the start of a line. -/
def render (value : Value) : String := value.pretty 0

end Json
end Classpath
