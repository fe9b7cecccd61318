import Classpath.Text.Utf16

/-!
# Scanning JSON text

Readers that take a piece of JSON off the front of a text and give the rest, or
nothing if the text does not begin so.  A value can be passed over without
decoding its strings.
-/

namespace Classpath
namespace Json

/-- The blanks between tokens. -/
def isBlank (c : Char) : Bool := c = ' ' || c = '\t' || c = '\n' || c = '\r'

def skipBlank (text : List Char) : List Char := text.dropWhile isBlank

/-- One element of a string: a character, or a code unit given by number. -/
inductive StringUnit
  | char (value : Char)
  | code (unit : UInt16)
deriving DecidableEq, Repr

/-- The value of a hexadecimal digit. -/
def hexDigit? (c : Char) : Option Nat :=
  if '0' ≤ c && c ≤ '9' then some (c.toNat - 48)
  else if 'a' ≤ c && c ≤ 'f' then some (c.toNat - 87)
  else if 'A' ≤ c && c ≤ 'F' then some (c.toNat - 55)
  else none

/-- The code unit of four hexadecimal digits. -/
def codeUnit? (a b c d : Char) : Option UInt16 := do
  let a ← hexDigit? a
  let b ← hexDigit? b
  let c ← hexDigit? c
  let d ← hexDigit? d
  return UInt16.ofNat (a * 4096 + b * 256 + c * 16 + d)

/-- The character of an escape of one letter. -/
def escape? : Char → Option Char
  | '"' => some '"'
  | '\\' => some '\\'
  | '/' => some '/'
  | 'b' => some '\x08'
  | 'f' => some '\x0c'
  | 'n' => some '\n'
  | 'r' => some '\r'
  | 't' => some '\t'
  | _ => none

/-- The rest of a string after its opening quote. -/
def scanString : List Char → Option (List StringUnit × List Char)
  | [] => none
  | '"' :: rest => some ([], rest)
  | '\\' :: 'u' :: a :: b :: c :: d :: rest => do
      let unit ← codeUnit? a b c d
      let (units, rest) ← scanString rest
      return (.code unit :: units, rest)
  | '\\' :: c :: rest => do
      let char ← escape? c
      let (units, rest) ← scanString rest
      return (.char char :: units, rest)
  | c :: rest => do
      if c.toNat < 0x20 || c = '\\' then
        none
      else
        let (units, rest) ← scanString rest
        return (.char c :: units, rest)

/-- The characters of a string.  Surrogates must come in pairs. -/
def decodeUnits : List StringUnit → Option (List Char)
  | [] => some []
  | .char c :: rest => (decodeUnits rest).map (c :: ·)
  | .code unit :: rest =>
      if Text.isHighSurrogate unit then
        match rest with
        | .code low :: rest =>
            if Text.isLowSurrogate low then
              (decodeUnits rest).map (Text.pairChar unit low :: ·)
            else none
        | _ => none
      else if Text.isLowSurrogate unit then none
      else (decodeUnits rest).map (Char.ofNat unit.toNat :: ·)

/-- The text of a string after its opening quote. -/
def readString (text : List Char) : Option (String × List Char) := do
  let (units, rest) ← scanString text
  return (String.ofList (← decodeUnits units), rest)

/-- Pass over at least one digit. -/
def skipDigits (text : List Char) : Option (List Char) :=
  match text with
  | c :: rest => if c.isDigit then some (rest.dropWhile Char.isDigit) else none
  | [] => none

/-- Pass over the digits before the point of a number, of which a first zero is
the only one. -/
def skipWhole : List Char → Option (List Char)
  | '0' :: rest => some rest
  | text => skipDigits text

/-- Pass over the fraction of a number, if there is one. -/
def skipFraction : List Char → Option (List Char)
  | '.' :: rest => skipDigits rest
  | text => some text

/-- Pass over the exponent of a number, if there is one. -/
def skipExponent : List Char → Option (List Char)
  | c :: rest =>
      if c = 'e' || c = 'E' then
        match rest with
        | '+' :: rest => skipDigits rest
        | '-' :: rest => skipDigits rest
        | _ => skipDigits rest
      else some (c :: rest)
  | [] => some []

/-- Pass over a number. -/
def skipNumber (text : List Char) : Option (List Char) := do
  let text := match text with
    | '-' :: rest => rest
    | _ => text
  skipExponent (← skipFraction (← skipWhole text))

mutual

/-- Pass over a value of any kind.  Each step but the closing ones takes a
character, so twice as much fuel as there are characters is enough. -/
def skipValue : (fuel : Nat) → List Char → Option (List Char)
  | 0, _ => none
  | fuel + 1, text =>
      match skipBlank text with
      | 'n' :: 'u' :: 'l' :: 'l' :: rest => some rest
      | 't' :: 'r' :: 'u' :: 'e' :: rest => some rest
      | 'f' :: 'a' :: 'l' :: 's' :: 'e' :: rest => some rest
      | '"' :: rest => (scanString rest).map (·.2)
      | '[' :: rest =>
          match skipBlank rest with
          | ']' :: rest => some rest
          | rest => skipElements fuel rest
      | '\x7b' :: rest =>
          match skipBlank rest with
          | '\x7d' :: rest => some rest
          | rest => skipMembers fuel rest
      | rest => skipNumber rest

/-- Pass over the elements of a list and its closing bracket. -/
def skipElements : (fuel : Nat) → List Char → Option (List Char)
  | 0, _ => none
  | fuel + 1, text => do
      match skipBlank (← skipValue fuel text) with
      | ',' :: rest => skipElements fuel rest
      | ']' :: rest => some rest
      | _ => none

/-- Pass over the members of an object and its closing brace. -/
def skipMembers : (fuel : Nat) → List Char → Option (List Char)
  | 0, _ => none
  | fuel + 1, text =>
      match skipBlank text with
      | '"' :: rest => do
          let (_, rest) ← scanString rest
          match skipBlank rest with
          | ':' :: rest =>
              match skipBlank (← skipValue fuel rest) with
              | ',' :: rest => skipMembers fuel rest
              | '\x7d' :: rest => some rest
              | _ => none
          | _ => none
      | _ => none

end

/-- Pass over a value of any kind. -/
def skipAny (text : List Char) : Option (List Char) :=
  skipValue (2 * text.length + 2) text

/-- The elements of a list of strings and the closing bracket. -/
def readStringsFrom : (fuel : Nat) → List Char → Option (List String × List Char)
  | 0, _ => none
  | fuel + 1, text =>
      match skipBlank text with
      | '"' :: rest => do
          let (first, rest) ← readString rest
          match skipBlank rest with
          | ',' :: rest => do
              let (more, rest) ← readStringsFrom fuel rest
              return (first :: more, rest)
          | ']' :: rest => some ([first], rest)
          | _ => none
      | _ => none

/-- A list of strings. -/
def readStrings (text : List Char) : Option (List String × List Char) :=
  match skipBlank text with
  | '[' :: rest =>
      match skipBlank rest with
      | ']' :: rest => some ([], rest)
      | rest => readStringsFrom rest.length rest
  | _ => none

end Json
end Classpath
