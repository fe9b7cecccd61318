import Classpath.Text.Utf16

/-!
# Text from UTF-8 with bad sequences replaced

Each longest run of bytes that begins a valid sequence but does not finish it is
read as one U+FFFD, and so is each byte that begins no sequence at all.
-/

namespace Classpath
namespace Text

/-- Is the byte in a range? -/
def isWithin (low high byte : UInt8) : Bool := low ≤ byte && byte ≤ high

/-- What must hold of the bytes after the first of a sequence.  The bounds on the
second byte exclude longer spellings than needed, surrogates, and numbers beyond
the last code point. -/
def followers (first : UInt8) : List (UInt8 → Bool) :=
  let any := isWithin 0x80 0xBF
  if isWithin 0xC2 0xDF first then [any]
  else if first = 0xE0 then [isWithin 0xA0 0xBF, any]
  else if first = 0xED then [isWithin 0x80 0x9F, any]
  else if isWithin 0xE1 0xEF first then [any, any]
  else if first = 0xF0 then [isWithin 0x90 0xBF, any, any]
  else if isWithin 0xF1 0xF3 first then [any, any, any]
  else if first = 0xF4 then [isWithin 0x80 0x8F, any, any]
  else []

/-- The number of leading bytes that pass their tests. -/
def passing : List (UInt8 → Bool) → List UInt8 → Nat
  | test :: tests, byte :: bytes => if test byte then passing tests bytes + 1 else 0
  | _, _ => 0

/-- The code point of a whole sequence. -/
def codePoint (first : UInt8) (rest : List UInt8) : Nat :=
  rest.foldl (fun n byte => n * 64 + byte.toNat % 64) (first.toNat % Nat.pow 2 (6 - rest.length))

/-- The character at the front of a byte string, and how many bytes after the
first it takes. -/
def leadingChar (first : UInt8) (rest : List UInt8) : Char × Nat :=
  if first < 0x80 then (Char.ofNat first.toNat, 0)
  else
    let tests := followers first
    let taken := passing tests rest
    if taken = tests.length && taken != 0 then
      (Char.ofNat (codePoint first (rest.take taken)), taken)
    else
      (replacement, taken)

/-- The characters of a byte string, bad sequences replaced. -/
def ofUtf8Lossy : List UInt8 → List Char
  | [] => []
  | first :: rest =>
      let (char, taken) := leadingChar first rest
      char :: ofUtf8Lossy (rest.drop taken)
termination_by bytes => bytes.length
decreasing_by simp only [List.length_drop, List.length_cons]; omega

end Text
end Classpath
