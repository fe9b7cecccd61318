/-!
# Text from UTF-16 code units

A high surrogate directly followed by a low surrogate is one supplementary
character.  Every other surrogate stands alone and is read as U+FFFD.
-/

namespace Classpath
namespace Text

/-- The character read in place of a lone surrogate or a bad byte sequence. -/
def replacement : Char := '�'

/-- First half of a surrogate pair? -/
def isHighSurrogate (unit : UInt16) : Bool := 0xD800 ≤ unit && unit ≤ 0xDBFF

/-- Second half of a surrogate pair? -/
def isLowSurrogate (unit : UInt16) : Bool := 0xDC00 ≤ unit && unit ≤ 0xDFFF

/-- The supplementary character of a surrogate pair. -/
def pairChar (high low : UInt16) : Char :=
  Char.ofNat (0x10000 + (high.toNat - 0xD800) * 0x400 + (low.toNat - 0xDC00))

/-- The character of a unit that is not part of a pair. -/
def loneChar (unit : UInt16) : Char :=
  if isHighSurrogate unit || isLowSurrogate unit then replacement else Char.ofNat unit.toNat

/-- The characters of a sequence of code units. -/
def ofUtf16 : List UInt16 → List Char
  | [] => []
  | [unit] => [loneChar unit]
  | unit :: next :: rest =>
      if isHighSurrogate unit && isLowSurrogate next then
        pairChar unit next :: ofUtf16 rest
      else
        loneChar unit :: ofUtf16 (next :: rest)

end Text
end Classpath
