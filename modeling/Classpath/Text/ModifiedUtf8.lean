import Classpath.Text.Utf16

/-!
# Modified UTF-8

Class files store text in groups of one to three bytes, one group for each
UTF-16 code unit.  The code unit zero is written in two bytes, so a zero byte
never occurs, and a supplementary character is written as the two groups of its
surrogates.  Longer groups than needed are accepted.
-/

namespace Classpath
namespace Text

/-- Does the byte continue a group? -/
def isContinuation (byte : UInt8) : Bool := 0x80 ≤ byte && byte ≤ 0xBF

/-- The six payload bits of a continuation byte. -/
def continuationBits (byte : UInt8) : Nat := byte.toNat % 64

/-- The code units of a byte string, or nothing if it is no sequence of groups. -/
def modifiedUnits? : List UInt8 → Option (List UInt16)
  | [] => some []
  | first :: rest =>
      if first < 0x80 then
        if first = 0 then none
        else (modifiedUnits? rest).map (UInt16.ofNat first.toNat :: ·)
      else if 0xC0 ≤ first && first ≤ 0xDF then
        match rest with
        | second :: rest =>
            if isContinuation second then
              (modifiedUnits? rest).map
                (UInt16.ofNat (first.toNat % 32 * 64 + continuationBits second) :: ·)
            else none
        | [] => none
      else if 0xE0 ≤ first && first ≤ 0xEF then
        match rest with
        | second :: third :: rest =>
            if isContinuation second && isContinuation third then
              (modifiedUnits? rest).map
                (UInt16.ofNat (first.toNat % 16 * 4096 + continuationBits second * 64 +
                  continuationBits third) :: ·)
            else none
        | _ => none
      else none

/-- The text of a byte string, read group by group. -/
def ofGroups? (bytes : List UInt8) : Option String :=
  (modifiedUnits? bytes).map fun units => String.ofList (ofUtf16 units)

/-- Is the byte an ASCII character other than the character zero? -/
def isPlainAscii (byte : UInt8) : Bool := byte != 0 && byte < 0x80

/-- The text whose characters are the bytes, one by one. -/
def ofAscii (bytes : List UInt8) : String :=
  String.ofList (bytes.map fun byte => Char.ofNat byte.toNat)

/-- The text of a byte string in modified UTF-8.  ASCII is taken as it stands. -/
def ofModifiedUtf8? (bytes : List UInt8) : Option String :=
  if bytes.all isPlainAscii then some (ofAscii bytes) else ofGroups? bytes

end Text
end Classpath
