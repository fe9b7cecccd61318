import Classpath.ClassFile.BigEndian

/-!
# Numbers in zip archives

Numbers are spelled least significant byte first.
-/

namespace Classpath
namespace Zip

/-- The number a byte string spells, least significant byte first. -/
def littleEndian (bytes : Bytes) : Nat := bigEndian bytes.reverse

/-- The bytes of a range, if the data goes that far. -/
def slice? (data : ByteArray) (start length : Nat) : Option Bytes :=
  if start + length ≤ data.size then some (data.extract start (start + length)).data.toList
  else none

/-- The number in a range of a byte string, least significant byte first. -/
def numberAt (bytes : Bytes) (start length : Nat) : Nat :=
  littleEndian ((bytes.drop start).take length)

end Zip
end Classpath
