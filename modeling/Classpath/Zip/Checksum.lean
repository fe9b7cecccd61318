/-!
# CRC-32

The cyclic redundancy check with the reversed polynomial `EDB88320`, starting
from and finally inverted with all ones.
-/

namespace Classpath
namespace Zip

/-- Divide one bit out. -/
def crcStep (crc : UInt32) : UInt32 :=
  if crc &&& 1 = 1 then (crc >>> 1) ^^^ 0xEDB88320 else crc >>> 1

/-- The remainders of all bytes. -/
def crcTable : Array UInt32 :=
  (Array.range 256).map fun byte =>
    (List.range 8).foldl (fun crc _ => crcStep crc) (UInt32.ofNat byte)

/-- Take one byte into a running checksum. -/
def crcByte (crc : UInt32) (byte : UInt8) : UInt32 :=
  let index := ((crc ^^^ byte.toUInt32) &&& 0xFF).toNat
  (crc >>> 8) ^^^ crcTable.getD index 0

/-- The checksum of a byte string. -/
def crc32 (bytes : ByteArray) : UInt32 :=
  bytes.foldl crcByte 0xFFFFFFFF ^^^ 0xFFFFFFFF

end Zip
end Classpath
