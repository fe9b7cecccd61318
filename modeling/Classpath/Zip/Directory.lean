import Classpath.Text.CodePage437
import Classpath.Text.Utf8
import Classpath.Zip.Extra

/-!
# The directory of a zip archive

An archive ends with a record that says where its directory is.  The directory
has a header for each entry.  Data may stand before the archive proper: offsets
count from the start of the archive, which is found from where the end record
really is.
-/

namespace Classpath
namespace Zip

/-- What the directory says about an entry. -/
structure EntryRecord where
  name : String
  isEncrypted : Bool
  method : Nat
  checksum : UInt32
  /-- The size that the archive declares for the content. -/
  size : UInt64
  compressedSize : Nat
  headerStart : Nat
deriving DecidableEq, Repr

/-- What the end record says. -/
structure EndRecord where
  position : Nat
  entries : Nat
  directorySize : Nat
  directoryOffset : Nat
deriving DecidableEq, Repr

/-- The size of an end record without its comment. -/
def endRecordSize : Nat := 22

/-- Does a four-byte signature stand at a position? -/
def hasSignature (data : ByteArray) (position : Nat) (signature : Bytes) : Bool :=
  slice? data position 4 == some signature

/-- The signature of an end record. -/
def endSignature : Bytes := [0x50, 0x4B, 0x05, 0x06]

/-- The signature of a directory header. -/
def directorySignature : Bytes := [0x50, 0x4B, 0x01, 0x02]

/-- The signature of the header in front of an entry's data. -/
def localSignature : Bytes := [0x50, 0x4B, 0x03, 0x04]

/-- The last end record at or before a position, trying so many positions. -/
def searchBack (data : ByteArray) : (tries position : Nat) → Option Nat
  | 0, _ => none
  | tries + 1, position =>
      if hasSignature data position endSignature then some position
      else if position = 0 then none
      else searchBack data tries (position - 1)

/-- Does a field of an end record hold its greatest value?  The record may then
leave its numbers to another record. -/
def isSaturated (record : Bytes) : Bool :=
  numberAt record 4 2 = 0xFFFF || numberAt record 6 2 = 0xFFFF || numberAt record 8 2 = 0xFFFF ||
    numberAt record 10 2 = 0xFFFF || numberAt record 12 4 = 0xFFFFFFFF ||
    numberAt record 16 4 = 0xFFFFFFFF

/-- Find and read the end record.  Its comment, of at most 65535 bytes, must lie
in the data, but bytes may follow it. -/
def readEndRecord (data : ByteArray) : Except ZipError EndRecord := do
  if data.size < endRecordSize then
    throw .tooShort
  match searchBack data 65536 (data.size - endRecordSize) with
  | none => throw .noEndRecord
  | some position =>
      match slice? data position endRecordSize with
      | none => throw .truncated
      | some record =>
          if (slice? data (position + endRecordSize) (numberAt record 20 2)).isNone then
            throw .truncated
          if !isSaturated record && numberAt record 4 2 ≠ numberAt record 6 2 then
            throw .severalDisks
          return {
            position
            entries := numberAt record 8 2
            directorySize := numberAt record 12 4
            directoryOffset := numberAt record 16 4 }

/-- Where the archive proper starts. -/
def EndRecord.archiveStart (record : EndRecord) : Except ZipError Nat :=
  if record.directorySize + record.directoryOffset ≤ record.position then
    .ok (record.position - record.directorySize - record.directoryOffset)
  else
    .error .badDirectoryOffset

/-- The method that marks an encrypted entry. -/
def encryptedMark : Nat := 99

/-- The greatest place an entry can have. -/
def maxOffset : Nat := 0xFFFFFFFFFFFFFFFF

/-- The size of a directory header without name, extra data and comment. -/
def directoryHeaderSize : Nat := 46

/-- Read the header at a position, and where the next one starts. -/
def readDirectoryHeader (data : ByteArray) (archiveStart position : Nat) :
    Except ZipError (EntryRecord × Nat) := do
  if (slice? data position 4).isNone then
    throw .truncated
  if !hasSignature data position directorySignature then
    throw .badDirectoryHeader
  let some header := slice? data position directoryHeaderSize | throw .truncated
  let nameLength := numberAt header 28 2
  let extraLength := numberAt header 30 2
  let commentLength := numberAt header 32 2
  let size := directoryHeaderSize + nameLength + extraLength + commentLength
  let some whole := slice? data position size | throw .truncated
  let rawName := (whole.drop directoryHeaderSize).take nameLength
  let extra := (whole.drop (directoryHeaderSize + nameLength)).take extraLength
  let flags := numberAt header 8 2
  let stated : EntryFacts := {
    method := numberAt header 10 2
    size := numberAt header 24 4
    compressedSize := numberAt header 20 4
    headerOffset := numberAt header 42 4 }
  let facts ← stated.readExtra extra.length extra
  if facts.method = encryptedMark && !facts.hasEncryption then
    throw .badEncryptionField
  if maxOffset < facts.headerOffset + archiveStart then
    throw .badDirectoryOffset
  let name := if flags.testBit 11 then Text.ofUtf8Lossy rawName else Text.ofCodePage437 rawName
  return ({
    name := String.ofList name
    isEncrypted := flags.testBit 0 || facts.hasEncryption
    method := facts.method
    checksum := UInt32.ofNat (numberAt header 16 4)
    size := UInt64.ofNat facts.size
    compressedSize := facts.compressedSize
    headerStart := facts.headerOffset + archiveStart }, position + size)

/-- Read so many headers one after another. -/
def readDirectoryHeaders (data : ByteArray) (archiveStart : Nat) :
    (count position : Nat) → Except ZipError (List EntryRecord)
  | 0, _ => .ok []
  | count + 1, position => do
      let (record, next) ← readDirectoryHeader data archiveStart position
      return record :: (← readDirectoryHeaders data archiveStart count next)

/-- Read the whole directory of an archive. -/
def readDirectory (data : ByteArray) : Except ZipError (List EntryRecord) := do
  let record ← readEndRecord data
  let archiveStart ← record.archiveStart
  readDirectoryHeaders data archiveStart record.entries (record.directoryOffset + archiveStart)

end Zip
end Classpath
