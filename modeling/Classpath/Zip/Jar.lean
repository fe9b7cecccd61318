import Classpath.Zip.Checksum
import Classpath.Zip.Directory
import Classpath.Zip.Inflate

/-!
# Jars

A jar is known by what its reader shows of it: the names of its entries, and what
opening each of them gives.  The reader of this module takes zip archives whose
entries are stored or deflated.
-/

namespace Classpath
namespace Zip

/-- An entry that has been opened: the size that the archive declares for it, and
what reading it gives. -/
structure OpenedEntry where
  size : UInt64
  content : Except String ByteArray

/-- An opened archive. -/
structure Jar where
  names : List String
  openEntry : String → Except String OpenedEntry

/-- The bytes of an archive whose directory has been read. -/
structure Volume where
  data : ByteArray
  records : List EntryRecord

namespace Volume

/-- Read the whole directory of an archive. -/
def ofBytes (data : ByteArray) : Except ZipError Volume := do
  return ⟨data, ← readDirectory data⟩

/-- The record of an entry.  Of several with one name the last counts. -/
def find (volume : Volume) (name : String) : Except ZipError EntryRecord :=
  match volume.records.reverse.find? (·.name == name) with
  | some record => .ok record
  | none => .error .notListed

/-- The compressed data of an entry, as far as the archive goes.  The header in
front of it is used only to tell where the data starts. -/
def content (volume : Volume) (record : EntryRecord) : Except ZipError ByteArray := do
  let some header := slice? volume.data record.headerStart 30 | throw .truncated
  if header.take 4 ≠ localSignature then
    throw .badLocalHeader
  let start := record.headerStart + 30 + numberAt header 26 2 + numberAt header 28 2
  return volume.data.extract start (min volume.data.size (start + record.compressedSize))

/-- Undo the compression method of an entry. -/
def expand (method : Nat) (content : ByteArray) : Except ZipError ByteArray :=
  if method = 0 then .ok content else inflate content

/-- Expand the data of an entry and check its checksum. -/
def read (record : EntryRecord) (content : ByteArray) : Except ZipError ByteArray := do
  let expanded ← expand record.method content
  if crc32 expanded ≠ record.checksum then
    throw .badChecksum
  return expanded

/-- Open an entry.  Nothing is expanded before the data has been found and its method is
known. -/
def openEntry (volume : Volume) (name : String) : Except ZipError OpenedEntry := do
  let record ← volume.find name
  if record.isEncrypted then
    throw .encrypted
  let content ← volume.content record
  if record.method ≠ 0 && record.method ≠ 8 then
    throw .unsupportedMethod
  return { size := record.size, content := (read record content).mapError ZipError.message }

/-- The archive as it is shown. -/
def toJar (volume : Volume) : Jar where
  names := volume.records.map (·.name)
  openEntry name := (volume.openEntry name).mapError ZipError.message

end Volume

/-- Open an archive, reading its whole directory. -/
def Jar.ofBytes (data : ByteArray) : Except ZipError Jar :=
  (Volume.ofBytes data).map Volume.toJar

end Zip
end Classpath
