import Classpath.Zip.Error
import Classpath.Zip.LittleEndian

/-!
# Extra data of entries

A directory header carries extra data: a list of fields, each a kind, a length
and content.  Two kinds of field correct what the header says about its entry:
one gives wide forms of numbers, the other the method behind an encrypted entry.
A field that is cut off ends the list, and what was read before it stands.
-/

namespace Classpath
namespace Zip

/-- What a header and its extra data say about an entry. -/
structure EntryFacts where
  method : Nat
  size : Nat
  compressedSize : Nat
  headerOffset : Nat
  /-- Has a field for encryption been read? -/
  hasEncryption : Bool := false
deriving DecidableEq, Repr

/-- The value of a four-byte number that leaves the number to a wide form. -/
def wideMark : Nat := 0xFFFFFFFF

/-- A number, and the content after its wide form if it has one. -/
def widen? (number : Nat) (content : Bytes) : Option (Nat × Bytes) :=
  if number ≠ wideMark then some (number, content)
  else if content.length < 8 then none
  else some (numberAt content 0 8, content.drop 8)

namespace EntryFacts

/-- Take the wide forms of the numbers that need one, in their order.  The content
after them is missing if it is cut off. -/
def widen (facts : EntryFacts) (content : Bytes) : EntryFacts × Option Bytes :=
  match widen? facts.size content with
  | none => (facts, none)
  | some (size, content) =>
      let facts := { facts with size }
      match widen? facts.compressedSize content with
      | none => (facts, none)
      | some (compressedSize, content) =>
          let facts := { facts with compressedSize }
          match widen? facts.headerOffset content with
          | none => (facts, none)
          | some (headerOffset, content) => ({ facts with headerOffset }, some content)

/-- The length of the content of a field for encryption. -/
def encryptionLength : Nat := 7

/-- Take the content of a field for encryption: a version, the maker, the strength
and the method behind it. -/
def encrypt (facts : EntryFacts) (content : Bytes) : Except ZipError EntryFacts :=
  let version := numberAt content 0 2
  let strength := numberAt content 4 1
  if numberAt content 2 2 = 0x4541 && 1 ≤ version && version ≤ 2 && 1 ≤ strength &&
      strength ≤ 3 then
    .ok { facts with method := numberAt content 5 2, hasEncryption := true }
  else
    .error .badEncryptionField

/-- Take the fields of extra data.  A field for encryption is followed by as many
unused bytes as its content has.  Every field takes bytes, so as much fuel as
there are bytes is enough. -/
def readExtra (facts : EntryFacts) : (fuel : Nat) → Bytes → Except ZipError EntryFacts
  | 0, _ => .ok facts
  | fuel + 1, extra =>
      if extra.length < 4 then .ok facts
      else
        let kind := numberAt extra 0 2
        let length := numberAt extra 2 2
        let content := extra.drop 4
        if kind = 0x0001 then
          match facts.widen content with
          | (facts, none) => .ok facts
          | (facts, some rest) =>
              facts.readExtra fuel (rest.drop (length - (content.length - rest.length)))
        else if kind = 0x9901 then
          if length ≠ encryptionLength then .error .badEncryptionField
          else if content.length < encryptionLength then .ok facts
          else do
            let facts ← facts.encrypt content
            facts.readExtra fuel (content.drop (2 * encryptionLength))
        else
          facts.readExtra fuel (content.drop length)

end EntryFacts
end Zip
end Classpath
