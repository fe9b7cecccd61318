import Classpath.ClassFile.BigEndian

/-!
# Writing a constant pool

Constants are numbered in the order they are first asked for.  Asking again for
a constant with the same bytes gives its number again, so no constant is
written twice.
-/

namespace Classpath
namespace ClassFile

/-- A pool under construction: the encoded constants with their numbers, in
order, and the next free number. -/
structure PoolBuilder where
  entries : List (Bytes × UInt16) := []
  next : UInt16 := 1
deriving DecidableEq, Repr

/-- A computation that may add constants to a pool. -/
abbrev PoolWriter := StateM PoolBuilder

/-- Two bytes, most significant first. -/
def u2Bytes (n : Nat) : Bytes := bigEndianBytes 2 n

/-- Four bytes, most significant first. -/
def u4Bytes (n : Nat) : Bytes := bigEndianBytes 4 n

/-- The bytes that refer to a constant. -/
def indexBytes (index : UInt16) : Bytes := u2Bytes index.toNat

namespace PoolBuilder

/-- The encoded pool: one more than the highest number, then the constants. -/
def toBytes (pool : PoolBuilder) : Bytes :=
  indexBytes pool.next ++ pool.entries.flatMap (·.1)

/-- The number of an encoded constant that is already there. -/
def find? (pool : PoolBuilder) (constant : Bytes) : Option UInt16 :=
  pool.entries.lookup constant

/-- The number of an encoded constant, which is added if it is new and then
takes the given number of slots. -/
def intern (constant : Bytes) (slots : UInt16) : PoolWriter UInt16 := fun pool =>
  match pool.find? constant with
  | some index => (index, pool)
  | none =>
      (pool.next, { entries := pool.entries ++ [(constant, pool.next)], next := pool.next + slots })

end PoolBuilder

namespace PoolWriter

/-- A text constant with bytes written as given.  Its length is cut to two
bytes. -/
def rawText (encoded : Bytes) : PoolWriter UInt16 :=
  PoolBuilder.intern (1 :: (u2Bytes encoded.length ++ encoded)) 1

/-- A text constant in plain UTF-8. -/
def text (value : String) : PoolWriter UInt16 :=
  rawText value.toUTF8.data.toList

def integer (value : Int32) : PoolWriter UInt16 :=
  PoolBuilder.intern (3 :: u4Bytes value.toUInt32.toNat) 1

def long (value : Int64) : PoolWriter UInt16 :=
  PoolBuilder.intern (5 :: bigEndianBytes 8 value.toUInt64.toNat) 2

def classInfo (name : String) : PoolWriter UInt16 := do
  let name ← text name
  PoolBuilder.intern (7 :: indexBytes name) 1

def nameAndType (name descriptor : String) : PoolWriter UInt16 := do
  let name ← text name
  let descriptor ← text descriptor
  PoolBuilder.intern (12 :: (indexBytes name ++ indexBytes descriptor)) 1

/-- A field or method of a class, told apart by the tag. -/
def member (tag : UInt8) (owner name descriptor : String) : PoolWriter UInt16 := do
  let owner ← classInfo owner
  let nameAndType ← nameAndType name descriptor
  PoolBuilder.intern (tag :: (indexBytes owner ++ indexBytes nameAndType)) 1

def fieldRef (owner name descriptor : String) : PoolWriter UInt16 :=
  member 9 owner name descriptor

def methodRef (owner name descriptor : String) : PoolWriter UInt16 :=
  member 10 owner name descriptor

end PoolWriter

/-- A constant asked for directly. -/
inductive PoolRequest
  | text (value : String)
  | rawText (encoded : Bytes)
  | integer (value : Int32)
  | long (value : Int64)
  | classInfo (name : String)
  | fieldRef (owner name descriptor : String)
  | methodRef (owner name descriptor : String)
deriving DecidableEq, Repr

/-- The number of a requested constant. -/
def PoolRequest.write : PoolRequest → PoolWriter UInt16
  | text value => PoolWriter.text value
  | rawText encoded => PoolWriter.rawText encoded
  | integer value => PoolWriter.integer value
  | long value => PoolWriter.long value
  | classInfo name => PoolWriter.classInfo name
  | fieldRef owner name descriptor => PoolWriter.fieldRef owner name descriptor
  | methodRef owner name descriptor => PoolWriter.methodRef owner name descriptor

end ClassFile
end Classpath
