import Classpath.ClassFile.Reader
import Classpath.Text.ModifiedUtf8

/-!
# The constant pool

Constants are numbered from one.  A `long` or `double` takes two numbers, of
which the second is unusable, and so is number zero.
-/

namespace Classpath
namespace ClassFile

/-- The kind of the constants that begin with a tag. -/
def ConstantKind.ofTag? (tag : UInt8) : Option ConstantKind :=
  match tag.toNat with
  | 1 => some utf8
  | 3 => some integer
  | 4 => some float
  | 5 => some long
  | 6 => some double
  | 7 => some classInfo
  | 8 => some string
  | 9 => some fieldRef
  | 10 => some methodRef
  | 11 => some interfaceMethodRef
  | 12 => some nameAndType
  | 15 => some methodHandle
  | 16 => some methodType
  | 17 => some dynamic
  | 18 => some invokeDynamic
  | 19 => some moduleInfo
  | 20 => some packageInfo
  | _ => none

/-- One constant.  Other constants are referred to by number. -/
inductive Constant
  | utf8 (text : String)
  | integer (value : Int32)
  | float (bits : UInt32)
  | long (value : Int64)
  | double (bits : UInt64)
  | classInfo (name : UInt16)
  | string (text : UInt16)
  | fieldRef (owner nameAndType : UInt16)
  | methodRef (owner nameAndType : UInt16)
  | interfaceMethodRef (owner nameAndType : UInt16)
  | nameAndType (name descriptor : UInt16)
  | methodHandle (kind : UInt8) (reference : UInt16)
  | methodType (descriptor : UInt16)
  | dynamic (bootstrap nameAndType : UInt16)
  | invokeDynamic (bootstrap nameAndType : UInt16)
  | moduleInfo (name : UInt16)
  | packageInfo (name : UInt16)
deriving DecidableEq, Repr

namespace Constant

def kind : Constant → ConstantKind
  | utf8 _ => .utf8
  | integer _ => .integer
  | float _ => .float
  | long _ => .long
  | double _ => .double
  | classInfo _ => .classInfo
  | string _ => .string
  | fieldRef _ _ => .fieldRef
  | methodRef _ _ => .methodRef
  | interfaceMethodRef _ _ => .interfaceMethodRef
  | nameAndType _ _ => .nameAndType
  | methodHandle _ _ => .methodHandle
  | methodType _ => .methodType
  | dynamic _ _ => .dynamic
  | invokeDynamic _ _ => .invokeDynamic
  | moduleInfo _ => .moduleInfo
  | packageInfo _ => .packageInfo

/-- Does the constant take two numbers? -/
def isWide : Constant → Bool
  | long _ => true
  | double _ => true
  | _ => false

/-- The text that the bytes of a text constant stand for. -/
def decodeText (encoded : Bytes) : Except DecodeError String :=
  match Text.ofModifiedUtf8? encoded with
  | some text => .ok text
  | none => .error .invalidText

/-- A text constant: its length in bytes, then the bytes. -/
def readUtf8 : Reader Constant := do
  let encoded ← Reader.bytes (← Reader.u2).toNat
  return utf8 (← Reader.ofExcept (decodeText encoded))

/-- Two numbers of two bytes. -/
def readPair (build : UInt16 → UInt16 → Constant) : Reader Constant := do
  let first ← Reader.u2
  let second ← Reader.u2
  return build first second

/-- The content of a constant of a given kind. -/
def readAs : ConstantKind → Reader Constant
  | .utf8 => readUtf8
  | .integer => do return integer (← Reader.u4).toInt32
  | .float => do return float (← Reader.u4)
  | .long => do return long (← Reader.u8).toInt64
  | .double => do return double (← Reader.u8)
  | .classInfo => do return classInfo (← Reader.u2)
  | .string => do return string (← Reader.u2)
  | .fieldRef => readPair fieldRef
  | .methodRef => readPair methodRef
  | .interfaceMethodRef => readPair interfaceMethodRef
  | .nameAndType => readPair nameAndType
  | .methodHandle => do
      let kind ← Reader.u1
      return methodHandle kind (← Reader.u2)
  | .methodType => do return methodType (← Reader.u2)
  | .dynamic => readPair dynamic
  | .invokeDynamic => readPair invokeDynamic
  | .moduleInfo => do return moduleInfo (← Reader.u2)
  | .packageInfo => do return packageInfo (← Reader.u2)

/-- One constant: its tag, then its content. -/
def read : Reader Constant := do
  let tag ← Reader.u1
  match ConstantKind.ofTag? tag with
  | some kind => readAs kind
  | none => throw (.invalidTag tag)

end Constant

/-- The constants by number.  Unusable numbers hold nothing. -/
structure ConstantPool where
  slots : List (Option Constant)
deriving DecidableEq, Repr

namespace ConstantPool

/-- Constants that fill exactly `n` numbers.  A wide constant at the last
number does not fit. -/
def readSlots : (n : Nat) → Reader (List (Option Constant))
  | 0 => pure []
  | 1 => do
      let constant ← Constant.read
      if constant.isWide then
        throw (.malformed .constantPool)
      else
        return [some constant]
  | n + 2 => do
      let constant ← Constant.read
      if constant.isWide then
        return some constant :: none :: (← readSlots n)
      else
        return some constant :: (← readSlots (n + 1))

/-- A pool: one more than its highest number, then its constants. -/
def read : Reader ConstantPool := do
  let count ← Reader.u2
  return ⟨none :: (← readSlots (count.toNat - 1))⟩

/-- The constant with a number. -/
def get (pool : ConstantPool) (index : UInt16) : Except DecodeError Constant :=
  match pool.slots[index.toNat]? with
  | some (some constant) => .ok constant
  | _ => .error (.invalidIndex index)

/-- The text with a number. -/
def text (pool : ConstantPool) (index : UInt16) : Except DecodeError String := do
  match ← pool.get index with
  | .utf8 text => .ok text
  | other => .error (.kindMismatch index .text other.kind)

/-- The internal name of the class with a number. -/
def className (pool : ConstantPool) (index : UInt16) : Except DecodeError String := do
  match ← pool.get index with
  | .classInfo name => pool.text name
  | other => .error (.kindMismatch index .className other.kind)

/-- The class that owns the field or method with a number. -/
def memberOwner (pool : ConstantPool) (index : UInt16) : Except DecodeError String := do
  match ← pool.get index with
  | .fieldRef owner _ => pool.className owner
  | .methodRef owner _ => pool.className owner
  | .interfaceMethodRef owner _ => pool.className owner
  | other => .error (.kindMismatch index .member other.kind)

end ConstantPool

namespace Reader

/-- The text whose number comes next. -/
def text (pool : ConstantPool) : Reader String := do
  ofExcept (pool.text (← u2))

/-- The class whose number comes next. -/
def className (pool : ConstantPool) : Reader String := do
  ofExcept (pool.className (← u2))

/-- The owner of the member whose number comes next. -/
def memberOwner (pool : ConstantPool) : Reader String := do
  ofExcept (pool.memberOwner (← u2))

end Reader

theorem Shrinks.className (pool : ConstantPool) : Shrinks (Reader.className pool) :=
  bind u2 fun _ => ofExcept _

theorem Shrinks.memberOwner (pool : ConstantPool) : Shrinks (Reader.memberOwner pool) :=
  bind u2 fun _ => ofExcept _

end ClassFile
end Classpath
