import Classpath.ClassFile.ConstantPool

/-!
# Annotations

Of an annotation only the descriptor of its type is kept.  The values of its
elements are passed over, although the types of annotations nested in them must
be texts of the pool.
-/

namespace Classpath
namespace ClassFile

namespace Annotations

/-- Is this the tag of an element value of two bytes? -/
def isConstantTag (tag : Char) : Bool :=
  "BCDFIJSZsc".toList.contains tag

mutual

/-- One annotation, whose element values nest at most `depth` deep. -/
def readWithin (depth : Nat) (pool : ConstantPool) : Reader String := do
  let type ← Reader.text pool
  let pairs ← Reader.u2
  let _ ← Reader.times pairs.toNat do
    Reader.skip 2
    skipValueWithin depth pool
  return type

/-- Pass over one element value that nests at most `depth` deep. -/
def skipValueWithin (depth : Nat) (pool : ConstantPool) : Reader Unit :=
  match depth with
  | 0 => throw .unexpectedEnd
  | depth + 1 => do
      let tag := Char.ofNat (← Reader.u1).toNat
      if isConstantTag tag then
        Reader.skip 2
      else if tag = 'e' then
        Reader.skip 2
        Reader.skip 2
      else if tag = '@' then
        let _ ← readWithin depth pool
      else if tag = '[' then
        let count ← Reader.u2
        let _ ← Reader.times count.toNat (skipValueWithin depth pool)
      else
        throw (.malformed .elementValue)

end

/-- A counted list of annotations.  Every level of nesting takes a byte, so the
number of bytes left bounds the depth. -/
def readList (pool : ConstantPool) : Reader (List String) := fun input =>
  Reader.counted (readWithin (input.length + 1) pool) input

/-- For each parameter, a counted list of annotations. -/
def readParameterLists (pool : ConstantPool) : Reader (List (List String)) := do
  Reader.times (← Reader.u1).toNat (readList pool)

end Annotations

/-- An annotation on the use of a type. -/
structure AnnotatedType where
  target : UInt8
  type : String
deriving DecidableEq, Repr

namespace AnnotatedType

/-- Does the annotation sit on a local variable or a resource variable? -/
def isOnLocal (use : AnnotatedType) : Bool :=
  use.target = 0x40 || use.target = 0x41

/-- Pass over the description of a target. -/
def skipTarget (target : UInt8) : Reader Unit :=
  let kind := target.toNat
  if kind ≤ 0x01 then Reader.skip 1
  else if 0x10 ≤ kind && kind ≤ 0x12 then Reader.skip 2
  else if 0x13 ≤ kind && kind ≤ 0x15 then pure ()
  else if kind = 0x16 then Reader.skip 1
  else if kind = 0x17 then Reader.skip 2
  else if kind = 0x40 || kind = 0x41 then do
    let rows ← Reader.u2
    Reader.skip (rows.toNat * 6)
  else if 0x42 ≤ kind && kind ≤ 0x46 then Reader.skip 2
  else if 0x47 ≤ kind && kind ≤ 0x4B then Reader.skip 3
  else throw (.malformed .typeTarget)

/-- One type annotation: target, path to the type, annotation.  The element values
of the annotation nest at most `depth` deep. -/
def readWithin (depth : Nat) (pool : ConstantPool) : Reader AnnotatedType := do
  let target ← Reader.u1
  skipTarget target
  let steps ← Reader.u1
  Reader.skip (steps.toNat * 2)
  return ⟨target, ← Annotations.readWithin depth pool⟩

/-- A counted list of type annotations, with the same bound on the depth. -/
def readList (pool : ConstantPool) : Reader (List AnnotatedType) := fun input =>
  Reader.counted (readWithin (input.length + 1) pool) input

end AnnotatedType
end ClassFile
end Classpath
