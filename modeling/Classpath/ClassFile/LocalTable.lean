import Classpath.ClassFile.ConstantPool
import Classpath.Model

/-!
# Tables of local variables

One table of a method gives the descriptors of its local variables and another
the generic signatures of some of them.  Entries of the two that agree on slot
and code range describe one variable.
-/

namespace Classpath
namespace ClassFile

/-- One row of a table: a variable's slot, the code range it lives in, and its
descriptor or signature. -/
structure LocalEntry where
  start : UInt16
  length : UInt16
  slot : UInt16
  text : String
deriving DecidableEq, Repr

namespace LocalEntry

/-- Do two rows describe the same variable? -/
def sameVariable (a b : LocalEntry) : Bool :=
  a.slot = b.slot && a.start = b.start && a.length = b.length

def read (pool : ConstantPool) : Reader LocalEntry := do
  let start ← Reader.u2
  let length ← Reader.u2
  let _name ← Reader.text pool
  let text ← Reader.text pool
  let slot ← Reader.u2
  return ⟨start, length, slot, text⟩

/-- A counted table. -/
def readList (pool : ConstantPool) : Reader (List LocalEntry) :=
  Reader.counted (read pool)

end LocalEntry

/-- Give each variable the first unused signature of the same variable.
Signatures without a variable follow at the end, with an empty descriptor, so
none is lost. -/
def mergeLocals : (described typed : List LocalEntry) → List LocalVariable
  | [], typed => typed.map fun entry => ⟨"", some entry.text⟩
  | entry :: described, typed =>
      let signature := (typed.find? entry.sameVariable).map (·.text)
      ⟨entry.text, signature⟩ :: mergeLocals described (typed.eraseP entry.sameVariable)

end ClassFile
end Classpath
