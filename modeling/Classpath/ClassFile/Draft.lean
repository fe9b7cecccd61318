import Classpath.ClassFile.PoolWriter

/-!
# Drafts of class files

A draft says what a class file shall hold, in terms of names and descriptors
only.
-/

namespace Classpath
namespace ClassFile

/-- One instruction of a drafted method body. -/
inductive DraftOp
  | new (name : String)
  | anewarray (name : String)
  | multianewarray (name : String) (dimensions : UInt8)
  | checkcast (name : String)
  | instanceof (name : String)
  | invokestatic (owner name descriptor : String)
  | invokespecial (owner name descriptor : String)
  | invokevirtual (owner name descriptor : String)
  | getstatic (owner name descriptor : String)
  | putstatic (owner name descriptor : String)
  | getfield (owner name descriptor : String)
  | newIntArray
  | dup
  | pop
  | loadNull
  | exit
deriving DecidableEq, Repr

/-- A drafted local variable. -/
structure LocalDraft where
  descriptor : String
  signature : Option String := none
deriving DecidableEq, Repr

/-- A drafted method. -/
structure MethodDraft where
  name : String
  descriptor : String
  code : List DraftOp := []
  locals : List LocalDraft := []
  annotations : List String := []
  parameterAnnotations : List (List String) := []
  localAnnotations : List String := []
deriving DecidableEq, Repr

/-- Append to the list at a position, which is reached by empty lists if it lies
beyond the end. -/
def appendAt {α : Type} (x : α) : (position : Nat) → List (List α) → List (List α)
  | 0, [] => [[x]]
  | 0, xs :: rest => (xs ++ [x]) :: rest
  | position + 1, [] => [] :: appendAt x position []
  | position + 1, xs :: rest => xs :: appendAt x position rest

/-- Annotate one parameter of a method. -/
def MethodDraft.annotateParameter (method : MethodDraft) (position : Nat) (type : String) :
    MethodDraft :=
  { method with parameterAnnotations := appendAt type position method.parameterAnnotations }

/-- A drafted field. -/
structure FieldDraft where
  name : String
  descriptor : String
  signature : Option String := none
  annotations : List String := []
deriving DecidableEq, Repr

/-- A drafted annotation of a class: its type, and whether it carries one
element of every kind of value. -/
structure ClassMark where
  type : String
  hasValues : Bool := false
deriving DecidableEq, Repr

/-- A drafted class, with constants to be put into its pool first. -/
structure ClassDraft where
  name : String
  requests : List PoolRequest := []
  annotations : List ClassMark := []
  typeParameterAnnotations : List String := []
  fields : List FieldDraft := []
  methods : List MethodDraft := []
deriving DecidableEq, Repr

end ClassFile
end Classpath
