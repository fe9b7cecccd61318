import Classpath.ClassFile.Decode
import Classpath.Source

/-!
# Sources held in memory

A source given by a list of names with their classes, as models or as class
files that are decoded when they are looked up.
-/

namespace Classpath

/-- How a class is given. -/
inductive Definition
  | decoded (model : ClassModel)
  | file (bytes : Bytes)
deriving DecidableEq, Repr

/-- What a given class is found to be. -/
def Definition.finding (name : ClassName) (label : String) : Definition → Finding
  | decoded model => .found model
  | file bytes =>
      match ClassFile.decode bytes with
      | .ok result => .found result.model
      | .error error => .failed (.undecodable name label error)

namespace ClassSource

/-- The source that defines exactly the given classes.  Of several classes with
one name the first counts. -/
def inMemory (label : String) (classes : List (ClassName × Definition)) : ClassSource where
  label := label
  answer name :=
    match classes.lookup name with
    | some definition => ⟨definition.finding name label, []⟩
    | none => ⟨.absent, []⟩
  finite := by
    refine ⟨classes.map (·.1), fun name model hname => ?_⟩
    cases hlookup : classes.lookup name with
    | none => simp [hlookup] at hname
    | some definition =>
        obtain ⟨before, after, hsplit, _⟩ := List.lookup_eq_some_iff.1 hlookup
        simp [hsplit]

end ClassSource
end Classpath
