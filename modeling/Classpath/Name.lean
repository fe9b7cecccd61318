import Classpath.Text.Pieces

/-!
# Class names

A class name is a dotted text such as `a.b.C`.  Class files spell the same name
with slashes, and archives store the class under an entry path ending in
`.class`.  No other normalisation is ever applied: names are equal exactly when
their texts are.
-/

namespace Classpath

/-- A fully qualified class name with dots between its parts. -/
structure ClassName where
  dotted : String
deriving DecidableEq, Repr, Inhabited

namespace ClassName

instance : ToString ClassName := ⟨dotted⟩

/-- Names are ordered by the code points of their texts, which is also the
order of their UTF-8 bytes. -/
instance : LE ClassName := ⟨fun a b => a.dotted ≤ b.dotted⟩

instance : LT ClassName := ⟨fun a b => a.dotted < b.dotted⟩

instance (a b : ClassName) : Decidable (a ≤ b) :=
  inferInstanceAs (Decidable (a.dotted ≤ b.dotted))

instance (a b : ClassName) : Decidable (a < b) :=
  inferInstanceAs (Decidable (a.dotted < b.dotted))

/-- Read the slash-separated spelling that class files use. -/
def ofInternal (internal : String) : ClassName :=
  ⟨Text.mapChars (fun c => if c = '/' then '.' else c) internal⟩

/-- The path under which an archive stores the class. -/
def entryPath (name : ClassName) : String :=
  Text.mapChars (fun c => if c = '.' then '/' else c) name.dotted ++ ".class"

/-- Does the name begin with the given text? -/
def beginsWith (name : ClassName) (start : String) : Bool :=
  Text.beginsWith start name.dotted

/-- The ending of every entry path that holds a class. -/
def classEnding : List Char := ".class".toList

/-- The name of a module declaration, which is not a loadable class. -/
def moduleInfo : List Char := "module-info".toList

/-- The class stored under an entry path, if the entry holds a loadable class.
Both slashes count as separators. -/
def ofEntryPath? (entry : String) : Option ClassName :=
  match Text.dropEnding? classEnding entry.toList with
  | none => none
  | some stem =>
      if stem.isEmpty || moduleInfo.isSuffixOf stem then none
      else some ⟨String.ofList (stem.map fun c => if c = '/' || c = '\\' then '.' else c)⟩

end ClassName
end Classpath
