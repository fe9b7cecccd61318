import Classpath.Archive

/-!
# Catalogs

A catalog lists the classes an archive defines.
-/

namespace Classpath

/-- An archive with its classes. -/
structure Catalog where
  archive : String
  classes : List ClassName
deriving DecidableEq, Repr

namespace Catalog

/-- The catalog of the archive at a path. -/
def ofPath (openJar : ByteArray → Except String Zip.Jar) (tree : FileTree) (path : String) :
    Except CheckError Catalog := do
  let archive ← Archive.openAt openJar tree path
  return ⟨path, archive.classNames tree⟩

/-- The catalogs of several archives in order.  The first that cannot be opened
is the failure. -/
def ofPaths (openJar : ByteArray → Except String Zip.Jar) (tree : FileTree)
    (paths : List String) : Except CheckError (List Catalog) :=
  paths.mapM (ofPath openJar tree)

/-- What is worth logging about a catalog. -/
def event (catalog : Catalog) : Event := .cataloged catalog.archive catalog.classes.length

end Catalog
end Classpath
