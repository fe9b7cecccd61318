import Classpath.Archive
import Classpath.Closure

/-!
# Checking archives by path
-/

namespace Classpath

/-- Open the archives at the given paths in order and check an entry class
against them.  Nothing is looked up unless all of them open. -/
def checkPaths (openJar : ByteArray → Except String Zip.Jar) (tree : FileTree)
    (filter : PlatformFilter) (entry : ClassName) (paths : List String) : Run :=
  match Archive.openAll openJar tree paths with
  | .error error => ⟨.error error, []⟩
  | .ok archives => check (archives.map (Archive.toSource tree)) filter entry

end Classpath
