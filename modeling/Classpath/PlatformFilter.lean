import Classpath.Name
import Classpath.Ascending

/-!
# Classes the platform provides

A class whose name begins with one of the filter's starts is provided by every
runtime and need not be found in the archives.
-/

namespace Classpath

/-- The name starts of classes that every runtime provides. -/
structure PlatformFilter where
  starts : List String
deriving DecidableEq, Repr

namespace PlatformFilter

/-- A filter from any list of starts.  Empty starts would match everything and
are dropped. -/
def ofStarts (starts : List String) : PlatformFilter :=
  ⟨ascending (starts.filter (· != ""))⟩

/-- The starts assumed when nothing else is configured. -/
def defaultStarts : List String := ["java.", "javax.", "jdk.", "sun.", "com.sun."]

/-- The filter assumed when nothing else is configured. -/
def standard : PlatformFilter := ofStarts defaultStarts

/-- The filter that matches no class. -/
def empty : PlatformFilter := ⟨[]⟩

/-- Does the platform provide the class? -/
def provides (filter : PlatformFilter) (name : ClassName) : Bool :=
  filter.starts.any fun start => name.beginsWith start

end PlatformFilter
end Classpath
