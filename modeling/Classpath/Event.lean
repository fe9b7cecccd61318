import Classpath.Name

/-!
# Events worth logging

What happens during a run, as values.  Whether an event is shown, and how, is
decided elsewhere.
-/

namespace Classpath

/-- How much an event matters, from most to least. -/
inductive Level
  | error
  | warn
  | info
  | debug
  | trace
deriving DecidableEq, Repr

/-- Greater ranks matter less. -/
def Level.rank : Level → Nat
  | error => 1
  | warn => 2
  | info => 3
  | debug => 4
  | trace => 5

def Level.label : Level → String
  | error => "ERROR"
  | warn => "WARN"
  | info => "INFO"
  | debug => "DEBUG"
  | trace => "TRACE"

/-- Something that happened. -/
inductive Event
  | checking (entry : ClassName) (sources : Nat)
  | resolved (name : ClassName) (source : Nat)
  | malformedDescriptor (method descriptor : String)
  | notFound (missing : ClassName) (resolved : Nat)
  | satisfied (resolved : Nat)
  | outsideEntry (archive entry : String)
  | declaredElsewhere (archive entry declared : String)
  | loadedSettings (path : String)
  | cataloged (archive : String) (classes : Nat)
deriving DecidableEq, Repr

/-- A value attached to an event. -/
inductive EventValue
  | text (value : String)
  | quoted (value : String)
  | number (value : Nat)
deriving DecidableEq, Repr

namespace Event

def level : Event → Level
  | checking .. => .info
  | resolved .. => .debug
  | malformedDescriptor .. => .warn
  | notFound .. => .info
  | satisfied .. => .info
  | outsideEntry .. => .warn
  | declaredElsewhere .. => .warn
  | loadedSettings .. => .debug
  | cataloged .. => .debug

def message : Event → String
  | checking .. => "checking dependency closure"
  | resolved .. => "resolved"
  | malformedDescriptor .. => "skipping malformed method descriptor"
  | notFound .. => "class not found in any source"
  | satisfied .. => "all dependencies satisfied"
  | outsideEntry .. => "ignoring entry outside the class directory"
  | declaredElsewhere .. => "class file declares a different name than its location"
  | loadedSettings .. => "loaded config"
  | cataloged .. => "cataloged"

/-- The part of the program an event comes from, which log directives name. -/
def target : Event → String
  | checking .. => "class_closure::closure"
  | resolved .. => "class_closure::closure"
  | malformedDescriptor .. => "class_closure::extract"
  | notFound .. => "class_closure::closure"
  | satisfied .. => "class_closure::closure"
  | outsideEntry .. => "class_closure::archive"
  | declaredElsewhere .. => "class_closure::archive"
  | loadedSettings .. => "class_closure::config"
  | cataloged .. => "class_closure::catalog"

/-- The named values of an event, in the order they are shown. -/
def fields : Event → List (String × EventValue)
  | checking entry sources => [("entry", .text entry.dotted), ("sources", .number sources)]
  | resolved name source => [("class", .text name.dotted), ("source", .number source)]
  | malformedDescriptor method descriptor =>
      [("method", .text method), ("descriptor", .text descriptor)]
  | notFound missing count => [("missing", .text missing.dotted), ("resolved", .number count)]
  | satisfied count => [("resolved", .number count)]
  | outsideEntry archive entry => [("archive", .text archive), ("entry", .quoted entry)]
  | declaredElsewhere archive entry declared =>
      [("archive", .text archive), ("entry", .text entry), ("declared", .text declared)]
  | loadedSettings path => [("path", .text path)]
  | cataloged archive classes => [("archive", .text archive), ("classes", .number classes)]

end Event
end Classpath
