import Classpath.FileTree
import Classpath.Json.Scan
import Classpath.PlatformFilter

/-!
# Settings

Settings are read from a JSON file.  They are given as an object, in which
unknown members are passed over, or as a list of the settings in order.
Settings that are not given keep their defaults.  The file is loaded by whatever
reader of texts a run is given.
-/

namespace Classpath

/-- What a settings file can say. -/
structure Settings where
  /-- Name starts of classes that the runtime provides. -/
  platformStarts : List String := PlatformFilter.defaultStarts
deriving DecidableEq, Repr

/-- Why settings cannot be loaded from a path. -/
inductive SettingsError
  | unreadable (path : String) (cause : FileError)
  | invalid (path cause : String)
deriving DecidableEq, Repr

namespace SettingsError

/-- The wording of an error, without its cause. -/
def message : SettingsError → String
  | unreadable path _ => "Failed to read config file: " ++ path
  | invalid path _ => "Invalid config file: " ++ path

/-- The wording of the cause. -/
def causeMessage : SettingsError → String
  | unreadable _ cause => cause.message
  | invalid _ cause => cause

end SettingsError

namespace Settings

/-- The filter of a run: the configured starts and some more, or no filter at
all. -/
def platformFilter (settings : Settings) (extra : List String) (isDisabled : Bool) :
    PlatformFilter :=
  if isDisabled then .empty else .ofStarts (settings.platformStarts ++ extra)

/-- The member that holds the platform starts. -/
def startsKey : String := "platform_prefixes"

/-- The members of a settings object and its closing brace.  The platform starts
may be given once. -/
def readMembers (starts : Option (List String)) : (fuel : Nat) → List Char →
    Option (Option (List String) × List Char)
  | 0, _ => none
  | fuel + 1, text =>
      match Json.skipBlank text with
      | '"' :: rest => do
          let (key, rest) ← Json.readString rest
          match Json.skipBlank rest with
          | ':' :: rest =>
              let (starts, rest) ←
                if key = startsKey then
                  match starts with
                  | some _ => none
                  | none => do
                      let (given, rest) ← Json.readStrings rest
                      pure (some given, rest)
                else do
                  let rest ← Json.skipAny rest
                  pure (starts, rest)
              match Json.skipBlank rest with
              | ',' :: rest => readMembers starts fuel rest
              | '\x7d' :: rest => some (starts, rest)
              | _ => none
          | _ => none
      | _ => none

/-- The platform starts given by a settings value, and the rest of the text. -/
def readValue (text : List Char) : Option (Option (List String) × List Char) :=
  match Json.skipBlank text with
  | '\x7b' :: rest =>
      match Json.skipBlank rest with
      | '\x7d' :: rest => some (none, rest)
      | rest => readMembers none rest.length rest
  | '[' :: rest =>
      match Json.skipBlank rest with
      | ']' :: rest => some (none, rest)
      | rest => do
          let (given, rest) ← Json.readStrings rest
          match Json.skipBlank rest with
          | ']' :: rest => some (some given, rest)
          | _ => none
  | _ => none

/-- The settings a text spells, if it is nothing but a settings value. -/
def parse? (text : String) : Option Settings := do
  let (starts, rest) ← readValue text.toList
  if (Json.skipBlank rest).isEmpty then
    match starts with
    | some given => some { platformStarts := given }
    | none => some {}
  else
    none

/-- The settings a text spells, or why it spells none. -/
def parse (text : String) : Except String Settings :=
  match parse? text with
  | some settings => .ok settings
  | none => .error "not a valid settings object"

/-- Read the settings file at a path, given what reads its text. -/
def load (readSettings : String → Except String Settings) (tree : FileTree) (path : String) :
    Except SettingsError Settings :=
  match tree.readText path with
  | .error error => .error (.unreadable path error)
  | .ok text =>
      match readSettings text with
      | .ok settings => .ok settings
      | .error cause => .error (.invalid path cause)

end Settings
end Classpath
