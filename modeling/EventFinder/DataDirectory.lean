import EventFinder.Failure
import EventFinder.Path
import EventFinder.Storage

/-!
# The data directory

Where the settings and the index are kept: in the directory that is named, or else the one that the
environment names, or else the user's directory for data.
-/

set_option autoImplicit false

namespace EventFinder

/-- The variables that the program was started with. -/
abbrev Environment := String → Option String

namespace DataDirectory

/-- The user's directory for data: the one that is named, if that is an absolute path, or else the usual
one in the home directory. -/
def userData? (environment : Environment) : Option String :=
  match (environment "XDG_DATA_HOME").filter Path.isAbsolute with
  | some path => some path
  | none => (environment "HOME").map fun home => Path.join home ".local/share"

/-- The path of the data directory. -/
def path (explicit : Option String) (environment : Environment) : Except DirectoryError String :=
  match explicit with
  | some path => .ok path
  | none =>
      match environment "EVENT_SEARCH_DATA_DIR" with
      | some path => .ok path
      | none =>
          match userData? environment with
          | some data => .ok (Path.join data "event-search/")
          | none => .error .unknownHome

/-- The path of the settings in a data directory. -/
def settingsFile (root : String) : String := Path.join root "settings.json"

/-- The path of the index in a data directory. -/
def indexDirectory (root : String) : String := Path.join root "index"

/-- Finds the data directory and makes it if need be. -/
def resolve {m : Type → Type} [Monad m] [Storage m] (explicit : Option String)
    (environment : Environment) : m (Except DirectoryError String) :=
  match path explicit environment with
  | .error e => return .error e
  | .ok root => do
      if ← Storage.makeDirectory root then return .ok root else return .error (.notCreated root)

end DataDirectory

end EventFinder
