import EventFinder.CommandLine.Arguments
import EventFinder.CommandLine.Report
import EventFinder.DataDirectory

/-!
# The command line

`CommandLine.run` does what a command line asks for, on any kind of storage. The data directory is found
first, then the settings are read and the index is opened, whatever the command is. A command that writes
adds one batch to the journal of the index; a command that fails adds nothing and prints nothing.

Three kinds of output are left out, none of which depends on what is stored: the page of help, the words
that explain a wrong use, and the script by which a shell completes command lines. Where one of them is
due, nothing is printed, and the exit code alone tells what came of it. Nothing is logged either, so how
much of a log is asked for makes no difference.
-/

set_option autoImplicit false

namespace EventFinder

namespace CommandLine

/-- What came of a command line: the exit code, what was printed, and why it failed. -/
structure Outcome where
  code : UInt8
  output : String
  failure : Option Failure
deriving DecidableEq, Repr

namespace Outcome

/-- The command did what was asked. -/
def success (output : String) : Outcome := ⟨0, output, none⟩

/-- The command failed. -/
def failed (failure : Failure) : Outcome := ⟨1, "", some failure⟩

/-- The command line asks for nothing that can be done. The page of help and the explanation of a wrong use
are left out: only the exit code is given. -/
def usage : Usage → Outcome
  | .wrong => ⟨2, "", none⟩
  | .help => ⟨0, "", none⟩

end Outcome

/-- What a command sees: the data directory, the service, the present time, the standard input, and the
file that is to be imported, if there is one. -/
structure Scene where
  root : String
  service : Service
  now : Int64
  input : ByteArray
  file : FileContent

/-- What a command does: it may write, and it prints. -/
structure Effect where
  writes : Option (List Change)
  output : String

namespace Scene

/-- The request with its window and its wishes as the page says. -/
def paged (request : Request) (page : Page) : Request :=
  { request with
    scoring := !page.noScoring
    includePayload := page.payload
    startIndex := page.start
    limit := page.limit }

/-- Searches and prints the results. -/
def answer (scene : Scene) (request : Request) (json : Bool) : Except Failure Effect := do
  let results ← scene.service.execute request
  return ⟨none, if json then Report.resultsJson results else Report.results results⟩

/-- A JSON text. -/
def readJson (text : String) : Except Failure Json := (Json.ofText text).mapError Failure.json

/-- The standard input as a text. -/
def inputText (scene : Scene) : Except Failure String :=
  match String.fromUTF8? scene.input with
  | some text => .ok text
  | none => .error .notText

/-- The bytes that are to be imported: the standard input for a dash, or else the file. -/
def importBytes (scene : Scene) (path : String) : Except Failure ByteArray :=
  if path = "-" then .ok scene.input
  else
    match scene.file with
    | .bytes content => .ok content
    | _ => .error (.unreadableFile path)

/-- Does what a command asks for. Completions are left out: the command that asks for the script of a shell
succeeds without printing it. -/
def perform (scene : Scene) : Command → Except Failure Effect
  | .index path => do
      let bytes ← scene.importBytes path
      let events ← Service.readEvents bytes.toList
      return ⟨some (events.map Change.put), line ("Indexed " ++ decimal events.length ++ " event(s)")⟩
  | .delete identity =>
      return ⟨some [.remove identity], line ("Deleted event " ++ decimal identity.toNat)⟩
  | .search text page =>
      let query := Query.freeText scene.service.settings.weights text
      scene.answer (paged (.standard query) page) page.json
  | .query text page => do
      let query ← readJson text
      let request ← scene.service.request scene.now query
      scene.answer (paged request page) page.json
  | .request text json => do
      let text ← if text = "-" then scene.inputText else pure text
      let value ← readJson text
      let request ← (Request.ofJson (scene.service.context scene.now) value).mapError
        RequestError.toFailure
      scene.answer request json
  | .status json => do
      let status ← scene.service.status
      return ⟨none, if json then Report.statusJson status else Report.status scene.root status⟩
  | .completions _ => return ⟨none, ""⟩

end Scene

variable {m : Type → Type} [Monad m] [Storage m]

/-- The settings in a data directory. -/
def loadSettings (root : String) : m (Except Failure Settings) := do
  let path := DataDirectory.settingsFile root
  match ← Storage.read path with
  | .missing => return (Settings.ofFile none).mapError Failure.settings
  | .unreadable => return .error (.unreadableFile path)
  | .bytes content => return (Settings.ofFile (some content)).mapError Failure.settings

/-- The journal of the index in a data directory, which is made if need be. -/
def openIndex (root : String) : m (Except Failure Journal) := do
  let path := DataDirectory.indexDirectory root
  if ← Storage.makeDirectory path then return .ok (← Storage.loadJournal path)
  else return .error (.directory (.notCreated path))

/-- The file that a command imports, if it imports one. -/
def importFile : Command → m FileContent
  | .index path => if path = "-" then return .missing else Storage.read path
  | _ => return .missing

/-- Does what a command line asks for. -/
def runArguments (environment : Environment) (now : Int64) (input : ByteArray)
    (arguments : Arguments) : ExceptT Failure m String := do
  let root ← (ExceptT.mk (DataDirectory.resolve arguments.dataDirectory environment)).adapt
    Failure.directory
  let settings ← ExceptT.mk (loadSettings root)
  let journal ← ExceptT.mk (openIndex root)
  let service ← ExceptT.mk (pure (Service.start settings journal.index))
  let file ← ExceptT.lift (importFile arguments.command)
  let scene : Scene := ⟨root, service, now, input, file⟩
  let effect ← ExceptT.mk (pure (scene.perform arguments.command))
  match effect.writes with
  | some changes =>
      ExceptT.lift (Storage.saveJournal (DataDirectory.indexDirectory root) (journal ++ [changes]))
  | none => pure ()
  return effect.output

/-- Does what the words of a command line ask for. -/
def run (environment : Environment) (now : Int64) (input : ByteArray) (words : List String) :
    m Outcome :=
  match Arguments.ofList words with
  | .error usage => return .usage usage
  | .ok arguments => do
      match ← (runArguments environment now input arguments).run with
      | .ok output => return .success output
      | .error failure => return .failed failure

end CommandLine

end EventFinder
