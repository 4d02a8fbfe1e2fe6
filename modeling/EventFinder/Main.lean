import EventFinder.CommandLine
import Std.Time.DateTime.Timestamp

/-!
# The program

Runs the command line on real files. The index of a data directory is kept as the text of its journal.
-/

set_option autoImplicit false

namespace EventFinder

namespace Main

/-- The file in the directory of an index that holds its journal. -/
def journalFile (directory : String) : String := Path.join directory "journal"

/-- What stands at a path on disk. -/
def readFile (path : String) : IO FileContent := do
  try
    return .bytes (← IO.FS.readBinFile path)
  catch
    | .noFileOrDirectory _ _ _ => return .missing
    | _ => return .unreadable

instance : Storage IO where
  read := readFile
  makeDirectory path := do
    try
      if path ≠ "" then IO.FS.createDirAll path
      return true
    catch _ => return false
  loadJournal directory := do
    match ← readFile (journalFile directory) with
    | .missing => return []
    | .unreadable => throw (IO.userError "the index cannot be read")
    | .bytes content =>
        match Journal.ofBytes? content.toList with
        | some journal => return journal
        | none => throw (IO.userError "the index is damaged")
  saveJournal directory journal := IO.FS.writeFile (journalFile directory) journal.text

/-- The variables that name directories, as they are now. -/
def environment : IO Environment := do
  let names := ["EVENT_SEARCH_DATA_DIR", "XDG_DATA_HOME", "HOME"]
  let values ← names.mapM fun name => return (name, ← IO.getEnv name)
  return fun name => (values.lookup name).join

/-- The standard input, if a command line asks for it. -/
def input (words : List String) : IO ByteArray := do
  match CommandLine.Arguments.ofList words with
  | .ok arguments =>
      if arguments.command.readsInput then (← IO.getStdin).readBinToEnd else return .empty
  | .error _ => return .empty

/-- The present time, in milliseconds since the start of 1970. -/
def now : IO Int64 := do
  let time ← Std.Time.Timestamp.now
  return Int64.ofInt time.toMillisecondsSinceUnixEpoch.val

end Main

end EventFinder

open EventFinder in
/-- Does what the command line asks for. -/
def main (words : List String) : IO UInt32 := do
  let outcome : CommandLine.Outcome ←
    CommandLine.run (← Main.environment) (← Main.now) (← Main.input words) words
  match outcome.failure with
  | some failure => IO.eprintln ("Error: " ++ failure.message)
  | none => pure ()
  IO.print outcome.output
  return outcome.code.toUInt32
