import EventFinder.Import
import EventFinder.Search
import EventFinder.Settings

/-!
# Failures

All the ways in which an operation can fail.
-/

set_option autoImplicit false

namespace EventFinder

/-- Why an index cannot be written with the memory it is given. -/
inductive WriterError where
  | tooLittleMemory
  | tooMuchMemory
deriving DecidableEq, Repr

/-- Why there is no data directory. -/
inductive DirectoryError where
  | unknownHome
  | notCreated (path : String)
deriving DecidableEq, Repr

/-- Why an operation failed. -/
inductive Failure where
  | json (fault : Json.Fault)
  | query (error : QueryError)
  | notSearchable (field : Field)
  | events (error : ImportError)
  | settings (error : SettingsError)
  | writer (error : WriterError)
  | directory (error : DirectoryError)
  | unreadableFile (path : String)
  | notText
deriving DecidableEq, Repr

namespace WriterError

/-- The least memory of a worker, in bytes. -/
def leastMemory : Nat := 15000000

/-- The memory of a worker must stay below this, in bytes. -/
def memoryLimit : Nat := 4293967295

/-- Why the memory is refused, in words. -/
def message : WriterError → String
  | tooLittleMemory =>
      "index error: An invalid argument was passed: 'The memory arena in bytes per thread needs to be at least "
        ++ String.ofList (decimalDigits leastMemory) ++ ".'"
  | tooMuchMemory =>
      "index error: An invalid argument was passed: 'The memory arena in bytes per thread cannot exceed "
        ++ String.ofList (decimalDigits memoryLimit) ++ "'"

end WriterError

/-- Why there is no data directory, in words. -/
def DirectoryError.message : DirectoryError → String
  | unknownHome => "configuration error: could not determine XDG data home directory"
  | notCreated path => "data directory does not exist and could not be created: " ++ path

namespace SearchError

/-- Why a search failed, among all failures. -/
def toFailure : SearchError → Failure
  | query e => .query e
  | notSearchable field => .notSearchable field

end SearchError

namespace RequestError

/-- Why there is no request, among all failures. -/
def toFailure : RequestError → Failure
  | malformed fault => .json fault
  | query e => .query e

end RequestError

namespace Failure

/-- What is wrong with a JSON text. -/
def faultMessage : Json.Fault → String
  | .incomplete => "JSON error: the text ends too early"
  | .malformed => "JSON error: the text is not JSON"
  | .mismatched => "JSON error: the value has another shape"

/-- Why an operation failed, in words. -/
def message : Failure → String
  | json fault => faultMessage fault
  | query e => e.message
  | notSearchable field => "index error: Schema error: 'Field \"" ++ field.label ++ "\" is not indexed.'"
  | events .notText | notText => "I/O error: stream did not contain valid UTF-8"
  | events (.notEvent line fault) =>
      "invalid event on line " ++ String.ofList (decimalDigits line) ++ ": " ++ faultMessage fault
  | settings e => e.message
  | writer e => e.message
  | directory e => e.message
  | unreadableFile path => "I/O error: cannot read " ++ path

end Failure

end EventFinder
