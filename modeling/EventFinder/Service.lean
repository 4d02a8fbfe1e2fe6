import EventFinder.Failure
import EventFinder.Journal

/-!
# The service

Settings and the index that they configure: what imports, deletes, searches and counts events.
-/

set_option autoImplicit false

namespace EventFinder

/-- How many records are stored, and of how many events. -/
structure Status where
  records : Nat
  events : Nat
deriving DecidableEq, Repr

/-- Settings and an index. -/
structure Service where
  settings : Settings
  index : Index

namespace Snapshot

/-- How many live records there are. -/
def recordCount (s : Snapshot) : Nat := s.records.length

/-- How many live records there are, and of how many identities: those that match when everything
does. -/
def status (s : Snapshot) : Except SearchError Status := do
  let everything : Request :=
    { Request.standard .matchAll with scoring := false, limit := 0 }
  let results ← s.search everything
  return ⟨s.recordCount, results.totalMatches⟩

end Snapshot

namespace Service

/-- The most workers that write an index. -/
def mostWorkers : Nat := 8

/-- How many workers share the memory: as many as can have the least amount, one at least. -/
def workers (memory : Nat) : Nat := max 1 (min mostWorkers (memory / WriterError.leastMemory))

/-- Why so much memory is refused, if it is. -/
def memoryError? (memory : Nat) : Option WriterError :=
  let share := memory / workers memory
  if share < WriterError.leastMemory then some .tooLittleMemory
  else if WriterError.memoryLimit ≤ share then some .tooMuchMemory
  else none

/-- A service over an index. -/
def start (settings : Settings) (index : Index) : Except Failure Service :=
  match memoryError? settings.writerMemory.toNat with
  | some e => .error (.writer e)
  | none => .ok ⟨settings, index⟩

/-- What queries are read against at a time. -/
def context (service : Service) (now : Int64) : Query.Context := ⟨now, service.settings.weights⟩

/-- The events of an input. -/
def readEvents (input : List UInt8) : Except Failure (List ImportedEvent) :=
  (Import.readEvents input).mapError Failure.events

/-- Writes events and commits. Gives the number of records written. -/
def ingest (service : Service) (events : List ImportedEvent) : Service × Nat :=
  ({ service with index := service.index.applyBatch (events.map Change.put) },
    (events.flatMap fun e => e.event.records e.payload).length)

/-- Imports the events of an input and commits. Gives the number of events; on a fault nothing is
written. -/
def importEvents (service : Service) (input : List UInt8) : Except Failure (Service × Nat) := do
  let events ← readEvents input
  return ((service.ingest events).1, events.length)

/-- Removes the records of an identity and commits. -/
def delete (service : Service) (identity : UInt64) : Service :=
  { service with index := service.index.applyBatch [.remove identity] }

/-- The scored first page of a query in JSON. -/
def request (service : Service) (now : Int64) (query : Json) : Except Failure Request :=
  match Query.ofJson (service.context now) query with
  | .ok query => .ok (.standard query)
  | .error e => .error (.query e)

/-- The answer to a request, from what is committed. -/
def execute (service : Service) (request : Request) : Except Failure Results :=
  (service.index.snapshot.search request).mapError SearchError.toFailure

/-- How many records and events are committed. -/
def status (service : Service) : Except Failure Status :=
  service.index.snapshot.status.mapError SearchError.toFailure

end Service

end EventFinder
