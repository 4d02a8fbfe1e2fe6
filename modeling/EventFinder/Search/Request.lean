import EventFinder.Json.Shape
import EventFinder.Query.Language

/-!
# Search requests

A query together with what is asked about its matches: whether they are scored, whether payloads are
wanted, and which window of the ranking.
-/

set_option autoImplicit false

namespace EventFinder

/-- A query and what is asked about its matches. -/
structure Request where
  query : Query
  scoring : Bool
  includePayload : Bool
  startIndex : UInt64
  limit : UInt64
deriving Repr

/-- Why a JSON value is no request. -/
inductive RequestError where
  | malformed (fault : Json.Fault)
  | query (error : QueryError)
deriving DecidableEq, Repr

namespace Request

/-- The scored first page of a query. -/
def standard (query : Query) : Request where
  query := query
  scoring := true
  includePayload := false
  startIndex := 0
  limit := 10

/-- A request whose query is still in JSON. -/
structure Draft where
  query : Json
  scoring : Bool
  includePayload : Bool
  startIndex : UInt64
  limit : UInt64

/-- The fields of a request; its query must be there. -/
def draftShape : Json.Shape Draft where
  fields :=
    [("query", fun r v => return { r with query := ← v.whole }),
     ("scoring", fun r v => return { r with scoring := ← v.boolean }),
     ("includePayload", fun r v => return { r with includePayload := ← v.boolean }),
     ("startIndex", fun r v => return { r with startIndex := ← v.unsigned64 }),
     ("limit", fun r v => return { r with limit := ← v.unsigned64 })]
  required := ["query"]

/-- A request of which nothing is said. -/
def Draft.start : Draft := ⟨.null, true, false, 0, 10⟩

/-- The request that a value is, before its query is read. -/
def draftOfJson (value : Json) : Except Json.Fault Draft :=
  Json.readAs (Json.Source.record draftShape Draft.start) value

/-- The request that a value is. -/
def ofJson (context : Query.Context) (value : Json) : Except RequestError Request :=
  match draftOfJson value with
  | .error fault => .error (.malformed fault)
  | .ok draft =>
      match Query.ofJson context draft.query with
      | .error e => .error (.query e)
      | .ok query =>
          .ok ⟨query, draft.scoring, draft.includePayload, draft.startIndex, draft.limit⟩

end Request

end EventFinder
