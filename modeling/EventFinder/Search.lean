import EventFinder.Search.Ranking
import EventFinder.Search.Rating
import EventFinder.Search.Request

/-!
# Searching

`Snapshot.search` answers a request: it resolves the query, finds the live records that match, and
gives the number of their identities and the requested window of their ranking.
-/

set_option autoImplicit false

namespace EventFinder

/-- Why a search has no answer: its query does not fit the fields, or looks for terms in a field whose
values are only stored. -/
inductive SearchError where
  | query (error : QueryError)
  | notSearchable (field : Field)
deriving DecidableEq, Repr

/-- One identity of an answer. -/
structure Result where
  identity : UInt64
  score : Binary32
  payload : Option String
deriving DecidableEq, Repr

/-- The answer to a request: how many identities match in all, and those of the window. -/
structure Results where
  totalMatches : Nat
  results : List Result
deriving DecidableEq, Repr

namespace Field

/-- Are the values of a field only stored? -/
def isStored (field : Field) : Bool := decide (field.kind = .stored)

end Field

namespace Hit

/-- The hit that a document is, if it matches. -/
def ofDocument? (rated : Plan Rating) (d : Document) : Option Hit :=
  (rated.score .one d).map fun score => ⟨d.record.identity, score, d.record.payload⟩

/-- The hit as it counts when scores are wanted, or when they are not. -/
def counted (scoring : Bool) (hit : Hit) : Hit :=
  { hit with score := if scoring then hit.score else .zero }

/-- The result of an identity whose best hit this is. -/
def result (includePayload : Bool) (hit : Hit) : Result :=
  ⟨hit.identity, hit.score, if includePayload then some hit.payload else none⟩

end Hit

/-- The answer that the hits of some segments give to a request. -/
def Results.ofHits (request : Request) (segments : List (List Hit)) : Results :=
  let ranked := Hit.ranking (segments.map fun hits => hits.map (Hit.counted request.scoring))
  let window := Hit.page request.startIndex.toNat request.limit.toNat ranked
  { totalMatches := ranked.length
    results := window.map (Hit.result request.includePayload) }

namespace Snapshot

/-- The live records that match, segment by segment, with their scores. -/
def hits (s : Snapshot) (plan : Plan Unit) : List (List Hit) :=
  let rated := s.rate plan
  s.segments.map fun segment => segment.live.filterMap (Hit.ofDocument? rated)

/-- The plan of a query that can be run. -/
def plan (query : Query) : Except SearchError (Plan Unit) :=
  match query.resolve with
  | .error e => .error (.query e)
  | .ok plan =>
      match plan.termFields.find? Field.isStored with
      | some field => .error (.notSearchable field)
      | none => .ok plan

/-- The answer to a request. -/
def search (s : Snapshot) (request : Request) : Except SearchError Results := do
  let plan ← plan request.query
  return Results.ofHits request (s.hits plan)

end Snapshot

end EventFinder
