import EventFinder.Number.Arithmetic

/-!
# Ranking

Hits are single records that match. Of each identity the best hit counts: hits are collected segment by
segment and then over all segments, and a later hit takes the place of an earlier one only if its score
is higher. The best hits are ranked by score, highest first, and then by identity, lowest first; a page
is a window of that ranking.
-/

set_option autoImplicit false

namespace EventFinder

/-- A matching record. -/
structure Hit where
  identity : UInt64
  score : Binary32
  payload : String
deriving DecidableEq, Repr

namespace Hit

/-- The hit that is kept of two of one identity, the first one having been found first. -/
def better (held candidate : Hit) : Hit := if held.score.lt candidate.score then candidate else held

/-- The best hits, of which no two have one identity, after a further hit. -/
def keepBest (best : List Hit) (candidate : Hit) : List Hit :=
  match best with
  | [] => [candidate]
  | held :: rest =>
      if held.identity = candidate.identity then held.better candidate :: rest
      else held :: keepBest rest candidate

/-- The best hit of each identity. -/
def bestOf (hits : List Hit) : List Hit := hits.foldl keepBest []

/-- The best hit of each identity over all segments. -/
def bestOfSegments (segments : List (List Hit)) : List Hit := bestOf (segments.flatMap bestOf)

/-- Does the first hit rank before the second, or level with it? -/
def ranksBefore (a b : Hit) : Bool :=
  decide (b.score.totalKey < a.score.totalKey) ||
    decide (a.score.totalKey = b.score.totalKey) && decide (a.identity ≤ b.identity)

/-- The ranking of the hits of some segments. -/
def ranking (segments : List (List Hit)) : List Hit :=
  (bestOfSegments segments).mergeSort ranksBefore

/-- A window of a ranking. -/
def page (start limit : Nat) (ranked : List Hit) : List Hit := (ranked.drop start).take limit

end Hit

end EventFinder
