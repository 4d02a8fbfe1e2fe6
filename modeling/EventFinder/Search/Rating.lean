import EventFinder.Index
import EventFinder.Number.Elementary
import EventFinder.Query.Plan

/-!
# Scores

How well a document matches a plan. A term counts the more the rarer it is among all documents, the
more often it occurs in the field of the document, and the shorter that field is. What depends on the
index alone is a `Rating`, made once for each term of a plan; `Plan.score` gives the score of a
document, or none if it does not match. All arithmetic is on 32-bit binary numbers.
-/

set_option autoImplicit false

namespace EventFinder

/-- What a term counts for: its weight by rarity, and the average length of its field. -/
structure Rating where
  weight : Binary32
  averageLength : Binary32
deriving DecidableEq, Repr

/-! ## Lengths of fields -/

/-- Lengths up to this one are kept as they are. -/
def exactLengths : Nat := 24

/-- The length of a field as it is kept: from `exactLengths` on in steps of which each size comes eight
times, the next one being twice as large. -/
def keptLength (n : Nat) : Nat :=
  if n < exactLengths then n
  else
    let extra := n - exactLengths
    let step := twoPow (extra.log2 - 3)
    exactLengths + extra / step * step

/-! ## Ratings -/

namespace Rating

/-- How fast further occurrences of a term lose weight. -/
def saturation : Binary32 := .ofRatio false 6 5

/-- How much the length of a field counts. -/
def lengthShare : Binary32 := .ofRatio false 3 4

/-- The weight of a term that so many of `total` documents hold. -/
def weightOf (total holding : Nat) : Binary32 :=
  let half : Binary32 := .ofRatio false 1 2
  let odds := (Binary.ofInt (total - holding : Nat) + half) / (Binary.ofInt holding + half)
  Binary.ln (.one + odds) * (.one + saturation)

/-- The rating of a term among documents. -/
def ofDocuments (documents : List Document) (field : Field) (term : Term) : Rating where
  weight := weightOf documents.length
    (documents.countP fun d => decide (term ∈ d.terms field))
  averageLength :=
    Binary.ofInt (documents.flatMap fun d => d.terms field).length
      / Binary.ofInt documents.length

/-- The score of a term that occurs so often in a field of so many terms. -/
def score (rating : Rating) (boost : Binary32) (occurrences length : Nat) : Binary32 :=
  let count : Binary32 := .ofInt occurrences
  let relative := lengthShare * Binary.ofInt (keptLength length) / rating.averageLength
  let damping := saturation * (.one - lengthShare + relative)
  rating.weight * boost * (count / (count + damping))

end Rating

/-! ## Scores -/

/-- The sum of scores; of a single one that score as it is. -/
def totalScore : List Binary32 → Binary32
  | [] => .zero
  | [x] => x
  | xs => xs.foldl (· + ·) .zero

/-- Scores in the order in which alternatives are added up, which shows in the last digit of the sum: the
first one, and then from the last one back. -/
def additionOrder : List Binary32 → List Binary32
  | [] => []
  | x :: xs => x :: xs.reverse

/-- The score of the best of some ways to match, and of the others so much as `tieBreaker` says; of a
single way the score as it is. -/
def bestScore (tieBreaker : Binary32) (ways : List (Option Binary32)) : Option Binary32 :=
  match ways with
  | [way] => way
  | ways =>
      let scores := additionOrder (ways.filterMap id)
      if scores.isEmpty then none
      else
        let best := scores.foldl Binary.max .zero
        some (best + (scores.foldl (· + ·) .zero - best) * tieBreaker)

/-- The scores of the clauses that take one part and match. -/
def Occur.scoresOf (occur : Occur) (clauses : List (Occur × Option Binary32)) : List Binary32 :=
  clauses.filterMap fun c => if c.1 = occur then c.2 else none

/-- The score of a boolean query, given those of its clauses: all that must match, and those that should
and do. -/
def Occur.combine (clauses : List (Occur × Option Binary32)) : Option Binary32 :=
  if Occur.accept (clauses.map fun c => (c.1, c.2.isSome)) then
    let must := Occur.must.scoresOf clauses
    let should := totalScore (additionOrder (Occur.should.scoresOf clauses))
    some (if must.isEmpty then should
      else if (Occur.should.scoresOf clauses).isEmpty then totalScore must
      else totalScore must + should)
  else none

/-- How often an occurrence of a term counts: in texts that are cut into tokens each time, elsewhere
once. -/
def Document.occurrences (d : Document) (field : Field) (term : Term) : Nat :=
  match field.kind with
  | .analyzed _ => (d.terms field).count term
  | _ => 1

namespace Plan

mutual

/-- The score of a document, multiplied by `boost`, if it matches. -/
def score (plan : Plan Rating) (boost : Binary32) (d : Document) : Option Binary32 :=
  match plan with
  | boolean clauses => Occur.combine (clauseScores clauses boost d)
  | matchAll => some (boost * .zero)
  | term field t rating =>
      if t ∈ d.terms field then
        some (rating.score boost (d.occurrences field t) (d.terms field).length)
      else none
  | range field numbers => if (d.terms field).any numbers.contains then some boost else none
  | disjunctionMax disjuncts tieBreaker => bestScore tieBreaker (scores disjuncts boost d)
  | .boost plan factor => plan.score (boost * factor) d

/-- The scores of a document by some plans. -/
def scores (plans : List (Plan Rating)) (boost : Binary32) (d : Document) :
    List (Option Binary32) :=
  match plans with
  | [] => []
  | plan :: rest => plan.score boost d :: scores rest boost d

/-- The scores of a document by clauses. -/
def clauseScores (clauses : List (Occur × Plan Rating)) (boost : Binary32) (d : Document) :
    List (Occur × Option Binary32) :=
  match clauses with
  | [] => []
  | (occur, plan) :: rest => (occur, plan.score boost d) :: clauseScores rest boost d

end

end Plan

/-- The plan with its terms rated for a snapshot. -/
def Snapshot.rate (s : Snapshot) (plan : Plan Unit) : Plan Rating :=
  plan.annotate (Rating.ofDocuments s.documents)

example : (List.range 60).map keptLength =
    List.range 40 ++ [40, 40, 42, 42, 44, 44, 46, 46, 48, 48, 50, 50, 52, 52, 54, 54, 56, 56, 56, 56] := by
  decide +kernel

end EventFinder
