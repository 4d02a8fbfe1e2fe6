import EventFinder.Field
import EventFinder.Query

/-!
# Free text

The query for a text as people type it. A record matches by any word of the text in its name, its
description or its tags, by any two or three words of the text that stand together in a tag, and by any
three to five characters of the text. How much each way counts is set by weights; the best way decides
the score.
-/

set_option autoImplicit false

namespace EventFinder

/-- How much the ways to match a text count. -/
structure TextWeights where
  name : Binary32
  description : Binary32
  tag : Binary32
  grams : Binary32
  tieBreaker : Binary32
deriving DecidableEq, Repr

/-- The name counts most and parts of words little; only the best way counts. -/
def TextWeights.standard : TextWeights where
  name := .ofInt 3
  description := .ofInt 1
  tag := .ofInt 2
  grams := .ofRatio false 1 10
  tieBreaker := .zero

namespace Query

/-- Each of some values in a field. -/
def anyValue (field : Field) (values : List String) (weight : Binary32) : List Query :=
  values.map fun value => (term field.label value).boosted weight

/-- Each of some words in a field and, if there are at least two, all of them. -/
def wordsOrAll (field : Field) (words : List String) (weight : Binary32) : List Query :=
  anyValue field words weight ++
    if 2 ≤ words.length then [(allTerms field.label words).boosted weight] else []

/-- The ways to match a text. -/
def freeTextDisjuncts (weights : TextWeights) (text : String) : List Query :=
  let words := Analysis.Pipeline.terms .word text
  anyValue .tag (words ++ Analysis.Pipeline.terms .shingle text) weights.tag ++
    wordsOrAll .name words weights.name ++
    wordsOrAll .description words weights.description ++
    anyValue .combinedGrams (Analysis.Pipeline.terms .gram text) weights.grams

/-- The query for a text. -/
def freeText (weights : TextWeights) (text : String) : Query :=
  disjunctionMax (freeTextDisjuncts weights text) weights.tieBreaker

end Query

end EventFinder
