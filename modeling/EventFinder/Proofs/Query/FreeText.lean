import EventFinder.Proofs.Analysis.Tokens
import EventFinder.Proofs.Number.Order
import EventFinder.Query.FreeText

/-!
# The ways to match a text

A query for a text is a disjunction of what it looks for, field by field, each with the weight of its field
(`freeText_disjuncts`). In tags it looks for the tokens that a tag of this text would have, in another order: for all
words first, and then for all shingles.

How many ways there are depends on two numbers alone, that of the words and that of the characters of the text. So
there is none if the text has no word and less than three characters.
-/

set_option autoImplicit false

namespace EventFinder

namespace Query

open Analysis (Pipeline)

/-! ## Weights -/

/-- The query with its weight around it, unless the weight is one. -/
def weighted (weight : Binary32) (query : Query) : Query := if weight = .one then query else boost query weight

/-- A weight has the value one if it is one: there is no other encoding of this value. -/
theorem same_one_iff (weight : Binary32) : weight.same .one = true ↔ weight = .one := by
  constructor
  · intro hsame
    simp only [Binary.same, Bool.and_eq_true, decide_eq_true_eq] at hsame
    exact Binary.eq_of_numericKey_eq (by decide +kernel) hsame.2
  · rintro rfl
    decide +kernel

theorem boosted_eq_weighted (query : Query) (weight : Binary32) : query.boosted weight = weighted weight query := by
  simp only [boosted, weighted, same_one_iff]

/-! ## The ways to match -/

theorem anyValue_eq (field : Field) (values : List String) (weight : Binary32) :
    anyValue field values weight = values.map fun value => weighted weight (term field.label value) :=
  List.map_congr_left fun _ _ => boosted_eq_weighted _ weight

theorem wordsOrAll_eq (field : Field) (words : List String) (weight : Binary32) :
    wordsOrAll field words weight =
      (words.map fun word => weighted weight (term field.label word)) ++
        if 2 ≤ words.length then [weighted weight (allTerms field.label words)] else [] := by
  rw [wordsOrAll, anyValue_eq, boosted_eq_weighted]

theorem length_anyValue (field : Field) (values : List String) (weight : Binary32) :
    (anyValue field values weight).length = values.length := List.length_map _

theorem length_wordsOrAll (field : Field) (words : List String) (weight : Binary32) :
    (wordsOrAll field words weight).length = words.length + if 2 ≤ words.length then 1 else 0 := by
  rw [wordsOrAll, List.length_append, length_anyValue]
  split <;> rfl

/-- The query for a text looks in tags for each token that a tag of this text has, in the name and the description for
each word, in order, and for all words if there are at least two, and among parts of words for each gram, in order,
each with the weight of its field, and for nothing else. How many ways that gives is a matter of how many words and how
many characters there are; there is none if there is no word and there are less than three characters. -/
theorem freeText_disjuncts (weights : TextWeights) (text : String) :
    ∃ (words : List String) (tags names descriptions parts : List Query),
      words = Pipeline.terms .word text ∧
      freeText weights text = .disjunctionMax (tags ++ names ++ descriptions ++ parts) weights.tieBreaker ∧
      tags.Perm ((Pipeline.terms .tag text).map fun token => weighted weights.tag (.term "tag" token)) ∧
      names = (words.map fun word => weighted weights.name (.term "name" word)) ++
        (if 2 ≤ words.length then [weighted weights.name (.allTerms "name" words)] else []) ∧
      descriptions = (words.map fun word => weighted weights.description (.term "description" word)) ++
        (if 2 ≤ words.length then [weighted weights.description (.allTerms "description" words)] else []) ∧
      parts = ((Pipeline.terms .gram text).map fun gram => weighted weights.grams (.term "combined_ngrams" gram)) ∧
      tags.length = words.length + (words.length - 1) + (words.length - 2) ∧
      names.length = words.length + (if 2 ≤ words.length then 1 else 0) ∧
      descriptions.length = words.length + (if 2 ≤ words.length then 1 else 0) ∧
      parts.length = (text.length - 2) + (text.length - 3) + (text.length - 4) ∧
      (tags ++ names ++ descriptions ++ parts = [] ↔ words = [] ∧ text.length < 3) := by
  have htags : (anyValue .tag (Pipeline.terms .word text ++ Pipeline.terms .shingle text) weights.tag).length =
      (Pipeline.terms .word text).length + ((Pipeline.terms .word text).length - 1) +
        ((Pipeline.terms .word text).length - 2) := by
    rw [length_anyValue, List.length_append, Pipeline.length_terms_shingle, Nat.add_assoc]
  have hparts : (anyValue .combinedGrams (Pipeline.terms .gram text) weights.grams).length =
      (text.length - 2) + (text.length - 3) + (text.length - 4) := by
    rw [length_anyValue, Pipeline.length_terms_gram]
  refine ⟨_, _, _, _, _, rfl, rfl, ?_, wordsOrAll_eq .name _ _, wordsOrAll_eq .description _ _,
    anyValue_eq .combinedGrams _ _, htags, length_wordsOrAll _ _ _, length_wordsOrAll _ _ _, hparts, ?_⟩
  · rw [anyValue_eq]
    exact (Pipeline.perm_terms_tag text).symm.map _
  · -- A disjunction is empty if it has no member, and of words there is at least one way for each.
    rw [← List.length_eq_zero_iff, ← List.length_eq_zero_iff, List.length_append, List.length_append,
      List.length_append, htags, length_wordsOrAll, length_wordsOrAll, hparts]
    split <;> omega

end Query

end EventFinder
