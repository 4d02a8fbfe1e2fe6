import EventFinder.Proofs.Analysis.LetterCase
import EventFinder.Proofs.Search.Factors
import EventFinder.Proofs.Search.FreeText

/-!
# Finding events in another letter case

Which tokens a text and its lower case share, and which events they find (`letterCase_keeps_matches`). A text with a
dotted capital I may have other words in lower case and find other events. Without one it may have other words, too, as
letters of another case may take more bytes or less, and so a run of letters may be a word in one case alone. But such a
run is long, so an event that has this word has some of the same grams, and grams are the same in both cases. Hence the
two texts find the same events.
-/

set_option autoImplicit false

namespace EventFinder

open Analysis (Pipeline)

namespace Record

open Analysis

variable {t : String} {r : Record}

/-- A word of a text that is no word in lower case, or the other way round, is not needed to find a record: the record
is found by a gram of this word. -/
theorem shares_gram_of_lowered {block : List Char} (h : 'İ' ∉ t.toList) (hblock : block ∈ blocks t.toList)
    (hlong : wordLimit ≤ byteLength block ∨ wordLimit ≤ byteLength (block.flatMap lowerChar)) {v : String}
    (hv : v ∈ r.texts) (hword : lowered block ∈ Pipeline.terms .word v) : r.Shares .gram t := by
  have hdotted := dotted_notMem_of_mem_blocks h hblock
  have hthree : 3 ≤ block.length := by
    rcases hlong with hlong | hlong
    · exact three_le_length_of_wordLimit_le hlong
    · have hlower := three_le_length_of_wordLimit_le hlong
      rwa [flatMap_lowerChar_eq_map hdotted, List.length_map] at hlower
  obtain ⟨s, hs, hsv⟩ := shares_gram_of_long hblock hdotted hthree hword
  exact ⟨v, hv, s, hs, hsv⟩

/-- Without a dotted capital I a text and its lower case share a word or a gram with the same records. -/
theorem shares_lowerCase_iff (h : 'İ' ∉ t.toList) :
    r.Shares .word (lowerCase t) ∨ r.Shares .gram (lowerCase t) ↔ r.Shares .word t ∨ r.Shares .gram t := by
  have hgrams : r.Shares .gram (lowerCase t) ↔ r.Shares .gram t := by
    rw [Record.Shares, Record.Shares, terms_gram_lowerCase h]
  rw [hgrams]
  -- A word of the one text is a word of the other one, or else its block is long in one case and a gram of it is shared.
  constructor
  · rintro (⟨v, hv, s, hs, hsv⟩ | hgram)
    · obtain ⟨block, hblock, -, rfl⟩ := (mem_terms_word_lowerCase_iff h).1 hs
      rcases Nat.lt_or_ge (byteLength block) wordLimit with hshort | hlong
      · exact Or.inl ⟨v, hv, _, mem_terms_word_iff.2 ⟨block, hblock, hshort, rfl⟩, hsv⟩
      · exact Or.inr (shares_gram_of_lowered h hblock (Or.inl hlong) hv hsv)
    · exact Or.inr hgram
  · rintro (⟨v, hv, s, hs, hsv⟩ | hgram)
    · obtain ⟨block, hblock, -, rfl⟩ := mem_terms_word_iff.1 hs
      rcases Nat.lt_or_ge (byteLength (block.flatMap lowerChar)) wordLimit with hshort | hlong
      · exact Or.inl ⟨v, hv, _, (mem_terms_word_lowerCase_iff h).2 ⟨block, hblock, hshort, rfl⟩, hsv⟩
      · exact Or.inr (shares_gram_of_lowered h hblock (Or.inr hlong) hv hsv)
    · exact Or.inr hgram

end Record

namespace Session

/-- In a store of events the query for a text finds the records that share a word or a gram with it. -/
theorem exists_plan_freeText (settings : Settings) {ops : List Operation} (projected : ∀ op ∈ ops, op.Projects)
    (weights : TextWeights) (t : String) :
    ∃ plan, Snapshot.plan (Query.freeText weights t) = .ok plan ∧
      ∀ r ∈ (shown settings ops).records, (plan.accepts r = true ↔ r.Shares .word t ∨ r.Shares .gram t) := by
  obtain ⟨plan, hplan, haccepts⟩ := (Query.finds_freeText weights t).exists_plan
  refine ⟨plan, hplan, fun r hr => ?_⟩
  have hcombined : r.combinedText = r.texts := projected_of_mem_shown projected hr
  rw [haccepts, Query.FoundByParts, hcombined, Record.Shares, Record.Shares]

/-- A text and its lower case have the same words if each run of letters and digits of the text is steady, and only
then; they have the same shingles if their words are the same, or if both have one word at most, and only then. Without
a dotted capital I they have the same grams, and in every store of events the queries for the two texts have the same
matches. -/
theorem letterCase_keeps_matches (t : String) :
    (Pipeline.terms .word (lowerCase t) = Pipeline.terms .word t ↔
      ∀ run ∈ Analysis.runs 0 t.toList, Analysis.Steady run.chars) ∧
    (Pipeline.terms .shingle (lowerCase t) = Pipeline.terms .shingle t ↔
      Pipeline.terms .word (lowerCase t) = Pipeline.terms .word t ∨
        (Pipeline.terms .word (lowerCase t)).length ≤ 1 ∧ (Pipeline.terms .word t).length ≤ 1) ∧
    ('İ' ∉ t.toList →
      Pipeline.terms .gram (lowerCase t) = Pipeline.terms .gram t ∧
      ∀ (settings : Settings) (ops : List Operation), (∀ op ∈ ops, op.Projects) → ∀ context : Query.Context,
        ∃ query query', Query.ofJson context (Query.freeTextJson (lowerCase t)) = .ok query ∧
          Query.ofJson context (Query.freeTextJson t) = .ok query' ∧
          ∀ request request' : Request, request.query = query → request'.query = query' →
            ∃ results results', (shown settings ops).search request = .ok results ∧
              (shown settings ops).search request' = .ok results' ∧
              Results.SameMatches request request' results results') := by
  refine ⟨Analysis.terms_word_lowerCase_iff t, Pipeline.terms_shingle_eq_iff _ _, fun hdotted =>
    ⟨Analysis.terms_gram_lowerCase hdotted, ?_⟩⟩
  intro settings ops projected context
  refine ⟨_, _, Query.ofJson_freeTextJson context _, Query.ofJson_freeTextJson context _, ?_⟩
  intro request request' hquery hquery'
  obtain ⟨plan, hplan, haccepts⟩ := exists_plan_freeText settings projected context.weights (lowerCase t)
  obtain ⟨plan', hplan', haccepts'⟩ := exists_plan_freeText settings projected context.weights t
  rw [← hquery] at hplan
  rw [← hquery'] at hplan'
  refine ⟨_, _, Snapshot.search_of_plan hplan _, Snapshot.search_of_plan hplan' _, Results.sameMatches_ofHits ?_ _ _⟩
  -- Only the live records count, and these are made from events.
  apply Snapshot.map_identity_hits_congr_on
  intro r hr
  rw [Bool.eq_iff_iff, haccepts r hr, haccepts' r hr, Record.shares_lowerCase_iff hdotted]

/-- Fourteen Kelvin signs, which take 42 bytes. In lower case they are letters of one byte each. -/
def kelvinSigns : String := String.ofList (List.replicate 14 '\u212a')

/-- In lower case a dotted capital I cuts its word in two, and a run of 42 bytes becomes a word. -/
theorem words_of_lowerCase_differ :
    Pipeline.terms .word (lowerCase ("İstanbul " ++ kelvinSigns)) ≠ Pipeline.terms .word ("İstanbul " ++ kelvinSigns) ∧
    Pipeline.terms .word ("İstanbul " ++ kelvinSigns) = ["i\u0307stanbul"] ∧
    Pipeline.terms .word (lowerCase ("İstanbul " ++ kelvinSigns)) = ["i", "stanbul", "kkkkkkkkkkkkkk"] := by
  decide +kernel

/-- An event with a tag of fourteen letters. -/
def taggedEvent : List Operation :=
  [.putEvent { Event.empty with identity := 7, tags := ["kkkkkkkkkkkkkk"] } "7", .commit]

/-- Kelvin signs are no word, but they find an event by their grams, as the word does that they are in lower case. -/
theorem letterCase_keeps_matches_kelvin :
    'İ' ∉ kelvinSigns.toList ∧ (∀ op ∈ taggedEvent, op.Projects) ∧
      Pipeline.terms .word (lowerCase kelvinSigns) ≠ Pipeline.terms .word kelvinSigns ∧
      ∃ query, Query.ofJson ⟨0, .standard⟩ (Query.freeTextJson kelvinSigns) = .ok query ∧
        ∃ results, (shown .standard taggedEvent).search (.standard query) = .ok results ∧
          results.totalMatches = 1 := by
  have hdotted : 'İ' ∉ kelvinSigns.toList := by decide +kernel
  have projected : ∀ op ∈ taggedEvent, op.Projects := by
    intro op hop
    rcases List.mem_cons.1 hop with rfl | hop
    · exact trivial
    · rw [List.mem_singleton.1 hop]
      exact trivial
  obtain ⟨hwords, -, hmatches⟩ := letterCase_keeps_matches kelvinSigns
  obtain ⟨-, hsearch⟩ := hmatches hdotted
  obtain ⟨query, query', hread, hread', hsame⟩ := hsearch .standard taggedEvent projected ⟨0, .standard⟩
  obtain ⟨results, results', hresults, hresults', hcount, -⟩ :=
    hsame (.standard query) (.standard query') rfl rfl
  refine ⟨hdotted, projected, fun heq => ?_, query', hread', results', hresults', ?_⟩
  · -- The run of Kelvin signs is overlong, and in lower case it is not.
    have hunsteady : ¬ ∀ run ∈ Analysis.runs 0 kelvinSigns.toList, Analysis.Steady run.chars := by decide +kernel
    exact hunsteady (hwords.1 heq)
  · have hlower : ((shown .standard taggedEvent).search
        (.standard (Query.freeText .standard (lowerCase kelvinSigns)))).toOption.map Results.totalMatches = some 1 := by
      decide +kernel
    rw [Query.ofJson_freeTextJson, Except.ok.injEq] at hread
    rw [hread, hresults] at hlower
    rw [← hcount]
    exact Option.some.inj hlower

end Session

end EventFinder
