import EventFinder.Proofs.Query.Ranges
import EventFinder.Proofs.Search.FreeText
import EventFinder.Proofs.Store.LiveEvents

/-!
# Finding events by parts of their texts

A text of three characters or more finds every live event of whose name, description or tags it is a part, whatever the
letter case (`partialText_finds`). Words do not matter for that, and so neither does where they begin and end, nor which
of them are too long: a part is made of neighbouring characters, and so are the grams of a text.

Letter case is that of single characters. A character and its lower case may take different numbers of characters, so
texts are compared character by character, each replaced by its lower case as a whole.
-/

set_option autoImplicit false

namespace EventFinder

open Analysis (Pipeline)

/-- A text is a part of another one, but for letter case: of neighbouring characters that have the same lower case, one
by one. -/
def IsPartOf (t v : String) : Prop := ∃ part, part <:+: v.toList ∧ part.map lowerChar = t.toList.map lowerChar

namespace Analysis

/-- What a gram looks like depends on the lower case of its characters alone. -/
theorem lowered_eq_of_map_eq {cs others : List Char} (h : cs.map lowerChar = others.map lowerChar) :
    lowered cs = lowered others := by
  rw [lowered, lowered, List.flatMap_def, List.flatMap_def, h]

/-- The grams of a part of a text are grams of the text. -/
theorem mem_terms_gram_of_isPartOf {t v g : String} (h : IsPartOf t v) (hg : g ∈ Pipeline.terms .gram t) :
    g ∈ Pipeline.terms .gram v := by
  obtain ⟨part, hpart, hsame⟩ := h
  obtain ⟨group, hgroup, hsize, rfl⟩ := Pipeline.mem_gram_terms_iff.1 hg
  -- The group stands in the part with other letters, at the same place.
  have hlower : group.map lowerChar <:+: part.map lowerChar := by
    rw [hsame]
    exact hgroup.map lowerChar
  obtain ⟨found, hfound, heq⟩ := List.infix_map_iff.1 hlower
  have hlength : group.length = found.length := by simpa using congrArg List.length heq
  rw [lowered_eq_of_map_eq heq]
  exact Pipeline.mem_gram_terms_iff.2 ⟨found, hfound.trans hpart, hlength ▸ hsize, rfl⟩

/-- A text of three characters or more has a gram. -/
theorem terms_gram_ne_nil {t : String} (h : 3 ≤ t.length) : Pipeline.terms .gram t ≠ [] := by
  intro hnil
  have hlength := Pipeline.length_terms_gram t
  rw [hnil, List.length_nil] at hlength
  omega

end Analysis

namespace Query

/-- A node for a text whose factor is a number is read as the query for this text, whatever the factor is. -/
theorem Node.IsOf.exists_freeText (context : Context) {value : Json} {node : Node} {t : String}
    (isOf : node.IsOf value (.leaf .freeText)) (text : node.get? "text" = some (.string t))
    (boost : (Check.number "boost").Met node) :
    ∃ factor, Query.ofJson context value = .ok ((freeText context.weights t).boosted factor) := by
  refine isOf.exists_factor ?_ boost
  rw [Node.leaf, Node.text_eq_of_get? text]
  rfl

end Query

namespace Session

/-- A text of three characters or more that is, but for letter case, a part of the name, the description or a tag of a
live event is read as a query that matches all records of the event, of which each has all grams of the text. So every
search for it counts the event, and shows it in an answer that is not cut off. -/
theorem partialText_finds (settings : Settings) {ops : List Operation} {event : Event} {payload : String}
    (live : IsLive ops event payload) (context : Query.Context) {value : Json} {node : Query.Node} {t : String}
    (isOf : node.IsOf value (.leaf .freeText)) (text : node.get? "text" = some (.string t))
    (boost : ∀ v, node.get? "boost" = some v → ∃ n, v = .number n) (three : 3 ≤ t.length)
    (partOf : ∃ v, (event.name = some v ∨ event.description = some v ∨ v ∈ event.tags) ∧ IsPartOf t v) :
    ∃ query plan, Query.ofJson context value = .ok query ∧ Snapshot.plan query = .ok plan ∧
      (shown settings ops).recordsOf event.identity = event.records payload ∧
      (∀ r ∈ event.records payload, plan.accepts r = true) ∧
      (Pipeline.terms .gram t ≠ [] ∧
        ∀ r ∈ event.records payload, ∀ g ∈ Pipeline.terms .gram t, .text g ∈ r.terms .combinedGrams) ∧
      ∀ request : Request, request.query = query →
        ∃ results, (shown settings ops).search request = .ok results ∧ 0 < results.totalMatches ∧
          (request.startIndex = 0 → results.totalMatches ≤ request.limit.toNat →
            event.identity ∈ results.results.map Result.identity) := by
  obtain ⟨factor, hread⟩ := isOf.exists_freeText context text boost
  obtain ⟨plan, hplan, haccepts⟩ := ((Query.finds_freeText context.weights t).boosted factor).exists_plan
  obtain ⟨v, hv, hpart⟩ := partOf
  have hcombined : ∀ r ∈ event.records payload, v ∈ r.combinedText := by
    intro r hr
    obtain ⟨occurrence, rfl⟩ := Event.exists_recordAt_of_mem_records hr
    rcases hv with hv | hv | hv <;> simp [Event.recordAt, Event.combinedText, hv]
  have hgrams : ∀ r ∈ event.records payload, ∀ g ∈ Pipeline.terms .gram t, .text g ∈ r.terms .combinedGrams := by
    intro r hr g hg
    exact mem_analyzedTerms_iff.2 ⟨v, hcombined r hr, Analysis.mem_terms_gram_of_isPartOf hpart hg⟩
  have hmatches : ∀ r ∈ event.records payload, plan.accepts r = true := by
    intro r hr
    -- One gram is enough.
    obtain ⟨g, hg⟩ := List.exists_mem_of_ne_nil _ (Analysis.terms_gram_ne_nil three)
    exact (haccepts r).2 (Or.inr ⟨v, hcombined r hr, g, hg, Analysis.mem_terms_gram_of_isPartOf hpart hg⟩)
  refine ⟨_, plan, hread, hplan, recordsOf_shown_of_isLive live, hmatches,
    ⟨Analysis.terms_gram_ne_nil three, hgrams⟩, ?_⟩
  intro request hquery
  rw [← hquery] at hplan
  exact search_shows_event live hmatches hplan

/-- An event with two shows, in whose name there is a word that is too long to be searched for. -/
def longNamedEvent : Event :=
  { Event.empty with
    identity := 7
    name := some "Rock & Rockabillymusicfestivalofthenorthernlakes"
    shows := [⟨.scheduled, 1, none⟩, ⟨.scheduled, 2, none⟩] }

/-- A text with a Kelvin sign that begins in one word and ends in the next one. -/
def acrossWords : String := "K & ROC\u212aABILLYMUSICFEST"

/-- A query for it, with a factor below zero. -/
def acrossWordsNode : Query.Node :=
  ⟨"Event Text",
    [("type", .string "Event Text"), ("text", .string acrossWords), ("boost", .number (.integer (-2)))]⟩

/-- The event is found by a part of its name that crosses a blank and an ampersand into an overlong word, and by no word
of this part. -/
theorem partialText_finds_across_words :
    IsLive [.putEvent longNamedEvent "7", .commit] longNamedEvent "7" ∧ 3 ≤ acrossWords.length ∧
      IsPartOf acrossWords "Rock & Rockabillymusicfestivalofthenorthernlakes" ∧
      ∃ query plan, Query.ofJson ⟨0, .standard⟩ (.object acrossWordsNode.members) = .ok query ∧
        Snapshot.plan query = .ok plan ∧
        ∀ r ∈ (shown .standard [.putEvent longNamedEvent "7", .commit]).recordsOf 7,
          plan.accepts r = true ∧ ¬ r.Shares .word acrossWords := by
  have live : IsLive [.putEvent longNamedEvent "7", .commit] longNamedEvent "7" := rfl
  have hnone : ∀ s ∈ Pipeline.terms .word acrossWords,
      s ∉ Pipeline.terms .word "Rock & Rockabillymusicfestivalofthenorthernlakes" := by decide +kernel
  have three : 3 ≤ acrossWords.length := by decide +kernel
  have partOf : IsPartOf acrossWords "Rock & Rockabillymusicfestivalofthenorthernlakes" :=
    ⟨"k & Rockabillymusicfest".toList, ⟨"Roc".toList, "ivalofthenorthernlakes".toList, by decide +kernel⟩,
      by decide +kernel⟩
  have isOf : acrossWordsNode.IsOf (.object acrossWordsNode.members) (.leaf .freeText) :=
    ⟨rfl, rfl, by decide +kernel⟩
  obtain ⟨query, plan, hread, hplan, hrecords, hmatches, -⟩ :=
    partialText_finds .standard live ⟨0, .standard⟩ isOf rfl (fun v hv => ⟨_, (Option.some.inj hv).symm⟩) three
      ⟨_, Or.inl rfl, partOf⟩
  refine ⟨live, three, partOf, query, plan, hread, hplan, fun r hr => ?_⟩
  have hr' : r ∈ longNamedEvent.records "7" := hrecords ▸ hr
  refine ⟨hmatches r hr', ?_⟩
  obtain ⟨occurrence, rfl⟩ := Event.exists_recordAt_of_mem_records hr'
  rintro ⟨v, hv, s, hs, hsv⟩
  rw [List.mem_singleton.1 hv] at hsv
  exact hnone s hs hsv

end Session

end EventFinder
