import EventFinder.Proofs.Analysis.Tokens
import EventFinder.Proofs.Query.Reading
import EventFinder.Proofs.Search.Hits
import EventFinder.Proofs.Store.History
import EventFinder.Query.Language

/-!
# Finding events by text

The query for a text finds the records that share a word with it or, in what is searched for parts of words,
a gram (`finds_freeText`). That two or three words stand together in a tag, or all in one field, adds to
scores and not to what is found.

What is searched for parts of words are the texts of the record, provided it was made from an event
(`Record.Projected`), which all records of a store are unless others are put into it by hand
(`projected_of_mem_shown`). In such a store a text finds the live records of which it shares a word or a
gram with the name, the description or a tag (`freeText_finds_shared`).
-/

set_option autoImplicit false

namespace EventFinder

namespace Record

/-- The texts that a record is found by: the name, the description and each tag. -/
def texts (r : Record) : List String := r.name.toList ++ r.description.toList ++ r.tags

/-- The record is searched for parts of words in its texts, each by itself. -/
def Projected (r : Record) : Prop := r.combinedText = r.texts

/-- Some of the texts has a token in common with `t`. -/
def Shares (pipeline : Analysis.Pipeline) (t : String) (r : Record) : Prop :=
  ∃ v ∈ r.texts, ∃ s ∈ pipeline.terms t, s ∈ pipeline.terms v

end Record

theorem mem_analyzedTerms_iff {pipeline : Analysis.Pipeline} {values : List String} {s : String} :
    Term.text s ∈ analyzedTerms pipeline values ↔ ∃ v ∈ values, s ∈ pipeline.terms v := by
  simp [analyzedTerms]

namespace Query

open Analysis (Pipeline)

/-! ## What is found -/

/-- The query for a text without what adds to scores alone. -/
def freeTextByParts (weights : TextWeights) (text : String) : Query :=
  disjunctionMax
    (anyValue .tag (Pipeline.terms .word text) weights.tag ++
      anyValue .name (Pipeline.terms .word text) weights.name ++
      anyValue .description (Pipeline.terms .word text) weights.description ++
      anyValue .combinedGrams (Pipeline.terms .gram text) weights.grams)
    weights.tieBreaker

/-- A word of the text is one of the name, the description or a tag, or a gram of it is one of what is
searched for parts of words. -/
def FoundByParts (text : String) (r : Record) : Prop :=
  Record.Shares .word text r ∨
    ∃ v ∈ r.combinedText, ∃ s ∈ Pipeline.terms .gram text, s ∈ Pipeline.terms .gram v

section Fields

variable (field : Field) (h : field.holdsTexts = true)
include h

/-- Each of some values finds the records that have one of them. -/
theorem findAny_anyValue (values : List String) (weight : Binary32) :
    FindAny (anyValue field values weight) fun r => ∃ s ∈ values, .text s ∈ r.terms field :=
  findAny_map (fun value => (finds_term h value).boosted weight) values

/-- Looking for all words as well finds no more. -/
theorem findAny_wordsOrAll (values : List String) (weight : Binary32) :
    FindAny (wordsOrAll field values weight) fun r => ∃ s ∈ values, .text s ∈ r.terms field := by
  rw [wordsOrAll]
  split
  · have hall := findAny_cons ((finds_allTerms h values).boosted weight) findAny_nil
    apply (findAny_append (findAny_anyValue field h values weight) hall).congr
    intro r
    constructor
    · rintro (hany | ⟨hne, hevery⟩ | hfalse)
      · exact hany
      · -- All of them is one of them, since there are some.
        obtain ⟨s, hs⟩ := List.exists_mem_of_ne_nil values hne
        exact ⟨s, hs, hevery s hs⟩
      · cases hfalse
    · exact Or.inl
  · rw [List.append_nil]
    exact findAny_anyValue field h values weight

end Fields

/-- A word of the text is a term of the record in its name, its description or its tags. -/
theorem shares_word_iff {text : String} {r : Record} :
    r.Shares .word text ↔
      ((∃ s ∈ Pipeline.terms .word text, .text s ∈ r.terms .tag) ∨
        ∃ s ∈ Pipeline.terms .word text, .text s ∈ r.terms .name) ∨
        ∃ s ∈ Pipeline.terms .word text, .text s ∈ r.terms .description := by
  constructor
  · rintro ⟨v, hv, s, hs, hword⟩
    rw [Record.texts, List.mem_append, List.mem_append] at hv
    rcases hv with (hv | hv) | hv
    · exact Or.inl (Or.inr ⟨s, hs, mem_analyzedTerms_iff.2 ⟨v, hv, hword⟩⟩)
    · exact Or.inr ⟨s, hs, mem_analyzedTerms_iff.2 ⟨v, hv, hword⟩⟩
    · refine Or.inl (Or.inl ⟨s, hs, mem_analyzedTerms_iff.2 ⟨v, hv, ?_⟩⟩)
      exact (Pipeline.mem_tag_terms_iff_of_mem_word hs).2 hword
  · rintro ((⟨s, hs, hterm⟩ | ⟨s, hs, hterm⟩) | ⟨s, hs, hterm⟩)
    · obtain ⟨v, hv, htag⟩ := mem_analyzedTerms_iff.1 hterm
      exact ⟨v, List.mem_append_right _ hv, s, hs, (Pipeline.mem_tag_terms_iff_of_mem_word hs).1 htag⟩
    · obtain ⟨v, hv, hword⟩ := mem_analyzedTerms_iff.1 hterm
      exact ⟨v, List.mem_append_left _ (List.mem_append_left _ hv), s, hs, hword⟩
    · obtain ⟨v, hv, hword⟩ := mem_analyzedTerms_iff.1 hterm
      exact ⟨v, List.mem_append_left _ (List.mem_append_right _ hv), s, hs, hword⟩

/-- A tag that has a shingle of the text has its first word. -/
theorem exists_mem_tag_iff {text : String} {r : Record} :
    (∃ s ∈ Pipeline.terms .word text ++ Pipeline.terms .shingle text, .text s ∈ r.terms .tag) ↔
      ∃ s ∈ Pipeline.terms .word text, .text s ∈ r.terms .tag := by
  constructor
  · rintro ⟨s, hs, hterm⟩
    rcases List.mem_append.1 hs with hs | hs
    · exact ⟨s, hs, hterm⟩
    · -- A shingle that the tag has begins with a word that the tag has.
      obtain ⟨v, hv, htag⟩ := mem_analyzedTerms_iff.1 hterm
      obtain ⟨w, hw, hwv⟩ := Pipeline.exists_word_of_mem_tag hs htag
      refine ⟨w, hw, mem_analyzedTerms_iff.2 ⟨v, hv, ?_⟩⟩
      exact (Pipeline.mem_tag_terms_iff_of_mem_word hw).2 hwv
  · rintro ⟨s, hs, hterm⟩
    exact ⟨s, List.mem_append_left _ hs, hterm⟩

theorem exists_mem_grams_iff {text : String} {r : Record} :
    (∃ s ∈ Pipeline.terms .gram text, .text s ∈ r.terms .combinedGrams) ↔
      ∃ v ∈ r.combinedText, ∃ s ∈ Pipeline.terms .gram text, s ∈ Pipeline.terms .gram v := by
  constructor
  · rintro ⟨s, hs, hterm⟩
    obtain ⟨v, hv, hgram⟩ := mem_analyzedTerms_iff.1 hterm
    exact ⟨v, hv, s, hs, hgram⟩
  · rintro ⟨v, hv, s, hs, hgram⟩
    exact ⟨s, hs, mem_analyzedTerms_iff.2 ⟨v, hv, hgram⟩⟩

/-- Alternatives that look for the words in the three fields and for the grams. -/
theorem finds_parts {tags names descriptions grams : List Query} {text : String}
    (htags : FindAny tags fun r => ∃ s ∈ Pipeline.terms .word text, .text s ∈ r.terms .tag)
    (hnames : FindAny names fun r => ∃ s ∈ Pipeline.terms .word text, .text s ∈ r.terms .name)
    (hdescriptions : FindAny descriptions fun r =>
      ∃ s ∈ Pipeline.terms .word text, .text s ∈ r.terms .description)
    (hgrams : FindAny grams fun r => ∃ s ∈ Pipeline.terms .gram text, .text s ∈ r.terms .combinedGrams)
    (tieBreaker : Binary32) :
    (disjunctionMax (tags ++ names ++ descriptions ++ grams) tieBreaker).Finds (FoundByParts text) := by
  have hall := findAny_append (findAny_append (findAny_append htags hnames) hdescriptions) hgrams
  refine finds_disjunctionMax (hall.congr fun r => ?_) tieBreaker
  rw [FoundByParts, shares_word_iff, exists_mem_grams_iff]

/-- The query for a text finds what shares a word or a gram with it. -/
theorem finds_freeText (weights : TextWeights) (text : String) :
    (freeText weights text).Finds (FoundByParts text) := by
  have htags := findAny_anyValue .tag rfl
    (Pipeline.terms .word text ++ Pipeline.terms .shingle text) weights.tag
  exact finds_parts (htags.congr fun r => exists_mem_tag_iff)
    (findAny_wordsOrAll .name rfl (Pipeline.terms .word text) weights.name)
    (findAny_wordsOrAll .description rfl (Pipeline.terms .word text) weights.description)
    (findAny_anyValue .combinedGrams rfl (Pipeline.terms .gram text) weights.grams) weights.tieBreaker

/-- Without shingles and without looking for all words the same is found. -/
theorem finds_freeTextByParts (weights : TextWeights) (text : String) :
    (freeTextByParts weights text).Finds (FoundByParts text) :=
  finds_parts (findAny_anyValue .tag rfl (Pipeline.terms .word text) weights.tag)
    (findAny_anyValue .name rfl (Pipeline.terms .word text) weights.name)
    (findAny_anyValue .description rfl (Pipeline.terms .word text) weights.description)
    (findAny_anyValue .combinedGrams rfl (Pipeline.terms .gram text) weights.grams) weights.tieBreaker

/-! ## How the query is written

Free texts are a kind of node that contains no others, so reading one is reading its member `text`. -/

/-- The query for a text in JSON. -/
def freeTextJson (text : String) : Json := .object [("type", .string "event text"), ("text", .string text)]

theorem ofJson_freeTextJson (context : Context) (text : String) :
    ofJson context (freeTextJson text) = .ok (freeText context.weights text) := by
  have htype : lowerCase "event text" = "event text" := by decide +kernel
  have hkind : (Node.mk "event text" [("type", .string "event text"), ("text", .string text)]).kind? =
      some (.leaf .freeText) := by
    rw [Node.kind?, htype]
    rfl
  rw [freeTextJson, ofJson_of_node rfl, hkind]
  rfl

end Query

/-! ## Stores of events

Every live record was written by some operation, and what an operation writes is made from events but for
records that are put into the store by hand. -/

namespace Record

/-- Records made from an event are searched for parts of words in the texts of the event. -/
theorem projected_of_mem_records {e : Event} {payload : String} {r : Record}
    (h : r ∈ e.records payload) : r.Projected := by
  obtain ⟨occurrence, rfl⟩ := Event.exists_recordAt_of_mem_records h
  rfl

/-- A text that some pipeline finds a token in is shared with itself, by a word or by a gram. -/
theorem shares_self {t : String} {r : Record} (ht : t ∈ r.texts)
    (htoken : ∃ pipeline : Analysis.Pipeline, pipeline.terms t ≠ []) :
    r.Shares .word t ∨ r.Shares .gram t := by
  have hword : (∃ s, s ∈ Analysis.Pipeline.terms .word t) → r.Shares .word t :=
    fun ⟨s, hs⟩ => ⟨t, ht, s, hs, hs⟩
  obtain ⟨pipeline, hne⟩ := htoken
  obtain ⟨s, hs⟩ := List.exists_mem_of_ne_nil _ hne
  cases pipeline with
  | word => exact Or.inl (hword ⟨s, hs⟩)
  | shingle => exact Or.inl (hword (Analysis.Pipeline.exists_word_of_mem_shingle hs))
  | tag =>
      rcases Analysis.Pipeline.mem_tag_terms_iff.1 hs with hs | hs
      · exact Or.inl (hword ⟨s, hs⟩)
      · exact Or.inl (hword (Analysis.Pipeline.exists_word_of_mem_shingle hs))
  | gram => exact Or.inr ⟨t, ht, s, hs, hs⟩

end Record

namespace Operation

/-- Records that are put into the store by hand are searched for parts of words in their texts. All other
operations make their records from events. -/
def Projects : Operation → Prop
  | put _ records => ∀ r ∈ records, r.Projected
  | _ => True

theorem projected_of_mem_writes {op : Operation} (h : op.Projects) {w : Write} (hw : w ∈ op.writes)
    {r : Record} (hr : r ∈ w.records) : r.Projected := by
  -- Giving records to another identity does not change their texts.
  have hput : ∀ {i : UInt64} {records : List Record}, (∀ r ∈ records, r.Projected) →
      r ∈ (Write.put i records).records → r.Projected := by
    intro i records hrecords hmem
    obtain ⟨r', hr', rfl⟩ := List.mem_map.1 hmem
    exact hrecords r' hr'
  have hevents : ∀ {events : List ImportedEvent},
      w ∈ events.map (fun e => Write.ofEvent e.event e.payload) → r.Projected := by
    intro events hmem
    obtain ⟨e, -, rfl⟩ := List.mem_map.1 hmem
    exact hput (fun _ => Record.projected_of_mem_records) hr
  cases op with
  | putEvent event payload =>
      rw [List.mem_singleton.1 hw] at hr
      exact hput (fun _ => Record.projected_of_mem_records) hr
  | put identity records =>
      rw [List.mem_singleton.1 hw] at hr
      exact hput h hr
  | remove identity =>
      rw [List.mem_singleton.1 hw] at hr
      cases hr
  | delete identity =>
      rw [List.mem_singleton.1 hw] at hr
      cases hr
  | ingest events => exact hevents hw
  | importEvents input => exact hevents hw
  | commit => cases hw
  | hold => cases hw
  | reopen => cases hw

end Operation

namespace Session

open Analysis (Pipeline)

theorem projected_of_mem_shown {settings : Settings} {ops : List Operation}
    (projected : ∀ op ∈ ops, op.Projects) {r : Record} (h : r ∈ (shown settings ops).records) :
    r.Projected := by
  obtain ⟨op, hop, w, hw, hr⟩ := exists_write_of_mem_records h
  exact Operation.projected_of_mem_writes (projected op hop) hw hr

/-- In a store of events the query for a text finds the live records that share a word or a gram with it in
the name, the description or a tag. Its shingles, and looking for all its words, make no difference; the
terms of a record come from one of its texts each; and a record is found by each of its texts that has a
token. -/
theorem freeText_finds_shared (settings : Settings) (ops : List Operation)
    (projected : ∀ op ∈ ops, op.Projects) (context : Query.Context) (t : String) :
    ∃ plan : Plan Unit,
      Query.ofJson context (Query.freeTextJson t) = .ok (Query.freeText context.weights t) ∧
      Snapshot.plan (Query.freeText context.weights t) = .ok plan ∧
      (∀ r ∈ (shown settings ops).records,
        plan.accepts r = true ↔ r.Shares .word t ∨ r.Shares .gram t) ∧
      (((shown settings ops).hits plan).flatten.map fun hit => (hit.identity, hit.payload)) =
        (((shown settings ops).records.filter plan.accepts).map fun r => (r.identity, r.payload)) ∧
      (∃ parts : Plan Unit,
        Snapshot.plan (Query.freeTextByParts context.weights t) = .ok parts ∧
        ∀ r, parts.accepts r = plan.accepts r) ∧
      (∀ r ∈ (shown settings ops).records, ∀ s,
        (.text s ∈ r.terms .tag ↔ ∃ v ∈ r.tags, s ∈ Pipeline.terms .word v ∨
          ∃ group, group <:+: Analysis.words v.toList ∧ group.length ∈ Analysis.shingleSizes ∧
            s = Analysis.groupText group) ∧
        (.text s ∈ r.terms .combinedGrams ↔ ∃ v ∈ r.texts,
          ∃ group, group <:+: v.toList ∧ group.length ∈ Analysis.gramSizes ∧
            s = Analysis.lowered group)) ∧
      (∀ r ∈ (shown settings ops).records, t ∈ r.texts →
        (∃ pipeline : Pipeline, pipeline.terms t ≠ []) → plan.accepts r = true) := by
  obtain ⟨plan, hplan, haccepts⟩ := (Query.finds_freeText context.weights t).exists_plan
  obtain ⟨parts, hparts, hpartsAccepts⟩ := (Query.finds_freeTextByParts context.weights t).exists_plan
  have hshared : ∀ r ∈ (shown settings ops).records,
      (plan.accepts r = true ↔ r.Shares .word t ∨ r.Shares .gram t) := by
    intro r hr
    -- In such a store the texts searched for parts of words are those of the record.
    have hcombined : r.combinedText = r.texts := projected_of_mem_shown projected hr
    rw [haccepts, Query.FoundByParts, hcombined, Record.Shares, Record.Shares]
  refine ⟨plan, Query.ofJson_freeTextJson context t, hplan, hshared, Snapshot.map_hits _ plan,
    ⟨parts, hparts, fun r => ?_⟩, fun r hr s => ⟨?_, ?_⟩, fun r hr ht htoken => ?_⟩
  · rw [Bool.eq_iff_iff, haccepts, hpartsAccepts]
  · rw [Record.terms, mem_analyzedTerms_iff]
    simp only [Pipeline.mem_tag_terms_iff, Pipeline.mem_shingle_terms_iff]
  · have hcombined : r.combinedText = r.texts := projected_of_mem_shown projected hr
    rw [Record.terms, mem_analyzedTerms_iff, hcombined]
    simp only [Pipeline.mem_gram_terms_iff]
  · exact (hshared r hr).2 (Record.shares_self ht htoken)

/-- An event is found by a word of its tag. -/
theorem freeText_finds_shared_tag :
    (∀ op ∈ [Operation.putEvent { Event.empty with identity := 7, tags := ["Live Music"] } "7", .commit],
      op.Projects) ∧
    ∃ plan, Snapshot.plan (Query.freeText .standard "music") = .ok plan ∧
      ∃ r ∈ (shown .standard
        [.putEvent { Event.empty with identity := 7, tags := ["Live Music"] } "7", .commit]).records,
        r.identity = 7 ∧ plan.accepts r = true := by
  have projected : ∀ op ∈
      [Operation.putEvent { Event.empty with identity := 7, tags := ["Live Music"] } "7", .commit],
      op.Projects := by
    intro op hop
    rcases List.mem_cons.1 hop with rfl | hop
    · exact trivial
    · rw [List.mem_singleton.1 hop]
      exact trivial
  obtain ⟨plan, -, hplan, haccepts, -⟩ :=
    freeText_finds_shared .standard _ projected ⟨0, .standard⟩ "music"
  have hmem : ({ Event.empty with identity := 7, tags := ["Live Music"] } : Event).recordAt "7" none ∈
      (shown .standard
        [.putEvent { Event.empty with identity := 7, tags := ["Live Music"] } "7", .commit]).records := by
    decide +kernel
  refine ⟨projected, plan, hplan, _, hmem, rfl, (haccepts _ hmem).2 (Or.inl ?_)⟩
  exact ⟨"Live Music", by decide +kernel, "music", by decide +kernel, by decide +kernel⟩

end Session

end EventFinder
