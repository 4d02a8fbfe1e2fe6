import EventFinder.Proofs.Search.Ranges
import EventFinder.Proofs.Store.LiveEvents
import EventFinder.Proofs.Text.UpperCase

/-!
# Searching by tags

A query for tags looks for each of its values, in upper case, among the tags of a record, which are stored in upper
case, too. So it selects the records that have a tag for each value which is the same in upper case
(`tags_select_upperCased`); different values may find the same tag. Without a value it selects nothing.

Upper case may be longer than the text, and a tag that is too long in upper case is not stored and not found.
-/

set_option autoImplicit false

namespace EventFinder

theorem mem_wholeTerms_iff {texts : List String} {s : String} :
    Term.text s ∈ wholeTerms texts ↔ s ∈ texts ∧ s.utf8ByteSize ≤ tokenByteLimit := by
  simp [wholeTerms]

namespace Record

/-- The record is found by a tag: it has one that is the same in upper case, where it is not too long to be stored. -/
def HasTag (r : Record) (v : String) : Prop :=
  ∃ s ∈ r.tags, upperCase s = upperCase v ∧ (upperCase s).utf8ByteSize ≤ tokenByteLimit

theorem mem_exactTag_iff {r : Record} {v : String} : .text (upperCase v) ∈ r.terms .exactTag ↔ r.HasTag v := by
  rw [terms, mem_wholeTerms_iff, List.mem_map]
  constructor
  · rintro ⟨⟨s, hs, hsame⟩, hlimit⟩
    exact ⟨s, hs, hsame, hsame ▸ hlimit⟩
  · rintro ⟨s, hs, hsame, hlimit⟩
    exact ⟨⟨s, hs, hsame⟩, hsame ▸ hlimit⟩

/-- A tag is found by whatever is the same in upper case. -/
theorem hasTag_congr {r : Record} {v w : String} (h : upperCase v = upperCase w) : r.HasTag v ↔ r.HasTag w := by
  rw [HasTag, HasTag, h]

/-- If no tag is too long, all of them are found. -/
theorem hasTag_iff {r : Record} (h : ∀ s ∈ r.tags, (upperCase s).utf8ByteSize ≤ tokenByteLimit) {v : String} :
    r.HasTag v ↔ ∃ s ∈ r.tags, upperCase s = upperCase v := by
  constructor
  · rintro ⟨s, hs, hsame, -⟩
    exact ⟨s, hs, hsame⟩
  · rintro ⟨s, hs, hsame⟩
    exact ⟨s, hs, hsame, h s hs⟩

end Record

namespace Query

/-- The query for some tags. -/
def forTags (values : List String) : Query :=
  allOf (values.map fun value => term Field.exactTag.label (upperCase value))

theorem finds_forTags (values : List String) :
    (forTags values).Finds fun r => values ≠ [] ∧ ∀ v ∈ values, r.HasTag v := by
  have hterm : ∀ v, (term Field.exactTag.label (upperCase v)).Finds fun r => r.HasTag v := by
    intro v
    exact (finds_term rfl (upperCase v)).congr fun r => Record.mem_exactTag_iff
  refine (finds_allOf fun query hquery => ?_).congr fun r => ?_
  · obtain ⟨v, -, rfl⟩ := List.mem_map.1 hquery
    exact ⟨_, hterm v⟩
  · simp [(hterm _).matches_iff]

namespace Node

variable {context : Context} {node : Node} {values : List String}

/-- Values that are texts are all read. -/
theorem mapM_hasTag (node : Node) (values : List String) :
    (values.map Json.string).mapM node.hasTag =
      .ok (values.map fun value => term Field.exactTag.label (upperCase value)) := by
  induction values with
  | nil => rfl
  | cons value rest ih =>
      rw [List.map_cons, List.mapM_cons, ih]
      rfl

theorem leaf_tags (wanted : node.get? "values" = some (.array (values.map Json.string))) :
    node.leaf context .tags = .ok (forTags values) := by
  rw [leaf, list_of_get? wanted]
  change (values.map Json.string).mapM node.hasTag >>= _ = _
  rw [mapM_hasTag]
  rfl

/-- A query for tags is read as one for its values, with its factor. -/
theorem IsReadAs.finds_tags {query : Query} (read : node.IsReadAs context .tags query)
    (wanted : node.get? "values" = some (.array (values.map Json.string))) :
    query.Finds fun r => values ≠ [] ∧ ∀ v ∈ values, r.HasTag v := by
  obtain ⟨query', factor, hleaf, rfl⟩ := read.exists_boosted
  rw [leaf_tags wanted] at hleaf
  cases hleaf
  exact (finds_forTags values).boosted factor

end Node

/-- What is asked of the values of a query depends on what they are in upper case, and neither on their order nor on
how often they occur. -/
theorem forall_hasTag_of_subset {values values' : List String} {r : Record}
    (h : values.map upperCase ⊆ values'.map upperCase) (hall : ∀ v ∈ values', r.HasTag v) :
    ∀ v ∈ values, r.HasTag v := by
  intro v hv
  obtain ⟨w, hw, hsame⟩ := List.mem_map.1 (h (List.mem_map_of_mem hv))
  exact (Record.hasTag_congr hsame).1 (hall w hw)

/-- Values that are the same in upper case ask for the same tags. -/
theorem forall_hasTag_congr {values values' : List String} {r : Record}
    (h : ∀ u, u ∈ values.map upperCase ↔ u ∈ values'.map upperCase) :
    (values ≠ [] ∧ ∀ v ∈ values, r.HasTag v) ↔ values' ≠ [] ∧ ∀ v ∈ values', r.HasTag v := by
  have hnil : values = [] ↔ values' = [] := by
    rw [← List.map_eq_nil_iff (f := upperCase), ← List.map_eq_nil_iff (f := upperCase) (l := values'),
      List.eq_nil_iff_forall_not_mem, List.eq_nil_iff_forall_not_mem]
    exact forall_congr' fun u => (h u).not
  refine and_congr hnil.not ⟨forall_hasTag_of_subset fun u hu => ?_, forall_hasTag_of_subset fun u hu => ?_⟩
  · exact (h u).2 hu
  · exact (h u).1 hu

/-- A query for tags, with any factor, is read, and it selects the records that have a tag for each of its values, and
nothing if it has no value. Of a live event whose tags are not too long in upper case those are all records, if for each
value one of its tags is the same in upper case. Queries whose values are the same in upper case, in whatever order and
however often they occur, match the same records, so does one whose values are in upper case already, and one with
further values matches no others. -/
theorem tags_select_upperCased (context : Context) {value : Json} {node : Node} {values : List String}
    (isOf : node.IsOf value (.leaf .tags)) (wanted : node.get? "values" = some (.array (values.map Json.string)))
    (boost : ∀ v, node.get? "boost" = some v → ∃ n, v = .number n) :
    ∃ query, Query.ofJson context value = .ok query ∧
      (query.Selects fun r => values ≠ [] ∧ ∀ v ∈ values,
        ∃ s ∈ r.tags, upperCase s = upperCase v ∧ (upperCase s).utf8ByteSize ≤ tokenByteLimit) ∧
      (∀ (settings : Settings) (ops : List Operation) (event : Event) (payload : String),
        Session.IsLive ops event payload → (∀ s ∈ event.tags, (upperCase s).utf8ByteSize ≤ tokenByteLimit) →
          (Session.shown settings ops).recordsOf event.identity = event.records payload ∧
          ∀ r ∈ event.records payload,
            (query.Matches r ↔ values ≠ [] ∧ ∀ v ∈ values, ∃ s ∈ event.tags, upperCase s = upperCase v)) ∧
      ∀ (context' : Context) (node' : Node) (values' : List String) (query' : Query),
        node'.IsReadAs context' .tags query' → node'.get? "values" = some (.array (values'.map Json.string)) →
          ((∀ u, u ∈ values.map upperCase ↔ u ∈ values'.map upperCase) →
            ∀ r, query.Matches r ↔ query'.Matches r) ∧
          (values' = values.map upperCase → ∀ r, query.Matches r ↔ query'.Matches r) ∧
          (values ≠ [] → values.map upperCase ⊆ values'.map upperCase →
            ∀ r, query'.Matches r → query.Matches r) := by
  obtain ⟨factor, hread⟩ := isOf.exists_factor (Node.leaf_tags wanted) boost
  have hfinds := (finds_forTags values).boosted factor
  refine ⟨(forTags values).boosted factor, hread, hfinds.selects, ?_, ?_⟩
  · intro settings ops event payload live hlimit
    refine ⟨Session.recordsOf_shown_of_isLive live, fun r hr => ?_⟩
    obtain ⟨occurrence, rfl⟩ := Event.exists_recordAt_of_mem_records hr
    rw [hfinds.matches_iff]
    exact and_congr_right fun _ => forall₂_congr fun v _ => Record.hasTag_iff hlimit
  · intro context' node' values' query' read' wanted'
    have hfinds' := read'.finds_tags wanted'
    refine ⟨fun hsame r => ?_, fun hupper r => ?_, ?_⟩
    · rw [hfinds.matches_iff, hfinds'.matches_iff, forall_hasTag_congr hsame]
    · -- What is in upper case stays as it is.
      rw [hfinds.matches_iff, hfinds'.matches_iff, hupper]
      apply forall_hasTag_congr
      simp [upperCase_upperCase]
    · intro hne hsub r
      rw [hfinds.matches_iff, hfinds'.matches_iff]
      exact fun h => ⟨hne, forall_hasTag_of_subset hsub h.2⟩

/-- An event with a tag that is longer in upper case. -/
def streetMusicEvent : Event :=
  { Event.empty with
    identity := 3
    tags := ["Stra\u00dfe", "Live Music", "Open Air"]
    shows := [⟨.scheduled, 1, none⟩, ⟨.scheduled, 2, none⟩] }

/-- Two of its tags in other letter cases, one of them twice. -/
def streetMusicValues : List String := ["LIVE music", "strasse", "STRA\u00dfE"]

/-- A query for them, with a factor. -/
def streetMusicNode : Node :=
  ⟨"Event Tags",
    [("type", .string "Event Tags"), ("values", .array (streetMusicValues.map Json.string)),
      ("boost", .number (.integer 2))]⟩

/-- Both records of the event are found by two of its tags in other letter cases. -/
theorem tags_select_upperCased_street :
    Session.IsLive [.putEvent streetMusicEvent "3", .commit] streetMusicEvent "3" ∧
      ∃ query, Query.ofJson ⟨0, .standard⟩ (.object streetMusicNode.members) = .ok query ∧
        ∀ r ∈ (Session.shown .standard [.putEvent streetMusicEvent "3", .commit]).recordsOf 3,
          query.Matches r := by
  have live : Session.IsLive [.putEvent streetMusicEvent "3", .commit] streetMusicEvent "3" := rfl
  have isOf : streetMusicNode.IsOf (.object streetMusicNode.members) (.leaf .tags) := ⟨rfl, rfl, by decide +kernel⟩
  have hlimit : ∀ s ∈ streetMusicEvent.tags, (upperCase s).utf8ByteSize ≤ tokenByteLimit := by decide +kernel
  have hvalues : ∀ v ∈ streetMusicValues, ∃ s ∈ streetMusicEvent.tags, upperCase s = upperCase v := by decide +kernel
  obtain ⟨query, hread, -, hrecords, -⟩ :=
    tags_select_upperCased ⟨0, .standard⟩ isOf rfl fun v hv => ⟨_, (Option.some.inj hv).symm⟩
  obtain ⟨hshown, hmatches⟩ := hrecords .standard _ streetMusicEvent "3" live hlimit
  refine ⟨live, query, hread, fun r hr => ?_⟩
  exact (hmatches r (hshown ▸ hr)).2 ⟨by decide, hvalues⟩

end Query

end EventFinder
