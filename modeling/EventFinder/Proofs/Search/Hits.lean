import EventFinder.Proofs.Query.Matching
import EventFinder.Proofs.Search.BestHit
import EventFinder.Proofs.Store.Content
import EventFinder.Search

/-!
# The hits of a snapshot

The hits are the live records that match (`map_hits`), and those of an identity come from its live records
(`ofIdentity_hits`). Ratings depend on which documents a snapshot has and not on their order (`rate_congr`),
and so do the hits, but for their own order (`hits_perm`). A search that can be run answers with the hits of
its plan (`search_of_plan`).
-/

set_option autoImplicit false

namespace EventFinder

namespace Document

/-- A document is that of its record. -/
theorem ofRecord_record (d : Document) : Document.ofRecord d.record = d := by
  obtain ⟨r, fields, hfields⟩ := d
  subst hfields
  rfl

end Document

namespace Hit

theorem identity_of_ofDocument? {rated : Plan Rating} {d : Document} {hit : Hit}
    (h : ofDocument? rated d = some hit) : hit.identity = d.record.identity := by
  rw [ofDocument?, Option.map_eq_some_iff] at h
  obtain ⟨score, -, rfl⟩ := h
  rfl

/-- The hits of an identity are those among its documents. -/
theorem ofIdentity_filterMap (i : UInt64) (rated : Plan Rating) (documents : List Document) :
    ofIdentity i (documents.filterMap (ofDocument? rated)) =
      (documents.filter fun d => decide (d.record.identity = i)).filterMap (ofDocument? rated) := by
  induction documents with
  | nil => rfl
  | cons d rest ih =>
      -- A document that is no hit is left out before or after, and one that is has its identity.
      rw [ofIdentity] at ih ⊢
      cases hd : ofDocument? rated d with
      | none =>
          rw [List.filterMap_cons_none hd, ih, List.filter_cons]
          split
          · rw [List.filterMap_cons_none hd]
          · rfl
      | some hit =>
          rw [List.filterMap_cons_some hd, List.filter_cons, List.filter_cons, ih,
            identity_of_ofDocument? hd]
          split
          · rw [List.filterMap_cons_some hd]
          · rfl

end Hit

namespace Rating

/-- A rating depends on which documents there are and not on their order. -/
theorem ofDocuments_congr {documents others : List Document} (h : documents.Perm others) :
    ofDocuments documents = ofDocuments others := by
  funext field term
  rw [ofDocuments, ofDocuments, h.length_eq, h.countP_eq, (h.flatMap_right _).length_eq]

end Rating

namespace Snapshot

theorem rate_congr {s s' : Snapshot} (h : s.segments.flatten.Perm s'.segments.flatten) (plan : Plan Unit) :
    s.rate plan = s'.rate plan := by
  rw [rate, rate, documents, documents, Rating.ofDocuments_congr (h.map Slot.document)]

theorem flatten_hits (s : Snapshot) (plan : Plan Unit) :
    (s.hits plan).flatten =
      (Segment.live s.segments.flatten).filterMap (Hit.ofDocument? (s.rate plan)) := by
  rw [hits, ← Segment.live_flatten, List.filterMap_flatMap]
  exact (List.flatMap_def ..).symm

/-- Snapshots of the same documents have the same hits, in an order of their own. -/
theorem hits_perm {s s' : Snapshot} (h : s.segments.flatten.Perm s'.segments.flatten) (plan : Plan Unit) :
    (s.hits plan).flatten.Perm (s'.hits plan).flatten := by
  rw [flatten_hits, flatten_hits, rate_congr h]
  exact (Segment.live_perm h).filterMap _

/-- The hits of an identity in each segment. -/
theorem map_ofIdentity_hits (s : Snapshot) (plan : Plan Unit) (i : UInt64) :
    (s.hits plan).map (Hit.ofIdentity i) =
      (s.segments.map (Segment.liveOf i)).map fun documents =>
        documents.filterMap (Hit.ofDocument? (s.rate plan)) := by
  rw [hits, List.map_map, List.map_map]
  exact List.map_congr_left fun segment _ => Hit.ofIdentity_filterMap i _ segment.live

/-- The hits of an identity are those among its live records. -/
theorem ofIdentity_hits (s : Snapshot) (plan : Plan Unit) (i : UInt64) :
    Hit.ofIdentity i (s.hits plan).flatten =
      (s.recordsOf i).filterMap fun r => Hit.ofDocument? (s.rate plan) (Document.ofRecord r) := by
  rw [flatten_hits, Hit.ofIdentity_filterMap, recordsOf, records, Segment.live_flatten, List.filter_map,
    List.filterMap_map]
  congr 1
  funext d
  rw [Function.comp_apply, Document.ofRecord_record]

/-- Each live record that matches is a hit, and nothing else is. -/
theorem map_hits (s : Snapshot) (plan : Plan Unit) :
    ((s.hits plan).flatten.map fun hit => (hit.identity, hit.payload)) =
      (s.records.filter plan.accepts).map fun r => (r.identity, r.payload) := by
  rw [flatten_hits, records, Segment.live_flatten]
  induction Segment.live s.segments.flatten with
  | nil => rfl
  | cons d rest ih =>
      -- A document is a hit if it has a score, which it has if its record matches.
      have hscore : ((s.rate plan).score .one d).isSome = plan.accepts d.record :=
        Plan.isSome_score _ d plan .one
      rw [List.map_cons, List.filter_cons, ← hscore]
      cases hd : (s.rate plan).score .one d with
      | none =>
          have hnone : Hit.ofDocument? (s.rate plan) d = none := by
            rw [Hit.ofDocument?, hd]
            rfl
          rw [List.filterMap_cons_none hnone, ih]
          rfl
      | some score =>
          have hsome : Hit.ofDocument? (s.rate plan) d =
              some ⟨d.record.identity, score, d.record.payload⟩ := by
            rw [Hit.ofDocument?, hd]
            rfl
          rw [List.filterMap_cons_some hsome, List.map_cons, ih]
          rfl

/-- What a search that can be run answers. -/
theorem search_of_plan {plan : Plan Unit} {request : Request}
    (hplan : Snapshot.plan request.query = .ok plan) (s : Snapshot) :
    s.search request = .ok (Results.ofHits request (s.hits plan)) := by
  rw [search, hplan]
  rfl

theorem search_of_error {e : SearchError} {request : Request}
    (hplan : Snapshot.plan request.query = .error e) (s : Snapshot) : s.search request = .error e := by
  rw [search, hplan]
  rfl

end Snapshot

end EventFinder
