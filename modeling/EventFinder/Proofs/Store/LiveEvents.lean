import EventFinder.Proofs.Search.Factors
import EventFinder.Proofs.Store.History

/-!
# Live events

An event is live if the last of all lasting writes to its identity is that of its records (`Session.IsLive`). What a
search sees of its identity are then these records and no others (`recordsOf_shown_of_isLive`). All of them have the
texts and the tags of the event, so what is found by them is found for the event: a search whose plan matches its
records counts the event and, unless its answer is cut off, shows it (`search_shows_event`).
-/

set_option autoImplicit false

namespace EventFinder

namespace Session

open Operation

/-- The event is live: of the writes that last, the last one to its identity is that of its records. -/
def IsLive (ops : List Operation) (event : Event) (payload : String) : Prop :=
  Content.lastWrite event.identity (durable ops) = some (.ofEvent event payload)

section Shown

variable {settings : Settings} {ops : List Operation} {event : Event} {payload : String}
  (live : IsLive ops event payload)
include live

/-- Of a live event all records are shown, and of its identity no others. -/
theorem recordsOf_shown_of_isLive :
    (shown settings ops).recordsOf event.identity = event.records payload := by
  rw [recordsOf_shown_eq_last, live, Option.map_some, Option.getD_some, Write.records_ofEvent]

theorem mem_records_of_isLive {r : Record} (h : r ∈ event.records payload) :
    r ∈ (shown settings ops).records := by
  have hrecords : (shown settings ops).recordsOf event.identity = event.records payload :=
    recordsOf_shown_of_isLive live
  rw [← hrecords] at h
  exact List.mem_of_mem_filter h

/-- A live event with a record that matches has a hit. -/
theorem mem_identity_hits_of_isLive {plan : Plan Unit} {r : Record} (h : r ∈ event.records payload)
    (haccepts : plan.accepts r = true) :
    event.identity ∈ ((shown settings ops).hits plan).flatten.map Hit.identity := by
  have hpair : (r.identity, r.payload) ∈
      (((shown settings ops).hits plan).flatten.map fun hit => (hit.identity, hit.payload)) := by
    rw [Snapshot.map_hits]
    exact List.mem_map_of_mem (List.mem_filter.2 ⟨mem_records_of_isLive live h, haccepts⟩)
  obtain ⟨hit, hhit, heq⟩ := List.mem_map.1 hpair
  obtain ⟨occurrence, rfl⟩ := Event.exists_recordAt_of_mem_records h
  exact List.mem_map.2 ⟨hit, hhit, (Prod.mk.inj heq).1⟩

/-- A search that matches the records of a live event counts it, and shows it in an answer that is not cut off. -/
theorem search_shows_event {plan : Plan Unit} (haccepts : ∀ r ∈ event.records payload, plan.accepts r = true)
    {request : Request} (hplan : Snapshot.plan request.query = .ok plan) :
    ∃ results, (shown settings ops).search request = .ok results ∧ 0 < results.totalMatches ∧
      (request.startIndex = 0 → results.totalMatches ≤ request.limit.toNat →
        event.identity ∈ results.results.map Result.identity) := by
  obtain ⟨r, hr⟩ := List.exists_mem_of_ne_nil _ (event.records_ne_nil payload)
  have hmem : event.identity ∈ ((shown settings ops).hits plan).flatten.map Hit.identity :=
    mem_identity_hits_of_isLive live hr (haccepts r hr)
  refine ⟨_, Snapshot.search_of_plan hplan _, ?_, fun hstart hlimit => ?_⟩
  · rw [Results.ofHits_eq, Results.length_rankingOf]
    exact Finset.card_pos.2 ⟨_, List.mem_toFinset.2 hmem⟩
  · exact (Results.mem_identity_ofHits_iff hstart hlimit).2 hmem

end Shown

end Session

end EventFinder
