import EventFinder.Proofs.Search.Answer
import EventFinder.Proofs.Search.Hits
import EventFinder.Service

/-!
# Searching for everything

Every live record is a hit when everything is searched for (`map_hits_matchAll`). So the answer counts the
identities of the store, and if it is not cut off it shows each of them once, with the payload of one of its
records (`exists_ranked_matchAll`). The status of a store counts its records and its identities (`status_eq`).
-/

set_option autoImplicit false

namespace EventFinder

namespace Snapshot

variable (s : Snapshot)

/-- Every live record is a hit. -/
theorem map_hits_matchAll :
    ((s.hits .matchAll).flatten.map fun hit => (hit.identity, hit.payload)) =
      s.records.map fun r => (r.identity, r.payload) := by
  have hall : s.records.filter (Plan.accepts (.matchAll : Plan Unit)) = s.records :=
    List.filter_eq_self.2 fun r _ => rfl
  rw [map_hits, hall]

theorem map_identity_hits_matchAll :
    (s.hits .matchAll).flatten.map Hit.identity = s.records.map Record.identity := by
  have hpairs := congrArg (List.map Prod.fst) s.map_hits_matchAll
  rw [List.map_map, List.map_map] at hpairs
  exact hpairs

theorem search_matchAll {request : Request} (hquery : request.query = .matchAll) :
    s.search request = .ok (Results.ofHits request (s.hits .matchAll)) :=
  search_of_plan (by rw [hquery]; rfl) s

/-- There are as many matches as identities. -/
theorem totalMatches_matchAll (request : Request) :
    (Results.ofHits request (s.hits .matchAll)).totalMatches =
      (s.records.map Record.identity).toFinset.card := by
  rw [Results.ofHits_eq, Results.length_rankingOf, map_identity_hits_matchAll]

/-- The status counts the live records and their identities. -/
theorem status_eq : s.status = .ok ⟨s.records.length, (s.records.map Record.identity).toFinset.card⟩ := by
  rw [status, search_matchAll s rfl, ← s.totalMatches_matchAll]
  rfl

theorem status_congr {s s' : Snapshot} (h : ∀ i, s.recordsOf i = s'.recordsOf i) : s.status = s'.status := by
  have hperm := perm_records h
  rw [status_eq, status_eq, hperm.length_eq, List.toFinset_eq_of_perm _ _ (hperm.map Record.identity)]

/-- An answer that is not cut off shows each identity once, with the payload of one of its records. -/
theorem exists_ranked_matchAll {request : Request} (hstart : request.startIndex = 0)
    (hlimit : (Results.ofHits request (s.hits .matchAll)).totalMatches ≤ request.limit.toNat) :
    ∃ ranked : List Hit,
      (Results.ofHits request (s.hits .matchAll)).results = ranked.map (Hit.result request.includePayload) ∧
      (Results.ofHits request (s.hits .matchAll)).totalMatches = ranked.length ∧
      (ranked.map Hit.identity).Nodup ∧
      (∀ hit ∈ ranked, ∃ r ∈ s.records, r.identity = hit.identity ∧ r.payload = hit.payload) ∧
      ∀ r ∈ s.records, r.identity ∈ ranked.map Hit.identity := by
  refine ⟨Results.rankingOf request.scoring (s.hits .matchAll), ?_, rfl, Hit.nodup_identity_ranking _, ?_, ?_⟩
  · rw [Results.ofHits_eq, hstart, Hit.page, List.take_of_length_le]
    · rfl
    · exact hlimit
  · intro hit hhit
    -- What is ranked is a hit, but for its score, and each hit is a record.
    have hmem := (Hit.mem_ofIdentity.1 (Hit.mem_of_heldFor (Hit.mem_ranking_iff.1 hhit))).1
    rw [Results.flatten_counted] at hmem
    obtain ⟨found, hfound, rfl⟩ := List.mem_map.1 hmem
    have hpair : (found.identity, found.payload) ∈ s.records.map fun r => (r.identity, r.payload) := by
      rw [← map_hits_matchAll]
      exact List.mem_map_of_mem hfound
    obtain ⟨r, hr, heq⟩ := List.mem_map.1 hpair
    exact ⟨r, hr, congrArg Prod.fst heq, congrArg Prod.snd heq⟩
  · intro r hr
    rw [Results.mem_identity_rankingOf, map_identity_hits_matchAll]
    exact List.mem_map_of_mem hr

end Snapshot

theorem Service.status_eq (service : Service) :
    service.status = .ok ⟨service.index.snapshot.records.length,
      (service.index.snapshot.records.map Record.identity).toFinset.card⟩ := by
  rw [status, Snapshot.status_eq]
  rfl

end EventFinder
