import EventFinder.Proofs.Query.Factors
import EventFinder.Proofs.Search.Answer
import EventFinder.Proofs.Search.Hits
import EventFinder.Service

/-!
# Factors change no matches

Queries that are the same but for factors have the same matches in every store, whatever the weights of free
texts are: their answers count the same number of identities, and answers that are not cut off show the same
ones (`factors_keep_matches`). How the identities are ranked may differ.
-/

set_option autoImplicit false

namespace EventFinder

namespace Results

/-- An answer that is not cut off shows the identities that have a hit. -/
theorem mem_identity_ofHits_iff {request : Request} {segments : List (List Hit)}
    (hstart : request.startIndex = 0)
    (hlimit : (ofHits request segments).totalMatches ≤ request.limit.toNat) {i : UInt64} :
    i ∈ (ofHits request segments).results.map Result.identity ↔ i ∈ segments.flatten.map Hit.identity := by
  have hall : (ofHits request segments).results =
      (rankingOf request.scoring segments).map (Hit.result request.includePayload) := by
    rw [ofHits_eq, hstart, Hit.page, List.take_of_length_le]
    · rfl
    · exact hlimit
  rw [hall, List.map_map, ← @mem_identity_rankingOf request.scoring]
  rfl

/-- Two answers count as many identities, and show the same ones if neither is cut off. -/
def SameMatches (request request' : Request) (results results' : Results) : Prop :=
  results.totalMatches = results'.totalMatches ∧
    (request.startIndex = 0 → results.totalMatches ≤ request.limit.toNat →
      request'.startIndex = 0 → results'.totalMatches ≤ request'.limit.toNat →
        ∀ i, i ∈ results.results.map Result.identity ↔ i ∈ results'.results.map Result.identity)

theorem sameMatches_ofHits {segments others : List (List Hit)}
    (h : segments.flatten.map Hit.identity = others.flatten.map Hit.identity) (request request' : Request) :
    SameMatches request request' (ofHits request segments) (ofHits request' others) := by
  constructor
  · rw [ofHits_eq, ofHits_eq, length_rankingOf, length_rankingOf, h]
  · intro hstart hlimit hstart' hlimit' i
    rw [mem_identity_ofHits_iff hstart hlimit, mem_identity_ofHits_iff hstart' hlimit', h]

end Results

namespace Snapshot

/-- Plans that match the same of the live records have hits of the same identities. -/
theorem map_identity_hits_congr_on (s : Snapshot) {plan plan' : Plan Unit}
    (h : ∀ r ∈ s.records, plan.accepts r = plan'.accepts r) :
    (s.hits plan).flatten.map Hit.identity = (s.hits plan').flatten.map Hit.identity := by
  have hpairs : ((s.hits plan).flatten.map fun hit => (hit.identity, hit.payload)) =
      (s.hits plan').flatten.map fun hit => (hit.identity, hit.payload) := by
    rw [map_hits, map_hits, List.filter_congr h]
  have hidentities := congrArg (List.map Prod.fst) hpairs
  rw [List.map_map, List.map_map] at hidentities
  exact hidentities

/-- Plans that match the same records have hits of the same identities. -/
theorem map_identity_hits_congr (s : Snapshot) {plan plan' : Plan Unit}
    (h : ∀ r, plan.accepts r = plan'.accepts r) :
    (s.hits plan).flatten.map Hit.identity = (s.hits plan').flatten.map Hit.identity :=
  s.map_identity_hits_congr_on fun r _ => h r

end Snapshot

namespace Service

open Query

/-- Queries that are the same but for factors are both refused or both read, whatever the weights are. Those that
are read fail for the same reason in every store, or have the same matches in it. -/
theorem factors_keep_matches {value value' : Json} (apart : FactorsApart value value') (now : Int64)
    (service service' : Service) (hstore : service.index.snapshot = service'.index.snapshot) :
    ((∃ query, Query.ofJson (service.context now) value = .ok query) ↔
        ∃ query, Query.ofJson (service'.context now) value' = .ok query) ∧
      ∀ request request' : Request,
        Query.ofJson (service.context now) value = .ok request.query →
        Query.ofJson (service'.context now) value' = .ok request'.query →
          (∃ e, service.execute request = .error e ∧ service'.execute request' = .error e) ∨
            ∃ results results', service.execute request = .ok results ∧
              service'.execute request' = .ok results' ∧
              Results.SameMatches request request' results results' := by
  have hagree : Agree SameUnweighted (Query.ofJson (service.context now) value)
      (Query.ofJson (service'.context now) value') := agree_ofJson apart
  refine ⟨hagree.exists_ok_iff, fun request request' hread hread' => ?_⟩
  rw [execute, execute, ← hstore]
  rcases Snapshot.plan_cases_of_unweighted_eq (hagree.related hread hread') with
    ⟨e, hplan, hplan'⟩ | ⟨plan, plan', hplan, hplan', haccepts⟩
  · refine Or.inl ⟨e.toFailure, ?_, ?_⟩
    · rw [Snapshot.search_of_error hplan]
      rfl
    · rw [Snapshot.search_of_error hplan']
      rfl
  · refine Or.inr ⟨_, _, ?_, ?_, Results.sameMatches_ofHits
      (service.index.snapshot.map_identity_hits_congr haccepts) request request'⟩
    · rw [Snapshot.search_of_plan hplan]
      rfl
    · rw [Snapshot.search_of_plan hplan']
      rfl

/-- A query for everything. -/
def everythingNode : Node := ⟨"match all documents", [("type", .string "match all documents")]⟩

/-- A query for everything, with a factor beyond all 32-bit numbers. -/
def heavyNode : Node :=
  ⟨"match all documents",
    [("type", .string "match all documents"), ("boost", .number (.real (.ofInt (tenPow 39))))]⟩

/-- A boolean query of one clause. -/
def clauseNode (clause : Node) (others : List (String × Json)) : Node :=
  ⟨"boolean query",
    [("type", .string "boolean query"),
     ("clauses", .array [.object [("occur", .string "must"), ("query", .object clause.members)]])] ++ others⟩

theorem factorsApart_clauseNode :
    FactorsApart (.object (clauseNode everythingNode []).members)
      (.object (clauseNode heavyNode [("boost", .number (.integer (-2)))]).members) := by
  have hinner : FactorsApart (.object everythingNode.members) (.object heavyNode.members) := by
    refine .node (Or.inr ⟨?_, ?_⟩) (.same none) fun key hboost _ => ?_
    · intro v hv
      cases hv
    · intro v hv
      cases hv
      exact Or.inr ⟨_, rfl⟩
    · simp [everythingNode, heavyNode, Json.lookup, hboost.symm]
  refine .node (Or.inr ⟨?_, ?_⟩) (.lists (.cons (.clause rfl rfl hinner fun key hquery => ?_) .nil))
    fun key hboost hclauses => ?_
  · intro v hv
    cases hv
  · intro v hv
    cases hv
    exact Or.inr ⟨_, rfl⟩
  · simp [Json.lookup, hquery.symm]
  · simp [clauseNode, Json.lookup, hboost.symm, hclauses.symm]

theorem ofJson_everythingNode (context : Context) :
    Query.ofJson context (.object everythingNode.members) = .ok .matchAll := by
  have hkind : everythingNode.kind? = some (.leaf .matchAll) := by decide +kernel
  rw [@ofJson_of_node context _ everythingNode rfl, hkind]
  rfl

theorem ofJson_clauseNode (context : Context) :
    Query.ofJson context (.object (clauseNode everythingNode []).members) =
      .ok (.boolean [(.must, .matchAll)]) := by
  have hkind : (clauseNode everythingNode []).kind? = some .boolean := by decide +kernel
  have hoccur : Node.clauseOccur (clauseNode everythingNode [])
      [("occur", .string "must"), ("query", .object everythingNode.members)] = .ok .must := by decide +kernel
  have hclause : clauseOfJson context (clauseNode everythingNode [])
      (.object [("occur", .string "must"), ("query", .object everythingNode.members)]) =
        .ok (.must, .matchAll) := by
    rw [clauseOfJson, hoccur]
    change (Query.ofJson context (.object everythingNode.members) >>= fun query => pure (Occur.must, query)) = _
    rw [ofJson_everythingNode]
    rfl
  rw [@ofJson_of_node context _ (clauseNode everythingNode []) rfl, hkind]
  change (clausesOfJson context (clauseNode everythingNode [])
    [.object [("occur", .string "must"), ("query", .object everythingNode.members)]] >>= _) = _
  rw [clausesOfJson_eq_mapM, List.mapM_cons, hclause]
  rfl

/-- An event is found by a query without factors, and so by one with a factor below zero around one that is beyond
all 32-bit numbers. -/
theorem factors_keep_matches_nested :
    FactorsApart (.object (clauseNode everythingNode []).members)
        (.object (clauseNode heavyNode [("boost", .number (.integer (-2)))]).members) ∧
      ∃ query', Query.ofJson ⟨0, .standard⟩
          (.object (clauseNode heavyNode [("boost", .number (.integer (-2)))]).members) = .ok query' ∧
        ∃ results', Service.execute ⟨.standard, (Index.empty.putEvent Event.empty "").commit⟩
            (.standard query') = .ok results' ∧ results'.totalMatches = 1 := by
  let service : Service := ⟨.standard, (Index.empty.putEvent Event.empty "").commit⟩
  obtain ⟨hread, hmatches⟩ := factors_keep_matches factorsApart_clauseNode 0 service service rfl
  obtain ⟨query', hquery'⟩ := hread.1 ⟨_, ofJson_clauseNode _⟩
  refine ⟨factorsApart_clauseNode, query', hquery', ?_⟩
  have hcount : (service.execute (.standard (.boolean [(.must, .matchAll)]))).toOption.map
      Results.totalMatches = some 1 := by decide +kernel
  rcases hmatches (.standard (.boolean [(.must, .matchAll)])) (.standard query') (ofJson_clauseNode _) hquery'
    with ⟨e, he, -⟩ | ⟨results, results', hresults, hresults', hsame⟩
  · rw [he] at hcount
    cases hcount
  · rw [hresults] at hcount
    exact ⟨results', hresults', hsame.1 ▸ Option.some.inj hcount⟩

end Service

end EventFinder
