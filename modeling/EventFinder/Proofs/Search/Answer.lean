import EventFinder.Proofs.Search.Ranking
import Mathlib.Data.Fintype.Card

/-!
# Answers are windows of one ranking

The answer to a request is a window of a ranking of its hits, whatever segments the hits are in and in
whatever order (`ofHits_answers`). The number of matches is that of the identities of the hits. So pages
that follow one another make up the ranking, and whether scores are wanted changes neither the number of
matches nor which identities they are.
-/

set_option autoImplicit false

namespace EventFinder

namespace Hit

theorem plain_counted {hits : List Hit} (plain : Plain hits) (scoring : Bool) :
    Plain (hits.map (counted scoring)) := by
  intro hit hhit
  obtain ⟨hit', hhit', rfl⟩ := List.mem_map.1 hhit
  cases scoring with
  | true => exact plain hit' hhit'
  | false => exact Binary.isPlain_zero

theorem map_identity_counted (hits : List Hit) (scoring : Bool) :
    (hits.map (counted scoring)).map identity = hits.map identity := by
  rw [List.map_map]
  rfl

theorem counted_true : counted true = id := rfl

theorem ofIdentity_counted (i : UInt64) (hits : List Hit) (scoring : Bool) :
    ofIdentity i (hits.map (counted scoring)) = (ofIdentity i hits).map (counted scoring) :=
  List.filter_map

/-- A window and the one behind it are one window. -/
theorem page_append (start m n : Nat) (ranked : List Hit) :
    page start m ranked ++ page (start + m) n ranked = page start (m + n) ranked := by
  rw [page, page, page, List.take_add, List.drop_drop]

end Hit

namespace Results

/-- What an answer says but for payloads. -/
def outline (r : Results) : Nat × List (UInt64 × Binary32) :=
  (r.totalMatches, r.results.map fun x => (x.identity, x.score))

/-- The ranking that answers are windows of. -/
def rankingOf (scoring : Bool) (segments : List (List Hit)) : List Hit :=
  Hit.ranking (segments.map fun hits => hits.map (Hit.counted scoring))

theorem ofHits_eq (request : Request) (segments : List (List Hit)) :
    ofHits request segments =
      ⟨(rankingOf request.scoring segments).length,
        (Hit.page request.startIndex.toNat request.limit.toNat
          (rankingOf request.scoring segments)).map (Hit.result request.includePayload)⟩ := rfl

theorem rankingOf_true (segments : List (List Hit)) : rankingOf true segments = Hit.ranking segments := by
  simp [rankingOf, Hit.counted_true]

theorem flatten_counted (scoring : Bool) (segments : List (List Hit)) :
    (segments.map fun hits => hits.map (Hit.counted scoring)).flatten =
      segments.flatten.map (Hit.counted scoring) :=
  List.map_flatten.symm

/-- Scores or not, as many are ranked as there are identities with a hit. -/
theorem length_rankingOf (scoring : Bool) (segments : List (List Hit)) :
    (rankingOf scoring segments).length = (segments.flatten.map Hit.identity).toFinset.card := by
  rw [rankingOf, Hit.length_ranking, flatten_counted, Hit.map_identity_counted]

/-- Scores or not, the identities with a hit are ranked. -/
theorem mem_identity_rankingOf {scoring : Bool} {segments : List (List Hit)} {i : UInt64} :
    i ∈ (rankingOf scoring segments).map Hit.identity ↔ i ∈ segments.flatten.map Hit.identity := by
  rw [rankingOf, Hit.mem_identity_ranking_iff, flatten_counted, Hit.map_identity_counted]

theorem isRanking_rankingOf {segments : List (List Hit)} (plain : Hit.Plain segments.flatten)
    (scoring : Bool) :
    Hit.IsRanking (segments.flatten.map (Hit.counted scoring)) (rankingOf scoring segments) := by
  have hplain := Hit.plain_counted plain scoring
  rw [← flatten_counted] at hplain ⊢
  exact Hit.isRanking_ranking hplain

/-- An answer shows of a ranking its identities and scores. -/
theorem outline_ofHits (request : Request) (segments : List (List Hit)) :
    (ofHits request segments).outline =
      ((rankingOf request.scoring segments).length,
        (((rankingOf request.scoring segments).map Hit.key).drop request.startIndex.toNat).take
          request.limit.toNat) := by
  rw [ofHits_eq, outline, Hit.page, List.map_map, ← List.map_drop, ← List.map_take]
  rfl

/-- Rankings that show the same identities and scores give the same answers, but for payloads. -/
theorem outline_ofHits_congr {request : Request} {segments others : List (List Hit)}
    (h : (rankingOf request.scoring segments).map Hit.key =
      (rankingOf request.scoring others).map Hit.key) :
    (ofHits request segments).outline = (ofHits request others).outline := by
  have hlength := congrArg List.length h
  rw [List.length_map, List.length_map] at hlength
  rw [outline_ofHits, outline_ofHits, h, hlength]

/-- There are no more identities than numbers of 64 bits. -/
theorem length_rankingOf_le (scoring : Bool) (segments : List (List Hit)) :
    (rankingOf scoring segments).length ≤ UInt64.size := by
  have hnodup : (((rankingOf scoring segments).map Hit.identity).map UInt64.toFin).Nodup :=
    (Hit.nodup_identity_ranking _).map fun _ _ => UInt64.toFin_inj.1
  simpa using List.Nodup.length_le_card hnodup

/-- Answers that agree on every window show the same ranking. -/
theorem map_key_eq_of_outline {segments others : List (List Hit)} (query : Query) {scoring : Bool}
    (h : ∀ request : Request, request.query = query → request.scoring = scoring →
      (ofHits request segments).outline = (ofHits request others).outline) :
    (rankingOf scoring segments).map Hit.key = (rankingOf scoring others).map Hit.key := by
  apply List.ext_getElem?
  intro p
  rcases Nat.lt_or_ge p UInt64.size with hp | hp
  · -- The window of one result at `p` shows what stands there.
    have hwindow := h ⟨query, scoring, false, .ofNat p, 1⟩ rfl rfl
    rw [outline_ofHits, outline_ofHits, Prod.mk.injEq, UInt64.toNat_ofNat_of_lt' hp] at hwindow
    have hfirst := congrArg (fun window => window[0]?) hwindow.2
    simpa [List.getElem?_take, List.getElem?_drop] using hfirst
  · have hnone : ∀ ss, ((rankingOf scoring ss).map Hit.key)[p]? = none := fun ss => by
      rw [List.getElem?_eq_none_iff, List.length_map]
      exact (length_rankingOf_le scoring ss).trans hp
    rw [hnone, hnone]

end Results

namespace Request

/-- Requests for windows that follow one another from `start` to `stop`. -/
inductive Pages (scoring includePayload : Bool) : Nat → List Request → Nat → Prop where
  | none (start : Nat) : Pages scoring includePayload start [] start
  | page {start stop : Nat} {request : Request} {rest : List Request} :
      request.scoring = scoring → request.includePayload = includePayload →
        request.startIndex.toNat = start →
          Pages scoring includePayload (start + request.limit.toNat) rest stop →
            Pages scoring includePayload start (request :: rest) stop

end Request

namespace Results

/-- Pages make up the window from the first one's start to the last one's end. -/
theorem flatMap_pages {scoring includePayload : Bool} {start stop : Nat} {requests : List Request}
    (h : Request.Pages scoring includePayload start requests stop) (segments : List (List Hit)) :
    start ≤ stop ∧
      (requests.flatMap fun request => (ofHits request segments).results) =
        (Hit.page start (stop - start) (rankingOf scoring segments)).map (Hit.result includePayload) := by
  induction h with
  | none start => simp [Hit.page]
  | @page start stop request rest hscoring hpayload hstart _ ih =>
      obtain ⟨hle, hrest⟩ := ih
      -- The first page and the window of all others are next to one another.
      have hsizes : stop - start = request.limit.toNat + (stop - (start + request.limit.toNat)) := by
        omega
      refine ⟨by omega, ?_⟩
      rw [List.flatMap_cons, hrest, ofHits_eq, hscoring, hpayload, hstart, ← List.map_append,
        Hit.page_append, ← hsizes]

/-- Hits have one ranking, and every answer is a window of it. -/
theorem ofHits_answers (segments : List (List Hit)) (plain : Hit.Plain segments.flatten)
    (scoring : Bool) :
    ∃ ranked : List Hit,
      Hit.IsRanking (segments.flatten.map (Hit.counted scoring)) ranked ∧
      (∀ others, Hit.IsRanking (segments.flatten.map (Hit.counted scoring)) others →
        others.map Hit.key = ranked.map Hit.key) ∧
      (∀ request : Request, request.scoring = scoring →
        ofHits request segments =
          ⟨(segments.flatten.map Hit.identity).toFinset.card,
            ((ranked.drop request.startIndex.toNat).take request.limit.toNat).map
              (Hit.result request.includePayload)⟩) ∧
      (∀ (includePayload : Bool) (requests : List Request) (stop : Nat),
        Request.Pages scoring includePayload 0 requests stop →
          (requests.flatMap fun request => (ofHits request segments).results) =
            (ranked.take stop).map (Hit.result includePayload)) ∧
      (∀ others : List (List Hit), others.flatten.Perm segments.flatten → ∀ request : Request,
        (ofHits request others).outline = (ofHits request segments).outline) ∧
      (∀ request : Request, request.startIndex = 0 →
        (segments.flatten.map Hit.identity).toFinset.card ≤ request.limit.toNat →
          ∀ i, i ∈ (ofHits request segments).results.map Result.identity ↔
            i ∈ segments.flatten.map Hit.identity) ∧
      (∀ (s : Snapshot) (plan : Plan Unit) (request : Request),
        Snapshot.plan request.query = .ok plan → s.hits plan = segments →
          s.search request = .ok (ofHits request segments)) := by
  refine ⟨rankingOf scoring segments, isRanking_rankingOf plain scoring, ?_, ?_, ?_, ?_, ?_, ?_⟩
  · intro others hothers
    exact hothers.map_key_eq (Hit.plain_counted plain scoring) (isRanking_rankingOf plain scoring)
  · intro request hscoring
    rw [ofHits_eq, length_rankingOf, hscoring]
    rfl
  · intro includePayload requests stop hpages
    rw [(flatMap_pages hpages segments).2]
    rfl
  · -- In another order the hits have the same rankings, and plain hits have only one.
    intro others hperm request
    have hplain : Hit.Plain others.flatten := fun hit hhit => plain hit (hperm.mem_iff.1 hhit)
    have hranking := (isRanking_rankingOf hplain request.scoring).of_perm (hperm.map _)
    exact outline_ofHits_congr (hranking.map_key_eq (Hit.plain_counted plain request.scoring)
      (isRanking_rankingOf plain request.scoring))
  · intro request hstart hlimit i
    have hall : (ofHits request segments).results =
        (rankingOf request.scoring segments).map (Hit.result request.includePayload) := by
      rw [← length_rankingOf request.scoring] at hlimit
      rw [ofHits_eq, hstart, Hit.page, List.take_of_length_le]
      · rfl
      · exact hlimit
    rw [hall, List.map_map, ← @mem_identity_rankingOf request.scoring]
    rfl
  · intro s plan request hplan hhits
    rw [Snapshot.search, hplan, ← hhits]
    rfl

/-- Two segments hold hits of one identity, and one of them a hit of another one. -/
theorem ofHits_answers_two_segments :
    Hit.Plain [⟨7, .ofInt 2, "a"⟩, ⟨5, .ofInt 2, "b"⟩, ⟨7, .ofInt 3, "c"⟩] ∧
      (ofHits (.standard .matchAll)
        [[⟨7, .ofInt 2, "a"⟩, ⟨5, .ofInt 2, "b"⟩], [⟨7, .ofInt 3, "c"⟩]]).totalMatches = 2 := by
  have plain : Hit.Plain [⟨7, .ofInt 2, "a"⟩, ⟨5, .ofInt 2, "b"⟩, ⟨7, .ofInt 3, "c"⟩] := by
    decide +kernel
  obtain ⟨ranked, -, -, hanswer, -⟩ :=
    ofHits_answers [[⟨7, .ofInt 2, "a"⟩, ⟨5, .ofInt 2, "b"⟩], [⟨7, .ofInt 3, "c"⟩]] plain true
  refine ⟨plain, ?_⟩
  rw [hanswer (.standard .matchAll) rfl]
  rfl

end Results

end EventFinder
