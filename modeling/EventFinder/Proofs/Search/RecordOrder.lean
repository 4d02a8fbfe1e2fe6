import EventFinder.Proofs.Search.Answer
import EventFinder.Proofs.Search.Hits
import EventFinder.Proofs.Store.RecordOrder

/-!
# The order of the records of an identity

Of the hits of one identity the champion is kept, and which one that is can depend on their order. It does
not if the hits are *settled*: all that are beaten by none have one score (`Hit.SettledFor`). That is so if
all scores are equal, or if all are numbers and the two zeros do not share the top (`settledFor_iff`).

Hits that are settled give one answer in any order (`outline_search_congr`), and for hits that are not there
are two orders of the records with different answers (`outline_search_put_iff`). So being settled is the
exact condition (`record_order_iff_settled`). The number of matches does not depend on the order in any
case.
-/

set_option autoImplicit false

namespace EventFinder

namespace Hit

/-- All hits that none beats have one score. -/
def SettledFor (hits : List Hit) : Prop :=
  ∀ a ∈ hits, ∀ b ∈ hits, Unbeaten hits a → Unbeaten hits b → a.score = b.score

/-- The hits of every identity are settled. -/
def Settled (hits : List Hit) : Prop := ∀ i, SettledFor (ofIdentity i hits)

theorem unbeaten_of_perm {hits hits' : List Hit} (h : hits.Perm hits') {hit : Hit} :
    Unbeaten hits hit ↔ Unbeaten hits' hit :=
  ⟨fun hu other hother => hu other (h.mem_iff.2 hother),
    fun hu other hother => hu other (h.mem_iff.1 hother)⟩

theorem perm_ofIdentity {hits hits' : List Hit} (h : hits.Perm hits') (i : UInt64) :
    (ofIdentity i hits).Perm (ofIdentity i hits') :=
  h.filter _

theorem settledFor_of_perm {hits hits' : List Hit} (h : hits.Perm hits') (hs : SettledFor hits) :
    SettledFor hits' := fun a ha b hb hua hub =>
  hs a (h.mem_iff.2 ha) b (h.mem_iff.2 hb) ((unbeaten_of_perm h).2 hua) ((unbeaten_of_perm h).2 hub)

/-- What is no number is beaten by none, and neither is the best of the numbers. So hits that are settled
have no number among their scores, or nothing else. -/
theorem settledFor_cases {hits : List Hit} (h : SettledFor hits) :
    (∀ a ∈ hits, ∀ b ∈ hits, a.score = b.score) ∨ ∀ hit ∈ hits, hit.score.isNaN = false := by
  by_cases hnan : ∃ hit ∈ hits, hit.score.isNaN = true
  · obtain ⟨odd, hodd, hnan⟩ := hnan
    have hunbeaten : ∀ hit : Hit, hit.score.isNaN = true → Unbeaten hits hit := fun hit hhit other _ =>
      Binary.lt_of_isNaN_left hhit other.score
    -- The champion of the numbers would be beaten by none and differ from what is no number.
    have hall : ∀ hit ∈ hits, hit.score.isNaN = true := by
      intro hit hhit
      by_contra hnumber
      have hmem : hit ∈ hits.filter fun a => !a.score.isNaN := by
        rw [List.mem_filter]
        exact ⟨hhit, by simpa using hnumber⟩
      obtain ⟨best, hbest⟩ := exists_champion hmem
      obtain ⟨hbestmem, hbestnumber⟩ := List.mem_filter.1 (champion_mem hbest)
      have hbestunbeaten : Unbeaten hits best := by
        intro other hother
        cases hother' : other.score.isNaN with
        | true => exact Binary.lt_of_isNaN_right best.score hother'
        | false =>
            exact champion_unbeaten hbest other (List.mem_filter.2 ⟨hother, by simp [hother']⟩)
      have heq := h odd hodd best hbestmem (hunbeaten odd hnan) hbestunbeaten
      rw [← heq, hnan] at hbestnumber
      cases hbestnumber
    exact Or.inl fun a ha b hb => h a ha b hb (hunbeaten a (hall a ha)) (hunbeaten b (hall b hb))
  · exact Or.inr fun hit hhit => by
      by_contra hhit'
      exact hnan ⟨hit, hhit, by simpa using hhit'⟩

/-- What is kept of settled hits has the score of all that none beats. -/
theorem score_eq_of_heldFor {segments : List (List Hit)} {i : UInt64} {best : Hit}
    (hsettled : SettledFor (ofIdentity i segments.flatten))
    (hbest : heldFor i (bestOfSegments segments) = some best) {other : Hit}
    (hother : other ∈ ofIdentity i segments.flatten)
    (hunbeaten : Unbeaten (ofIdentity i segments.flatten) other) : best.score = other.score := by
  have hmem := mem_of_heldFor hbest
  rcases settledFor_cases hsettled with heq | hnumber
  · exact heq best hmem other hother
  · exact hsettled best hmem other hother (unbeaten_of_heldFor hnumber hbest) hunbeaten

/-- Settled hits leave one score for their identity, whatever segments they are in and in whatever
order. -/
theorem heldFor_score_congr {segments others : List (List Hit)} {i : UInt64}
    (hperm : segments.flatten.Perm others.flatten)
    (hsettled : SettledFor (ofIdentity i segments.flatten)) :
    (heldFor i (bestOfSegments segments)).map score = (heldFor i (bestOfSegments others)).map score := by
  have hpermi := perm_ofIdentity hperm i
  cases hchampion : champion (ofIdentity i segments.flatten) with
  | none =>
      have hnil := (champion_eq_none_iff _).1 hchampion
      have hnone : ∀ {ss : List (List Hit)}, ofIdentity i ss.flatten = [] →
          heldFor i (bestOfSegments ss) = none := fun {ss} hss => by
        apply Option.eq_none_iff_forall_ne_some.2
        intro best hbest
        have hmem := mem_of_heldFor hbest
        rw [hss] at hmem
        cases hmem
      rw [hnone hnil, hnone (List.nil_perm.1 (hnil ▸ hpermi))]
  | some top =>
      -- Both keep a hit with the score of one that none beats.
      have htop := champion_mem hchampion
      have hunbeaten := champion_unbeaten hchampion
      obtain ⟨hin, hid⟩ := mem_ofIdentity.1 htop
      obtain ⟨best, hbest⟩ := exists_heldFor hin
      obtain ⟨best', hbest'⟩ := exists_heldFor (hperm.mem_iff.1 hin)
      rw [hid] at hbest hbest'
      rw [hbest, hbest', Option.map_some, Option.map_some, score_eq_of_heldFor hsettled hbest htop hunbeaten,
        score_eq_of_heldFor (settledFor_of_perm hpermi hsettled) hbest' (hpermi.mem_iff.1 htop)
          ((unbeaten_of_perm hpermi).1 hunbeaten)]

/-- Hits are settled if all that are beaten by none have the score that is kept. -/
theorem settledFor_of_forall {hits : List Hit} {kept : Option Binary32}
    (h : ∀ a ∈ hits, Unbeaten hits a → kept = some a.score) : SettledFor hits := by
  intro a ha b hb hua hub
  have hab := (h a ha hua).symm.trans (h b hb hub)
  exact Option.some.inj hab

/-- Collecting settled hits leaves one score for each identity in any order; of hits that are not settled
there are two orders that leave two scores. -/
theorem settled_iff_bestOf (hits : List Hit) :
    Settled hits ↔ ∀ hits', hits'.Perm hits → ∀ i,
      (heldFor i (bestOf hits')).map score = (heldFor i (bestOf hits)).map score := by
  constructor
  · intro h hits' hperm i
    have hflat : [hits].flatten.Perm [hits'].flatten := by
      simpa using hperm.symm
    have hsettled : SettledFor (ofIdentity i [hits].flatten) := by
      simpa using h i
    rw [← heldFor_bestOfSegments_singleton, ← heldFor_bestOfSegments_singleton,
      heldFor_score_congr hflat hsettled]
  · intro h i
    have hkept : ∀ a ∈ ofIdentity i hits, Unbeaten (ofIdentity i hits) a →
        (heldFor i (bestOf hits)).map score = some a.score := by
      intro a ha hunbeaten
      obtain ⟨hin, hid⟩ := mem_ofIdentity.1 ha
      have hperm := List.perm_cons_erase hin
      -- With `a` in front nothing takes its place.
      have hfront : ofIdentity i (a :: hits.erase a) = a :: ofIdentity i (hits.erase a) := by
        rw [ofIdentity, List.filter_cons_of_pos (by simpa using hid), ofIdentity]
      have hfirst : heldFor i (bestOf (a :: hits.erase a)) = some a := by
        rw [heldFor_bestOf, hfront]
        apply champion_cons_of_unbeaten
        intro other hother
        apply hunbeaten other
        rw [(perm_ofIdentity hperm i).mem_iff, hfront]
        exact List.mem_cons_of_mem _ hother
      rw [← h _ hperm.symm i, hfirst]
      rfl
    exact settledFor_of_forall hkept

/-- Settled hits have one score, or numbers for scores whose maximum is not both zeros. -/
theorem settledFor_iff {hits : List Hit} :
    SettledFor hits ↔
      (∀ a ∈ hits, ∀ b ∈ hits, a.score = b.score) ∨
        (∀ hit ∈ hits, hit.score.isNaN = false) ∧
          ¬ ∃ a ∈ hits, ∃ b ∈ hits, Unbeaten hits a ∧ a.score = ⟨false, 0⟩ ∧ b.score = ⟨true, 0⟩ := by
  constructor
  · intro h
    rcases settledFor_cases h with heq | hnumber
    · exact Or.inl heq
    · refine Or.inr ⟨hnumber, ?_⟩
      rintro ⟨a, ha, b, hb, hunbeaten, hascore, hbscore⟩
      have hub : Unbeaten hits b := fun other hother => by
        have hother' := hunbeaten other hother
        rw [hascore] at hother'
        rw [hbscore]
        exact hother'
      have hscore := h a ha b hb hunbeaten hub
      rw [hascore, hbscore] at hscore
      cases hscore
  · rintro (heq | ⟨hnumber, hzeros⟩) a ha b hb hua hub
    · exact heq a ha b hb
    · rcases Binary.eq_or_zeros_of_not_lt (hnumber a ha) (hnumber b hb) (hua b hb) (hub a ha) with
        hscore | ⟨hascore, hbscore⟩ | ⟨hascore, hbscore⟩
      · exact hscore
      · exact absurd ⟨a, ha, b, hb, hua, hascore, hbscore⟩ hzeros
      · exact absurd ⟨b, hb, a, ha, hub, hbscore, hascore⟩ hzeros

end Hit

namespace Results

theorem settledFor_counted {scoring : Bool} {hits : List Hit} {i : UInt64}
    (h : scoring = true → Hit.SettledFor (Hit.ofIdentity i hits)) :
    Hit.SettledFor (Hit.ofIdentity i (hits.map (Hit.counted scoring))) := by
  cases scoring with
  | true => simpa [Hit.counted_true] using h rfl
  | false =>
      rw [Hit.ofIdentity_counted]
      intro a ha b hb _ _
      obtain ⟨a', -, rfl⟩ := List.mem_map.1 ha
      obtain ⟨b', -, rfl⟩ := List.mem_map.1 hb
      rfl

/-- The same hits in two orders have one ranking, but for payloads, if for each identity they are settled
or in the same order. -/
theorem map_key_rankingOf_congr (scoring : Bool) {segments others : List (List Hit)}
    (hperm : segments.flatten.Perm others.flatten)
    (h : ∀ i, (scoring = true → Hit.SettledFor (Hit.ofIdentity i segments.flatten)) ∨
      segments.map (Hit.ofIdentity i) = others.map (Hit.ofIdentity i)) :
    (rankingOf scoring segments).map Hit.key = (rankingOf scoring others).map Hit.key := by
  apply Hit.map_key_ranking_eq_iff.2
  intro i
  rcases h i with hsettled | hsame
  · apply Hit.heldFor_score_congr
    · rw [flatten_counted, flatten_counted]
      exact hperm.map _
    · rw [flatten_counted]
      exact settledFor_counted hsettled
  · have hcounted : ∀ ss : List (List Hit),
        (ss.map fun hits => hits.map (Hit.counted scoring)).map (Hit.ofIdentity i) =
          (ss.map (Hit.ofIdentity i)).map fun hits => hits.map (Hit.counted scoring) := fun ss => by
      rw [List.map_map, List.map_map]
      exact List.map_congr_left fun hits _ => Hit.ofIdentity_counted i hits scoring
    rw [Hit.heldFor_bestOfSegments_congr]
    rw [hcounted, hcounted, hsame]

end Results

/-! ## Snapshots that differ in the order of records

Their hits are the same but for the order, so the answers are, as soon as the same scores are kept. -/

namespace Snapshot

variable {i : UInt64} {s s' : Snapshot}

/-- The hits of the other identities are the same. -/
theorem DifferInOrder.map_ofIdentity_hits (h : DifferInOrder i s s') (plan : Plan Unit) {j : UInt64}
    (hj : j ≠ i) :
    (s.hits plan).map (Hit.ofIdentity j) = (s'.hits plan).map (Hit.ofIdentity j) := by
  rw [Snapshot.map_ofIdentity_hits, Snapshot.map_ofIdentity_hits, h.map_liveOf hj, rate_congr h.perm]

/-- What two searches have in common if it is what their hits lead to. -/
theorem search_map_congr {α : Type} {f : Results → α} {request : Request}
    (h : ∀ plan, Snapshot.plan request.query = .ok plan →
      f (Results.ofHits request (s.hits plan)) = f (Results.ofHits request (s'.hits plan))) :
    (s.search request).map f = (s'.search request).map f := by
  cases hplan : Snapshot.plan request.query with
  | error e => rw [search_of_error hplan, search_of_error hplan]
  | ok plan => rw [search_of_plan hplan, search_of_plan hplan, Except.map, Except.map, h plan hplan]

/-- How many match does not depend on the order of the documents. -/
theorem totalMatches_search_congr (h : s.segments.flatten.Perm s'.segments.flatten) (request : Request) :
    (s.search request).map Results.totalMatches = (s'.search request).map Results.totalMatches := by
  apply search_map_congr
  intro plan _
  have hids := List.toFinset_eq_of_perm _ _ ((hits_perm h plan).map Hit.identity)
  rw [Results.ofHits_eq, Results.ofHits_eq, Results.length_rankingOf, Results.length_rankingOf, hids]

/-- If the hits are settled, the answer does not depend on the order of the documents. -/
theorem outline_search_congr (h : s.segments.flatten.Perm s'.segments.flatten) (request : Request)
    (hsettled : request.scoring = true → ∀ plan, Snapshot.plan request.query = .ok plan →
      Hit.Settled (s.hits plan).flatten) :
    (s.search request).map Results.outline = (s'.search request).map Results.outline := by
  apply search_map_congr
  intro plan hplan
  apply Results.outline_ofHits_congr
  apply Results.map_key_rankingOf_congr request.scoring (hits_perm h plan)
  intro i
  exact Or.inl fun hscoring => hsettled hscoring plan hplan i

end Snapshot

/-! ## Settled hits are the exact condition

The score that is kept for an identity whose hits are not settled can be changed: any hit that none beats is
kept if its record comes first among those of the identity. -/

namespace Snapshot

variable {i : UInt64} {s s' : Snapshot} {plan : Plan Unit}

/-- The hits of an identity are settled if the score that is kept for it stays when any of its records is
moved to the front: there a hit that none beats is kept. -/
theorem settledFor_of_fronts
    (h : ∀ r ∈ s.recordsOf i, ∃ (s' : Snapshot) (rest : List Record), s'.recordsOf i = r :: rest ∧
      s.segments.flatten.Perm s'.segments.flatten ∧
      (Hit.heldFor i (Hit.bestOfSegments (s.hits plan))).map Hit.score =
        (Hit.heldFor i (Hit.bestOfSegments (s'.hits plan))).map Hit.score) :
    Hit.SettledFor (Hit.ofIdentity i (s.hits plan).flatten) := by
  have hkept : ∀ hit ∈ Hit.ofIdentity i (s.hits plan).flatten,
      Hit.Unbeaten (Hit.ofIdentity i (s.hits plan).flatten) hit →
        (Hit.heldFor i (Hit.bestOfSegments (s.hits plan))).map Hit.score = some hit.score := by
    intro hit hhit hunbeaten
    have hrecords := hhit
    rw [ofIdentity_hits, List.mem_filterMap] at hrecords
    obtain ⟨r, hr, hof⟩ := hrecords
    obtain ⟨s', rest, hfront, hperm, hscore⟩ := h r hr
    rw [rate_congr hperm] at hof
    have hfirst := ofIdentity_hits s' plan i
    rw [hfront, List.filterMap_cons, hof] at hfirst
    have hkept := Hit.heldFor_of_first_unbeaten hfirst
      ((Hit.unbeaten_of_perm (Hit.perm_ofIdentity (hits_perm hperm plan) i)).1 hunbeaten)
    rw [hscore, hkept]
    rfl
  exact Hit.settledFor_of_forall hkept

end Snapshot

namespace Session

variable {i : UInt64} {settings : Settings} {before after : List Operation} {records : List Record}
  {query : Query}

/-- The order in which records are written shows in no answer to a query exactly if their hits are
settled. -/
theorem outline_search_put_iff (hlasts : Operation.lasts after = true)
    (hspares : ∀ op ∈ after, op.Spares i) :
    (∀ records', records'.Perm records → ∀ request : Request, request.query = query →
        ((shown settings (before ++ .put i records' :: after)).search request).map Results.outline =
          ((shown settings (before ++ .put i records :: after)).search request).map Results.outline) ↔
      ∀ plan, Snapshot.plan query = .ok plan → Hit.SettledFor (Hit.ofIdentity i
        ((shown settings (before ++ .put i records :: after)).hits plan).flatten) := by
  constructor
  · intro h plan hplan
    apply Snapshot.settledFor_of_fronts
    intro r hr
    rw [recordsOf_shown_put settings before hlasts hspares] at hr
    obtain ⟨r', hr', rfl⟩ := List.mem_map.1 hr
    -- The other store is the one in which this record is written first.
    have hperm := List.perm_cons_erase hr'
    refine ⟨shown settings (before ++ .put i (r' :: records.erase r') :: after), _,
      recordsOf_shown_put settings before hlasts hspares,
      (differInOrder_shown settings before after hperm).perm, ?_⟩
    have hkeys : (Results.rankingOf true
        ((shown settings (before ++ .put i records :: after)).hits plan)).map Hit.key =
      (Results.rankingOf true ((shown settings
        (before ++ .put i (r' :: records.erase r') :: after)).hits plan)).map Hit.key := by
      apply Results.map_key_eq_of_outline query
      intro request hquery _
      have hanswer := h _ hperm.symm request hquery
      rw [← hquery] at hplan
      rw [Snapshot.search_of_plan hplan, Snapshot.search_of_plan hplan] at hanswer
      exact (Except.ok.inj hanswer).symm
    rw [Results.rankingOf_true, Results.rankingOf_true] at hkeys
    exact Hit.map_key_ranking_eq_iff.1 hkeys i
  · intro h records' hperm request hquery
    have hdiffer : Snapshot.DifferInOrder i (shown settings (before ++ .put i records :: after))
        (shown settings (before ++ .put i records' :: after)) :=
      differInOrder_shown settings before after hperm.symm
    apply Snapshot.search_map_congr
    intro plan hplan
    apply Results.outline_ofHits_congr
    refine (Results.map_key_rankingOf_congr request.scoring (Snapshot.hits_perm hdiffer.perm plan)
      fun j => ?_).symm
    -- Only the hits of the one identity are in another order.
    by_cases hj : j = i
    · exact Or.inl fun _ => hj ▸ h plan (hquery ▸ hplan)
    · exact Or.inr (hdiffer.map_ofIdentity_hits plan hj)

end Session

/-- Which of its hits an identity is shown by depends on their order, unless they are settled. Collecting
hits leaves the same scores in every order exactly if they are settled, which they are if all of an identity
have one score, or have numbers whose maximum is not both zeros. How many match never depends on the order
of the records in a store, and no answer does whose hits are settled; conversely the order in which records
are written shows in an answer to a query for which they are not. -/
theorem record_order_iff_settled (hits : List Hit) (settings : Settings) (before after : List Operation)
    (i : UInt64) (records : List Record) (query : Query) :
    (Hit.Settled hits ↔ ∀ hits', hits'.Perm hits → ∀ j,
      (Hit.heldFor j (Hit.bestOf hits')).map Hit.score =
        (Hit.heldFor j (Hit.bestOf hits)).map Hit.score) ∧
    (Hit.SettledFor hits ↔
      (∀ a ∈ hits, ∀ b ∈ hits, a.score = b.score) ∨
        (∀ hit ∈ hits, hit.score.isNaN = false) ∧
          ¬ ∃ a ∈ hits, ∃ b ∈ hits,
            Hit.Unbeaten hits a ∧ a.score = ⟨false, 0⟩ ∧ b.score = ⟨true, 0⟩) ∧
    (∀ (s s' : Snapshot) (request : Request), s.segments.flatten.Perm s'.segments.flatten →
      (s.search request).map Results.totalMatches = (s'.search request).map Results.totalMatches ∧
      ((request.scoring = true → ∀ plan, Snapshot.plan request.query = .ok plan →
          Hit.Settled (s.hits plan).flatten) →
        (s.search request).map Results.outline = (s'.search request).map Results.outline)) ∧
    (Operation.lasts after = true → (∀ op ∈ after, op.Spares i) →
      ((∀ records', records'.Perm records → ∀ request : Request, request.query = query →
          ((Session.shown settings (before ++ .put i records' :: after)).search request).map
              Results.outline =
            ((Session.shown settings (before ++ .put i records :: after)).search request).map
              Results.outline) ↔
        ∀ plan, Snapshot.plan query = .ok plan → Hit.SettledFor (Hit.ofIdentity i
          ((Session.shown settings (before ++ .put i records :: after)).hits plan).flatten))) := by
  refine ⟨Hit.settled_iff_bestOf hits, Hit.settledFor_iff, fun s s' request hperm => ⟨?_, ?_⟩, ?_⟩
  · exact Snapshot.totalMatches_search_congr hperm request
  · exact Snapshot.outline_search_congr hperm request
  · intro hlasts hspares
    exact Session.outline_search_put_iff hlasts hspares

/-- A hit whose score is no number is kept if it comes first and given up if it comes second. -/
theorem not_settled_of_no_number : ¬ Hit.Settled [⟨1, .quiet false, ""⟩, ⟨1, .one, ""⟩] := by
  intro hsettled
  obtain ⟨hcollected, -⟩ := record_order_iff_settled [⟨1, .quiet false, ""⟩, ⟨1, .one, ""⟩]
    .standard [] [] 1 [] .matchAll
  have hscores := hcollected.1 hsettled [⟨1, .one, ""⟩, ⟨1, .quiet false, ""⟩] (List.Perm.swap ..) 1
  revert hscores
  decide +kernel

end EventFinder
