import EventFinder.Proofs.Search.BestHit
import EventFinder.Search
import Mathlib.Data.Finset.Card
import Mathlib.Data.List.Nodup

/-!
# The ranking of hits

`Hit.IsRanking hits ranked` says what a ranking of some hits is: each identity of the hits once, by one of
its hits that no other one of them beats, the highest score first and then the lowest identity.
-/

set_option autoImplicit false

namespace EventFinder

namespace Hit

/-! ## The order of a ranking -/

/-- What a ranking shows of a hit. -/
def key (hit : Hit) : UInt64 × Binary32 := (hit.identity, hit.score)

/-- The order of a ranking. -/
def keyBefore (a b : UInt64 × Binary32) : Bool :=
  decide (b.2.totalKey < a.2.totalKey) ||
    decide (a.2.totalKey = b.2.totalKey) && decide (a.1 ≤ b.1)

theorem keyBefore_iff {a b : UInt64 × Binary32} :
    keyBefore a b = true ↔
      b.2.totalKey < a.2.totalKey ∨ a.2.totalKey = b.2.totalKey ∧ a.1 ≤ b.1 := by
  simp [keyBefore]

theorem keyBefore_trans (a b c : UInt64 × Binary32) (hab : keyBefore a b = true)
    (hbc : keyBefore b c = true) : keyBefore a c = true := by
  rw [keyBefore_iff] at hab hbc ⊢
  rcases hab with hab | ⟨hab, hid⟩
  · rcases hbc with hbc | ⟨hbc, -⟩
    · exact Or.inl (by omega)
    · exact Or.inl (by omega)
  · rcases hbc with hbc | ⟨hbc, hid'⟩
    · exact Or.inl (by omega)
    · exact Or.inr ⟨hab.trans hbc, UInt64.le_trans hid hid'⟩

theorem keyBefore_total (a b : UInt64 × Binary32) : (keyBefore a b || keyBefore b a) = true := by
  rw [Bool.or_eq_true, keyBefore_iff, keyBefore_iff]
  rcases Int.lt_trichotomy a.2.totalKey b.2.totalKey with h | h | h
  · exact Or.inr (Or.inl h)
  · rcases UInt64.le_total a.1 b.1 with hid | hid
    · exact Or.inl (Or.inr ⟨h, hid⟩)
    · exact Or.inr (Or.inr ⟨h.symm, hid⟩)
  · exact Or.inl (Or.inl h)

theorem keyBefore_antisymm {a b : UInt64 × Binary32} (hab : keyBefore a b = true)
    (hba : keyBefore b a = true) : a = b := by
  rw [keyBefore_iff] at hab hba
  rcases hab with hab | ⟨hscore, hid⟩
  · rcases hba with hba | ⟨hba, -⟩ <;> omega
  · rcases hba with hba | ⟨-, hid'⟩
    · omega
    · exact Prod.ext (UInt64.le_antisymm hid hid') (Binary.totalKey_inj hscore)

/-- Keys in the order of a ranking are determined by which they are. -/
theorem eq_of_perm_of_pairwise {ks ls : List (UInt64 × Binary32)} (h : ks.Perm ls)
    (hks : ks.Pairwise fun a b => keyBefore a b = true)
    (hls : ls.Pairwise fun a b => keyBefore a b = true) : ks = ls :=
  List.Perm.eq_of_pairwise (fun _ _ _ _ => keyBefore_antisymm) hks hls h

/-! ## Rankings -/

theorem ranking_perm (segments : List (List Hit)) :
    (ranking segments).Perm (bestOfSegments segments) :=
  List.mergeSort_perm _ _

theorem nodup_identity_ranking (segments : List (List Hit)) :
    ((ranking segments).map identity).Nodup :=
  ((ranking_perm segments).map identity).nodup_iff.2 (nodup_identity_bestOfSegments segments)

theorem pairwise_ranking (segments : List (List Hit)) :
    (ranking segments).Pairwise fun a b => keyBefore a.key b.key = true :=
  List.pairwise_mergeSort (fun a b c => keyBefore_trans a.key b.key c.key)
    (fun a b => keyBefore_total a.key b.key) _

/-- The hits that are ranked are those that are kept. -/
theorem mem_ranking_iff {segments : List (List Hit)} {hit : Hit} :
    hit ∈ ranking segments ↔ heldFor hit.identity (bestOfSegments segments) = some hit := by
  rw [heldFor_eq_some_iff (nodup_identity_bestOfSegments segments), (ranking_perm segments).mem_iff]
  exact (and_iff_left rfl).symm

/-- What is kept of the hits of some segments is one of them. -/
theorem mem_of_heldFor {segments : List (List Hit)} {i : UInt64} {best : Hit}
    (hbest : heldFor i (bestOfSegments segments) = some best) :
    best ∈ ofIdentity i segments.flatten := by
  rw [heldFor_bestOfSegments] at hbest
  obtain ⟨hits, hhits, hmem⟩ := List.mem_flatMap.1 (champion_mem hbest)
  rw [Option.mem_toList] at hmem
  obtain ⟨hmem, hid⟩ := mem_ofIdentity.1 (champion_mem hmem)
  exact mem_ofIdentity.2 ⟨List.mem_flatten.2 ⟨hits, hhits, hmem⟩, hid⟩

/-- If all hits of an identity have numbers for scores, none of them beats the one that is kept. -/
theorem unbeaten_of_heldFor {segments : List (List Hit)} {i : UInt64} {best : Hit}
    (hnumber : ∀ hit ∈ ofIdentity i segments.flatten, hit.score.isNaN = false)
    (hbest : heldFor i (bestOfSegments segments) = some best) :
    Unbeaten (ofIdentity i segments.flatten) best := by
  rw [heldFor_bestOfSegments] at hbest
  intro other hother
  obtain ⟨hmem, hid⟩ := mem_ofIdentity.1 hother
  obtain ⟨hits, hhits, hother⟩ := List.mem_flatten.1 hmem
  -- The champion of the segment that the other hit is in comes between the two.
  obtain ⟨leader, hleader⟩ := exists_champion (mem_ofIdentity.2 ⟨hother, hid⟩)
  have habove : best.score.lt leader.score = false := by
    exact champion_unbeaten hbest leader
      (List.mem_flatMap.2 ⟨hits, hhits, Option.mem_toList.2 hleader⟩)
  have hbetween : leader.score.lt other.score = false :=
    champion_unbeaten hleader other (mem_ofIdentity.2 ⟨hother, hid⟩)
  have hnum : leader.score.isNaN = false := by
    obtain ⟨hin, hlid⟩ := mem_ofIdentity.1 (champion_mem hleader)
    exact hnumber leader (mem_ofIdentity.2 ⟨List.mem_flatten.2 ⟨hits, hhits, hin⟩, hlid⟩)
  apply Bool.eq_false_iff.2
  intro hlt
  rw [Binary.lt_of_lt_of_not_lt hnum hlt hbetween] at habove
  cases habove

/-- Something is kept of every identity that has a hit. -/
theorem exists_heldFor {segments : List (List Hit)} {hit : Hit} (h : hit ∈ segments.flatten) :
    ∃ best, heldFor hit.identity (bestOfSegments segments) = some best := by
  obtain ⟨hits, hhits, hmem⟩ := List.mem_flatten.1 h
  obtain ⟨leader, hleader⟩ := exists_champion (mem_ofIdentity.2 ⟨hmem, rfl⟩)
  have hin : leader ∈ segments.flatMap fun hits => (champion (ofIdentity hit.identity hits)).toList :=
    List.mem_flatMap.2 ⟨hits, hhits, Option.mem_toList.2 hleader⟩
  rw [heldFor_bestOfSegments]
  exact exists_champion hin

theorem nodup_map_key {ranked : List Hit} (h : (ranked.map identity).Nodup) : (ranked.map key).Nodup := by
  have hmap : (ranked.map key).map Prod.fst = ranked.map identity := by
    rw [List.map_map]
    rfl
  exact List.Nodup.of_map Prod.fst (hmap ▸ h)

/-- A ranking shows of each identity the score that is kept for it. -/
theorem mem_map_key_ranking_iff {segments : List (List Hit)} {k : UInt64 × Binary32} :
    k ∈ (ranking segments).map key ↔ (heldFor k.1 (bestOfSegments segments)).map score = some k.2 := by
  rw [List.mem_map, Option.map_eq_some_iff]
  constructor
  · rintro ⟨best, hbest, rfl⟩
    exact ⟨best, mem_ranking_iff.1 hbest, rfl⟩
  · rintro ⟨best, hbest, hscore⟩
    have hid := (mem_heldFor hbest).2
    exact ⟨best, mem_ranking_iff.2 (by rw [hid, hbest]), Prod.ext hid hscore⟩

/-- Rankings show the same if and only if for each identity the same score is kept. -/
theorem map_key_ranking_eq_iff {segments others : List (List Hit)} :
    (ranking segments).map key = (ranking others).map key ↔
      ∀ i, (heldFor i (bestOfSegments segments)).map score =
        (heldFor i (bestOfSegments others)).map score := by
  constructor
  · intro h i
    ext x
    rw [← mem_map_key_ranking_iff (k := (i, x)), h, mem_map_key_ranking_iff]
  · intro h
    refine eq_of_perm_of_pairwise ?_ (List.pairwise_map.2 (pairwise_ranking segments))
      (List.pairwise_map.2 (pairwise_ranking others))
    rw [List.perm_ext_iff_of_nodup (nodup_map_key (nodup_identity_ranking segments))
      (nodup_map_key (nodup_identity_ranking others))]
    intro k
    rw [mem_map_key_ranking_iff, mem_map_key_ranking_iff, h]

/-- The ranking shows each identity that has a hit. -/
theorem mem_identity_ranking_iff {segments : List (List Hit)} {i : UInt64} :
    i ∈ (ranking segments).map identity ↔ i ∈ segments.flatten.map identity := by
  rw [List.mem_map, List.mem_map]
  constructor
  · rintro ⟨best, hbest, rfl⟩
    obtain ⟨hmem, -⟩ := mem_ofIdentity.1 (mem_of_heldFor (mem_ranking_iff.1 hbest))
    exact ⟨best, hmem, rfl⟩
  · rintro ⟨hit, hhit, rfl⟩
    obtain ⟨best, hbest⟩ := exists_heldFor hhit
    have hid := (mem_heldFor hbest).2
    exact ⟨best, mem_ranking_iff.2 (by rw [hid, hbest]), hid⟩

/-- As many are ranked as there are identities with a hit. -/
theorem length_ranking (segments : List (List Hit)) :
    (ranking segments).length = (segments.flatten.map identity).toFinset.card := by
  -- Without repetitions, as many as there are different ones.
  have hset : ((ranking segments).map identity).toFinset =
      (segments.flatten.map identity).toFinset := by
    ext i
    rw [List.mem_toFinset, List.mem_toFinset, mem_identity_ranking_iff]
  rw [← hset, List.toFinset_card_of_nodup (nodup_identity_ranking segments), List.length_map]

/-! ## What a ranking is

The rankings of some hits are described without going through how they are collected and sorted. If the
scores are plain, the description leaves open no more than which of the best hits of an identity is shown
(`IsRanking.map_key_eq`). -/

/-- The hits `ranked` are a ranking of `hits`. -/
structure IsRanking (hits ranked : List Hit) : Prop where
  /-- Only hits are ranked, -/
  mem : ∀ best ∈ ranked, best ∈ hits
  /-- one for each identity, -/
  complete : ∀ hit ∈ hits, ∃ best ∈ ranked, best.identity = hit.identity
  nodup : (ranked.map identity).Nodup
  /-- whose score is the maximum of those of its identity, -/
  maximal : ∀ best ∈ ranked, ∀ hit ∈ hits, hit.identity = best.identity → hit.score.le best.score = true
  /-- the higher score first, and of equal scores the lower identity. -/
  ordered : ranked.Pairwise fun a b =>
    b.score.lt a.score = true ∨ a.score = b.score ∧ a.identity < b.identity

/-- Are the scores of all hits plain? -/
def Plain (hits : List Hit) : Prop := ∀ hit ∈ hits, hit.score.IsPlain

instance (hits : List Hit) : Decidable (Plain hits) :=
  inferInstanceAs (Decidable (∀ hit ∈ hits, hit.score.IsPlain))

theorem isRanking_ranking {segments : List (List Hit)} (plain : Plain segments.flatten) :
    IsRanking segments.flatten (ranking segments) where
  mem best hbest := (mem_ofIdentity.1 (mem_of_heldFor (mem_ranking_iff.1 hbest))).1
  complete hit hhit := List.mem_map.1 (mem_identity_ranking_iff.2 (List.mem_map_of_mem hhit))
  nodup := nodup_identity_ranking segments
  maximal best hbest hit hhit hid := by
    have hheld := mem_ranking_iff.1 hbest
    have hmem := (mem_ofIdentity.1 (mem_of_heldFor hheld)).1
    have hnumber : ∀ hit ∈ ofIdentity best.identity segments.flatten, hit.score.isNaN = false :=
      fun hit hhit => (plain hit (mem_ofIdentity.1 hhit).1).isNumber
    -- Of numbers, not to be beaten is to be the maximum.
    rw [Binary.le_iff_not_lt (plain hit hhit).isNumber (plain best hmem).isNumber]
    exact unbeaten_of_heldFor hnumber hheld hit (mem_ofIdentity.2 ⟨hhit, hid⟩)
  ordered := by
    have hne : (ranking segments).Pairwise fun a b => a.identity ≠ b.identity :=
      List.pairwise_map.1 (nodup_identity_ranking segments)
    refine ((pairwise_ranking segments).and hne).imp_of_mem fun {a b} ha hb hab => ?_
    -- Level hits have one score, since the total order tells all scores apart.
    have hpa := plain a (mem_ofIdentity.1 (mem_of_heldFor (mem_ranking_iff.1 ha))).1
    have hpb := plain b (mem_ofIdentity.1 (mem_of_heldFor (mem_ranking_iff.1 hb))).1
    obtain ⟨hbefore, hid⟩ := hab
    rcases keyBefore_iff.1 hbefore with hlt | ⟨heq, hle⟩
    · exact Or.inl ((Binary.lt_iff_totalKey_lt hpb hpa).2 hlt)
    · exact Or.inr ⟨Binary.totalKey_inj heq, UInt64.lt_of_le_of_ne hle hid⟩

namespace IsRanking

variable {hits ranked others : List Hit}

/-- In which order the hits are found does not matter to what their rankings are. -/
theorem of_perm (h : IsRanking hits ranked) {hits' : List Hit} (hperm : hits.Perm hits') :
    IsRanking hits' ranked where
  mem best hbest := hperm.mem_iff.1 (h.mem best hbest)
  complete hit hhit := h.complete hit (hperm.mem_iff.2 hhit)
  nodup := h.nodup
  maximal best hbest hit hhit hid := h.maximal best hbest hit (hperm.mem_iff.2 hhit) hid
  ordered := h.ordered

theorem pairwise_map_key (plain : Plain hits) (h : IsRanking hits ranked) :
    (ranked.map key).Pairwise fun a b => keyBefore a b = true := by
  rw [List.pairwise_map]
  refine h.ordered.imp_of_mem fun {a b} ha hb hab => keyBefore_iff.2 ?_
  rcases hab with hlt | ⟨hscore, hid⟩
  · exact Or.inl ((Binary.lt_iff_totalKey_lt (plain b (h.mem b hb)) (plain a (h.mem a ha))).1 hlt)
  · exact Or.inr ⟨congrArg Binary.totalKey hscore, UInt64.le_of_lt hid⟩

theorem key_mem_of_mem (plain : Plain hits) (h : IsRanking hits ranked) (h' : IsRanking hits others)
    {best : Hit} (hbest : best ∈ ranked) : best.key ∈ others.map key := by
  -- Neither of the two hits of the identity beats the other one.
  obtain ⟨other, hother, hid⟩ := h'.complete best (h.mem best hbest)
  have hp := plain best (h.mem best hbest)
  have hp' := plain other (h'.mem other hother)
  have hle := h.maximal best hbest other (h'.mem other hother) hid
  have hge := h'.maximal other hother best (h.mem best hbest) hid.symm
  rw [Binary.le_iff_not_lt hp'.isNumber hp.isNumber] at hle
  rw [Binary.le_iff_not_lt hp.isNumber hp'.isNumber] at hge
  exact List.mem_map.2 ⟨other, hother, Prod.ext hid (hp'.eq_of_not_lt hp hge hle)⟩

/-- Plain hits have one ranking, but for the payloads of hits of one identity and one score. -/
theorem map_key_eq (plain : Plain hits) (h : IsRanking hits ranked) (h' : IsRanking hits others) :
    ranked.map key = others.map key := by
  have hmem : ∀ {a b : List Hit}, IsRanking hits a → IsRanking hits b →
      ∀ k ∈ a.map key, k ∈ b.map key := by
    intro a b ha hb k hk
    obtain ⟨best, hbest, rfl⟩ := List.mem_map.1 hk
    exact key_mem_of_mem plain ha hb hbest
  refine eq_of_perm_of_pairwise ?_ (h.pairwise_map_key plain) (h'.pairwise_map_key plain)
  rw [List.perm_ext_iff_of_nodup (nodup_map_key h.nodup) (nodup_map_key h'.nodup)]
  exact fun k => ⟨hmem h h' k, hmem h' h k⟩

end IsRanking

end Hit

end EventFinder
