import EventFinder.Proofs.Number.Order
import EventFinder.Search.Ranking

/-!
# The best hit of each identity

Collecting hits works on each identity by itself. The hits of one identity are gone through in order, and
one is exchanged for a later one only if the score of that one is higher: what is left is their *champion*.
`heldFor_bestOf` says that collecting keeps the champion of each identity, and `heldFor_bestOfSegments`
that over several segments it keeps the champion of the champions.

No score is above that of a champion (`champion_unbeaten`). With scores that are no numbers there can be
several hits of which that is true, and then the order decides; the first hit is the champion whenever it
is one of them (`champion_cons_of_unbeaten`).
-/

set_option autoImplicit false

namespace EventFinder

namespace Hit

/-- The hits of an identity. -/
def ofIdentity (i : UInt64) (hits : List Hit) : List Hit :=
  hits.filter fun hit => decide (hit.identity = i)

/-- The hit of an identity among best hits, if it has one. -/
def heldFor (i : UInt64) (best : List Hit) : Option Hit :=
  best.find? fun hit => decide (hit.identity = i)

/-- The hit that is kept after a further one. -/
def challenge : Option Hit → Hit → Option Hit
  | none, candidate => some candidate
  | some held, candidate => some (held.better candidate)

/-- The hit that is kept in the end. -/
def champion (hits : List Hit) : Option Hit := hits.foldl challenge none

/-- No score is above that of the hit. -/
def Unbeaten (hits : List Hit) (hit : Hit) : Prop := ∀ other ∈ hits, hit.score.lt other.score = false

theorem mem_ofIdentity {i : UInt64} {hits : List Hit} {hit : Hit} :
    hit ∈ ofIdentity i hits ↔ hit ∈ hits ∧ hit.identity = i := by
  rw [ofIdentity, List.mem_filter, decide_eq_true_eq]

/-! ## Champions -/

theorem champion_cons (first : Hit) (rest : List Hit) :
    champion (first :: rest) = rest.foldl challenge (some first) := rfl

theorem better_of_not_lt {held candidate : Hit} (h : held.score.lt candidate.score = false) :
    held.better candidate = held := by
  simp [better, h]

theorem better_of_lt {held candidate : Hit} (h : held.score.lt candidate.score = true) :
    held.better candidate = candidate := by
  simp [better, h]

theorem identity_better {held candidate : Hit} (h : held.identity = candidate.identity) :
    (held.better candidate).identity = held.identity := by
  rw [better]
  split
  · exact h.symm
  · rfl

/-- A first hit that is beaten by no other is kept. -/
theorem champion_cons_of_unbeaten {first : Hit} {rest : List Hit} (h : Unbeaten rest first) :
    champion (first :: rest) = some first := by
  rw [champion_cons]
  induction rest with
  | nil => rfl
  | cons candidate rest ih =>
      rw [List.foldl_cons, challenge, better_of_not_lt (h candidate List.mem_cons_self)]
      exact ih fun other hother => h other (List.mem_cons_of_mem _ hother)

/-- The champion is one of the hits, and none of them beats it. -/
theorem champion_cons_spec (first : Hit) (rest : List Hit) :
    ∃ hit, champion (first :: rest) = some hit ∧ hit ∈ first :: rest ∧
      Unbeaten (first :: rest) hit := by
  induction rest generalizing first with
  | nil =>
      refine ⟨first, rfl, List.mem_cons_self, fun other hother => ?_⟩
      rw [List.mem_singleton.1 hother]
      exact Binary.lt_irrefl _
  | cons candidate rest ih =>
      cases hlt : first.score.lt candidate.score with
      | true =>
          obtain ⟨hit, hhit, hmem, hunbeaten⟩ := ih candidate
          refine ⟨hit, ?_, List.mem_cons_of_mem _ hmem, fun other hother => ?_⟩
          · rw [champion_cons, List.foldl_cons, challenge, better_of_lt hlt, ← champion_cons, hhit]
          · rcases List.mem_cons.1 hother with rfl | hother
            · -- Were it below the first hit, it would be below the candidate.
              apply Bool.eq_false_iff.2
              intro hbeaten
              have hcandidate := hunbeaten candidate List.mem_cons_self
              rw [Binary.lt_trans hbeaten hlt] at hcandidate
              cases hcandidate
            · exact hunbeaten other hother
      | false =>
          cases hnan : first.score.isNaN with
          | true =>
              -- What is no number is never exchanged.
              have hall : ∀ hits : List Hit, Unbeaten hits first := fun _ other _ =>
                Binary.lt_of_isNaN_left hnan other.score
              exact ⟨first, champion_cons_of_unbeaten (hall _), List.mem_cons_self, hall _⟩
          | false =>
              obtain ⟨hit, hhit, hmem, hunbeaten⟩ := ih first
              refine ⟨hit, ?_, ?_, fun other hother => ?_⟩
              · rw [champion_cons, List.foldl_cons, challenge, better_of_not_lt hlt, ← champion_cons,
                  hhit]
              · exact List.mem_cons.2 ((List.mem_cons.1 hmem).imp_right (List.mem_cons_of_mem _))
              · rcases List.mem_cons.1 hother with rfl | hother
                · exact hunbeaten other List.mem_cons_self
                · rcases List.mem_cons.1 hother with rfl | hother
                  · -- Were it below the candidate, it would be below the first hit.
                    apply Bool.eq_false_iff.2
                    intro hbeaten
                    have hfirst := hunbeaten first List.mem_cons_self
                    rw [Binary.lt_of_lt_of_not_lt hnan hbeaten hlt] at hfirst
                    cases hfirst
                  · exact hunbeaten other (List.mem_cons_of_mem _ hother)

theorem champion_eq_none_iff (hits : List Hit) : champion hits = none ↔ hits = [] := by
  cases hits with
  | nil => simp [champion]
  | cons first rest =>
      obtain ⟨hit, hhit, -⟩ := champion_cons_spec first rest
      simp [hhit]

theorem exists_champion {hits : List Hit} {hit : Hit} (h : hit ∈ hits) :
    ∃ best, champion hits = some best := by
  apply Option.ne_none_iff_exists'.1
  intro hnone
  rw [(champion_eq_none_iff hits).1 hnone] at h
  cases h

theorem champion_mem {hits : List Hit} {hit : Hit} (h : champion hits = some hit) : hit ∈ hits := by
  cases hits with
  | nil => cases h
  | cons first rest =>
      obtain ⟨hit', hhit', hmem, -⟩ := champion_cons_spec first rest
      rw [hhit', Option.some.injEq] at h
      exact h ▸ hmem

theorem champion_unbeaten {hits : List Hit} {hit : Hit} (h : champion hits = some hit) :
    Unbeaten hits hit := by
  cases hits with
  | nil => cases h
  | cons first rest =>
      obtain ⟨hit', hhit', -, hunbeaten⟩ := champion_cons_spec first rest
      rw [hhit', Option.some.injEq] at h
      exact h ▸ hunbeaten

/-! ## Collecting hits -/

theorem mem_heldFor {i : UInt64} {best : List Hit} {hit : Hit} (h : heldFor i best = some hit) :
    hit ∈ best ∧ hit.identity = i :=
  ⟨List.mem_of_find?_eq_some h, by simpa using List.find?_some h⟩

/-- A further hit is met by what is held for its identity, and by nothing else. -/
theorem heldFor_keepBest (i : UInt64) (best : List Hit) (candidate : Hit) :
    heldFor i (keepBest best candidate) =
      if candidate.identity = i then challenge (heldFor i best) candidate else heldFor i best := by
  induction best with
  | nil => by_cases hi : candidate.identity = i <;> simp [keepBest, heldFor, challenge, hi]
  | cons held rest ih =>
      rw [keepBest]
      by_cases hsame : held.identity = candidate.identity
      · have hbetter := identity_better hsame
        rw [if_pos hsame]
        by_cases hi : candidate.identity = i
        · simp [heldFor, challenge, hbetter, hsame, hi]
        · simp [heldFor, hbetter, hsame, hi]
      · rw [if_neg hsame]
        by_cases hheld : held.identity = i
        · have hi : ¬ candidate.identity = i := fun h => hsame (hheld.trans h.symm)
          simp [heldFor, hheld, hi]
        · simpa [heldFor, hheld] using ih

theorem heldFor_foldl_keepBest (i : UInt64) (hits best : List Hit) :
    heldFor i (hits.foldl keepBest best) = (ofIdentity i hits).foldl challenge (heldFor i best) := by
  induction hits generalizing best with
  | nil => rfl
  | cons hit rest ih =>
      rw [List.foldl_cons, ih, heldFor_keepBest, ofIdentity, ofIdentity]
      by_cases hi : hit.identity = i
      · simp [hi]
      · simp [hi]

/-- Collecting keeps the champion of each identity. -/
theorem heldFor_bestOf (i : UInt64) (hits : List Hit) :
    heldFor i (bestOf hits) = champion (ofIdentity i hits) :=
  heldFor_foldl_keepBest i hits []

/-- A further hit changes which identities are held only if it is the first of its own. -/
theorem map_identity_keepBest (best : List Hit) (candidate : Hit) :
    (keepBest best candidate).map identity =
      if candidate.identity ∈ best.map identity then best.map identity
      else best.map identity ++ [candidate.identity] := by
  induction best with
  | nil => simp [keepBest]
  | cons held rest ih =>
      rw [keepBest]
      by_cases hsame : held.identity = candidate.identity
      · simp [hsame, identity_better hsame]
      · by_cases hmem : candidate.identity ∈ rest.map identity
        · rw [if_pos hmem] at ih
          simp [hsame, ih, List.mem_map.1 hmem]
        · rw [if_neg hmem] at ih
          rw [if_neg hsame, List.map_cons, ih, List.map_cons, if_neg]
          · rfl
          · exact List.not_mem_cons_of_ne_of_not_mem (Ne.symm hsame) hmem

/-- No two best hits have one identity. -/
theorem nodup_identity_bestOf (hits : List Hit) : ((bestOf hits).map identity).Nodup := by
  -- Collecting keeps identities apart, whatever it begins with.
  have hstep : ∀ (best : List Hit), (best.map identity).Nodup →
      ((hits.foldl keepBest best).map identity).Nodup := by
    induction hits with
    | nil => exact fun _ h => h
    | cons hit rest ih =>
        intro best h
        apply ih
        rw [map_identity_keepBest]
        split
        · exact h
        · rename_i hmem
          exact List.nodup_append.2 ⟨h, by simp, fun a ha b hb => by
            rintro rfl
            exact hmem (List.mem_singleton.1 hb ▸ ha)⟩
  exact hstep [] List.nodup_nil

/-- Of hits without two of one identity, those of an identity are what is held for it. -/
theorem ofIdentity_eq_heldFor {best : List Hit} (h : (best.map identity).Nodup) (i : UInt64) :
    ofIdentity i best = (heldFor i best).toList := by
  induction best with
  | nil => rfl
  | cons held rest ih =>
      rw [List.map_cons, List.nodup_cons] at h
      by_cases hi : held.identity = i
      · have hrest : ofIdentity i rest = [] := by
          rw [ofIdentity, List.filter_eq_nil_iff]
          intro hit hhit hid
          exact h.1 (List.mem_map.2 ⟨hit, hhit, by simpa [hi] using hid⟩)
        rw [ofIdentity] at hrest
        simp [ofIdentity, heldFor, hi, hrest]
      · have hrest := ih h.2
        rw [ofIdentity, heldFor] at hrest
        simp [ofIdentity, heldFor, hi, hrest]

theorem heldFor_eq_some_iff {best : List Hit} (h : (best.map identity).Nodup) {i : UInt64} {hit : Hit} :
    heldFor i best = some hit ↔ hit ∈ best ∧ hit.identity = i := by
  rw [← mem_ofIdentity, ofIdentity_eq_heldFor h, Option.mem_toList]

/-- Over several segments the champion of the champions is kept. -/
theorem heldFor_bestOfSegments (i : UInt64) (segments : List (List Hit)) :
    heldFor i (bestOfSegments segments) =
      champion (segments.flatMap fun hits => (champion (ofIdentity i hits)).toList) := by
  rw [bestOfSegments, heldFor_bestOf]
  congr 1
  induction segments with
  | nil => rfl
  | cons hits rest ih =>
      rw [List.flatMap_cons, List.flatMap_cons, ← ih, ← heldFor_bestOf,
        ← ofIdentity_eq_heldFor (nodup_identity_bestOf hits)]
      exact List.filter_append _ _

/-- A single segment is as none. -/
theorem heldFor_bestOfSegments_singleton (i : UInt64) (hits : List Hit) :
    heldFor i (bestOfSegments [hits]) = heldFor i (bestOf hits) := by
  rw [heldFor_bestOfSegments, heldFor_bestOf, List.flatMap_singleton]
  cases champion (ofIdentity i hits) with
  | none => rfl
  | some best => rfl

/-- What is held for an identity depends on its hits in each segment alone. -/
theorem heldFor_bestOfSegments_congr {i : UInt64} {segments others : List (List Hit)}
    (h : segments.map (ofIdentity i) = others.map (ofIdentity i)) :
    heldFor i (bestOfSegments segments) = heldFor i (bestOfSegments others) := by
  have hof : ∀ ss : List (List Hit), heldFor i (bestOfSegments ss) =
      champion ((ss.map (ofIdentity i)).flatMap fun hits => (champion hits).toList) := fun ss => by
    rw [heldFor_bestOfSegments, List.flatMap_map]
  rw [hof, hof, h]

/-- If none of the hits of an identity beats the first one, that one is kept. -/
theorem heldFor_of_first_unbeaten {segments : List (List Hit)} {i : UInt64} {first : Hit}
    {rest : List Hit} (hfirst : ofIdentity i segments.flatten = first :: rest)
    (hunbeaten : Unbeaten (ofIdentity i segments.flatten) first) :
    heldFor i (bestOfSegments segments) = some first := by
  rw [heldFor_bestOfSegments]
  induction segments with
  | nil => cases hfirst
  | cons hits others ih =>
      have hsplit : ofIdentity i (hits :: others).flatten =
          ofIdentity i hits ++ ofIdentity i others.flatten := List.filter_append _ _
      rw [hsplit] at hfirst hunbeaten
      rw [List.flatMap_cons]
      cases hhits : ofIdentity i hits with
      | nil =>
          -- The segment has no hit of the identity, so the first one is further on.
          rw [hhits, List.nil_append] at hfirst hunbeaten
          exact ih hfirst hunbeaten
      | cons head tail =>
          rw [hhits, List.cons_append, List.cons.injEq] at hfirst
          obtain ⟨rfl, -⟩ := hfirst
          -- The first hit is kept in its segment, and then over all segments.
          have hlocal : champion (head :: tail) = some head := by
            apply champion_cons_of_unbeaten
            intro other hother
            apply hunbeaten other
            rw [hhits]
            exact List.mem_append_left _ (List.mem_cons_of_mem _ hother)
          rw [hlocal]
          -- All other champions are hits behind it.
          apply champion_cons_of_unbeaten
          intro other hother
          apply hunbeaten other
          obtain ⟨hits', hhits', hmem⟩ := List.mem_flatMap.1 hother
          obtain ⟨hin, hid⟩ := mem_ofIdentity.1 (champion_mem (Option.mem_toList.1 hmem))
          exact List.mem_append_right _ (mem_ofIdentity.2 ⟨List.mem_flatten.2 ⟨hits', hhits', hin⟩, hid⟩)

theorem nodup_identity_bestOfSegments (segments : List (List Hit)) :
    ((bestOfSegments segments).map identity).Nodup :=
  nodup_identity_bestOf _

end Hit

end EventFinder
