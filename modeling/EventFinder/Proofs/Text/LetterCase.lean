import EventFinder.Proofs.Text.CaseRuns

/-!
# Letters in lower case

What the tables of letters say about lower case. Characters that are no letters or digits are their own lower case
(`lowerChar_of_not_alphanumeric`). Letters and digits have one letter or digit for it, which is its own lower case, too
(`exists_lowerChar_of_alphanumeric`). The dotted capital I is the one exception: its lower case is a letter with a
combining dot behind it, which is no letter.
-/

set_option autoImplicit false

namespace EventFinder

/-! ## What the tables say -/

/-- The run of the one character that has several for its lower case. -/
def dottedRun : CaseRun := ⟨304, 304, 1, 0⟩

/-- The lower-case forms, in ascending order. -/
def lowerForms : List CaseRun := inOrder (lowerRuns.map CaseRun.image)

/-- The tables of letters and of lower case are in ascending order, letters and digits are characters, the characters with
lower-case forms are letters, and these forms are letters that have no others, none of them the dotted capital I. -/
theorem lowerTables :
    (alphanumericRanges.IsChain fun r s => r.1 ≤ s.1) ∧
      (lowerRuns.IsChain fun run other => run.first ≤ other.first) ∧
      (∀ range ∈ alphanumericRanges, range.2 < 0xd800 ∨ 0xdfff < range.1 ∧ range.2 < 0x110000) ∧
      (∀ run ∈ lowerRuns, 0 ≤ run.first + run.shift) ∧
      withinRanges alphanumericRanges (lowerRuns.flatMap fun run => run.segmentsFrom run.first) = true ∧
      withinRanges alphanumericRanges (lowerForms.map fun form => (form.first, form.last)) = true ∧
      staysClear lowerRuns lowerForms = true ∧ staysClear [dottedRun] lowerForms = true := by
  decide +kernel

theorem ascending_alphanumericRanges : alphanumericRanges.Pairwise fun r s => r.1 ≤ s.1 := by
  have : IsTrans (Nat × Nat) fun r s => r.1 ≤ s.1 := ⟨fun _ _ _ => Nat.le_trans⟩
  obtain ⟨hchain, -⟩ := lowerTables
  exact hchain.pairwise

theorem ascending_lowerRuns : Ascending lowerRuns := by
  obtain ⟨-, hchain, -⟩ := lowerTables
  exact ascending_of_isChain hchain

theorem isValidChar_of_mem_alphanumericRanges {range : Nat × Nat} (h : range ∈ alphanumericRanges) :
    range.2 < 0xd800 ∨ 0xdfff < range.1 ∧ range.2 < 0x110000 := by
  obtain ⟨-, -, hvalid, -⟩ := lowerTables
  exact hvalid range h

theorem toNat_ofNat_of_inRanges {n : Nat} (h : inRanges n alphanumericRanges = true) : (Char.ofNat n).toNat = n := by
  obtain ⟨range, hrange, hfirst, hlast⟩ := exists_range_of_inRanges h
  have hranges := isValidChar_of_mem_alphanumericRanges hrange
  have hvalid : n.isValidChar := by
    rw [Nat.isValidChar]
    omega
  rw [Char.ofNat, dif_pos hvalid]
  rfl

namespace CaseRun

variable {run : CaseRun} (hrun : run ∈ lowerRuns) {n m : Nat} (hhas : run.Has n)
include hrun hhas

/-- A character with a lower-case form is a letter. -/
theorem inRanges_of_mem_lowerRuns : inRanges n alphanumericRanges = true := by
  obtain ⟨-, -, -, -, hletters, -⟩ := lowerTables
  obtain ⟨segment, hsegment, hfirst, hlast⟩ := exists_segment hhas run.first
  obtain ⟨range, hrange, hwithin⟩ :=
    exists_range_of_withinRanges hletters (List.mem_flatMap.2 ⟨run, hrun, hsegment⟩)
  rw [Nat.add_sub_cancel' hhas.1] at hfirst hlast
  exact inRanges_of_mem ascending_alphanumericRanges hrange (hwithin.1.trans hfirst) (hlast.trans hwithin.2)

/-- What a run of lower case maps a character to is a letter that has no other lower case. -/
theorem mapped_of_mem_lowerRuns (hm : m = (n + run.shift).toNat) :
    inRanges m alphanumericRanges = true ∧ mappedByRun m lowerRuns = none ∧ m ≠ 304 := by
  obtain ⟨-, -, -, hnonneg, -, hletters, hlower, hdotted⟩ := lowerTables
  have himage := hhas.image
  rw [← mapped_eq (hnonneg run hrun) hhas, ← hm] at himage
  have hmem : run.image ∈ lowerForms := (List.mem_insertionSort _).2 (List.mem_map_of_mem hrun)
  refine ⟨?_, mappedByRun_of_staysClear ascending_lowerRuns (ascending_inOrder _) hlower hmem himage, ?_⟩
  · obtain ⟨range, hrange, hwithin⟩ := exists_range_of_withinRanges hletters (List.mem_map_of_mem hmem)
    exact inRanges_of_mem ascending_alphanumericRanges hrange (hwithin.1.trans himage.1) (himage.2.1.trans hwithin.2)
  · rintro rfl
    have hclears := clears_of_staysClear (List.pairwise_singleton _ _) (ascending_inOrder _) hdotted hmem
      List.mem_cons_self
    exact not_has_of_clears hclears himage ⟨Nat.le_refl _, Nat.le_refl _, rfl⟩

end CaseRun

/-! ## Single characters -/

theorem lookup_lowerSequences {n : Nat} (h : n ≠ 304) : lowerSequences.lookup n = none :=
  List.lookup_eq_none_iff.2 (by simp [lowerSequences, h])

/-- Without a run for it a character is its own lower case, unless it is the dotted capital I. -/
theorem lowerChar_of_mappedByRun_eq_none {c : Char} (h : mappedByRun c.toNat lowerRuns = none)
    (hdotted : c.toNat ≠ 304) : lowerChar c = [c] := by
  rw [lowerChar, mapCase, h, lookup_lowerSequences hdotted]

/-- Characters that are no letters or digits are their own lower case. -/
theorem lowerChar_of_not_alphanumeric {c : Char} (h : isAlphanumeric c = false) : lowerChar c = [c] := by
  -- A run that has the character would make it a letter, and so would the dotted capital I.
  apply lowerChar_of_mappedByRun_eq_none
  · apply mappedByRun_eq_none
    intro run hrun hhas
    rw [isAlphanumeric, CaseRun.inRanges_of_mem_lowerRuns hrun hhas] at h
    cases h
  · intro hdotted
    rw [isAlphanumeric, hdotted] at h
    exact absurd h (by decide)

theorem lowerChar_dotted : lowerChar 'İ' = ['i', '\u0307'] := by decide

theorem isAlphanumeric_dot : isAlphanumeric '\u0307' = false := by decide

theorem toNat_ne_dotted {c : Char} (h : c ≠ 'İ') : c.toNat ≠ 304 := by
  intro hdotted
  apply h
  rw [← Char.ofNat_toNat c, hdotted]

/-- The lower case of a letter or digit is a letter or digit that is its own lower case. -/
theorem exists_lowerChar_of_alphanumeric {c : Char} (h : isAlphanumeric c = true) (hdotted : c ≠ 'İ') :
    ∃ d, lowerChar c = [d] ∧ isAlphanumeric d = true ∧ lowerChar d = [d] := by
  cases hmapped : mappedByRun c.toNat lowerRuns with
  | none =>
      have hself := lowerChar_of_mappedByRun_eq_none hmapped (toNat_ne_dotted hdotted)
      exact ⟨c, hself, h, hself⟩
  | some m =>
      obtain ⟨run, hrun, hhas, hm⟩ := mem_of_mappedByRun hmapped
      obtain ⟨hletter, hnone, hne⟩ := run.mapped_of_mem_lowerRuns hrun hhas hm
      have hnat := toNat_ofNat_of_inRanges hletter
      refine ⟨Char.ofNat m, ?_, ?_, lowerChar_of_mappedByRun_eq_none ?_ ?_⟩
      · rw [lowerChar, mapCase, hmapped]
      · rwa [isAlphanumeric, hnat]
      · rwa [hnat]
      · rwa [hnat]

/-- A character of lower case is its own lower case. -/
theorem lowerChar_of_mem_lowerChar {c d : Char} (h : d ∈ lowerChar c) : lowerChar d = [d] := by
  cases hc : isAlphanumeric c with
  | false =>
      rw [lowerChar_of_not_alphanumeric hc, List.mem_singleton] at h
      rw [h, lowerChar_of_not_alphanumeric hc]
  | true =>
      by_cases hdotted : c = 'İ'
      · rw [hdotted, lowerChar_dotted] at h
        rcases List.mem_cons.1 h with rfl | h
        · decide
        · rw [List.mem_singleton.1 h]
          exact lowerChar_of_not_alphanumeric isAlphanumeric_dot
      · obtain ⟨e, he, -, hself⟩ := exists_lowerChar_of_alphanumeric hc hdotted
        rw [he, List.mem_singleton] at h
        rw [h, hself]

/-- The first character of the lower case of a character. -/
def lowerLetter (c : Char) : Char := (lowerChar c).headD c

theorem lowerChar_eq {c : Char} (h : c ≠ 'İ') : lowerChar c = [lowerLetter c] := by
  cases hc : isAlphanumeric c with
  | false => rw [lowerLetter, lowerChar_of_not_alphanumeric hc, List.headD_cons]
  | true =>
      obtain ⟨d, hd, -⟩ := exists_lowerChar_of_alphanumeric hc h
      rw [lowerLetter, hd, List.headD_cons]

theorem isAlphanumeric_lowerLetter {c : Char} (h : isAlphanumeric c = true) (hdotted : c ≠ 'İ') :
    isAlphanumeric (lowerLetter c) = true := by
  obtain ⟨d, hd, halnum, -⟩ := exists_lowerChar_of_alphanumeric h hdotted
  rwa [lowerLetter, hd, List.headD_cons]

/-! ## Whole texts -/

section Texts

variable {cs : List Char}

/-- Without a dotted capital I lower case is a matter of single characters. -/
theorem flatMap_lowerChar_eq_map (h : 'İ' ∉ cs) : cs.flatMap lowerChar = cs.map lowerLetter := by
  induction cs with
  | nil => rfl
  | cons c rest ih =>
      rw [List.mem_cons, not_or] at h
      rw [List.flatMap_cons, lowerChar_eq (Ne.symm h.1), ih h.2]
      rfl

/-- If each character is its own case, so is the text. -/
theorem flatMap_of_self {case : Char → List Char} (h : ∀ c ∈ cs, case c = [c]) : cs.flatMap case = cs := by
  induction cs with
  | nil => rfl
  | cons c rest ih =>
      rw [List.forall_mem_cons] at h
      rw [List.flatMap_cons, h.1, ih h.2]
      rfl

theorem lowerChar_of_mem_lower {c : Char} (h : c ∈ cs.flatMap lowerChar) : lowerChar c = [c] := by
  obtain ⟨d, -, hd⟩ := List.mem_flatMap.1 h
  exact lowerChar_of_mem_lowerChar hd

/-- A text in lower case is its own lower case. -/
theorem lower_lower (cs : List Char) : (cs.flatMap lowerChar).flatMap lowerChar = cs.flatMap lowerChar :=
  flatMap_of_self fun _ => lowerChar_of_mem_lower

/-- Letters and digits have letters and digits for their lower case if there is no dotted capital I. -/
theorem isAlphanumeric_lower (h : ∀ c ∈ cs, isAlphanumeric c = true) (hdotted : 'İ' ∉ cs) :
    ∀ c ∈ cs.flatMap lowerChar, isAlphanumeric c = true := by
  rw [flatMap_lowerChar_eq_map hdotted]
  intro d hd
  obtain ⟨c, hc, rfl⟩ := List.mem_map.1 hd
  exact isAlphanumeric_lowerLetter (h c hc) fun heq => hdotted (heq ▸ hc)

/-- If there is one, they have not. -/
theorem dotted_notMem_of_isAlphanumeric_lower (h : ∀ c ∈ cs.flatMap lowerChar, isAlphanumeric c = true) :
    'İ' ∉ cs := by
  intro hdotted
  have hdot : '\u0307' ∈ cs.flatMap lowerChar :=
    List.mem_flatMap.2 ⟨'İ', hdotted, by rw [lowerChar_dotted]; decide⟩
  have halnum := h _ hdot
  rw [isAlphanumeric_dot] at halnum
  cases halnum

end Texts

/-! ## Blanks -/

theorem isAlphanumeric_blank : isAlphanumeric ' ' = false := by decide

/-- Only a blank has one for its lower case. -/
theorem eq_blank_of_mem_lowerChar {c : Char} (h : ' ' ∈ lowerChar c) : c = ' ' := by
  cases hc : isAlphanumeric c with
  | false =>
      rw [lowerChar_of_not_alphanumeric hc] at h
      exact (List.mem_singleton.1 h).symm
  | true =>
      by_cases hdotted : c = 'İ'
      · rw [hdotted, lowerChar_dotted] at h
        exact absurd h (by decide)
      · obtain ⟨d, hd, halnum, -⟩ := exists_lowerChar_of_alphanumeric hc hdotted
        rw [hd] at h
        rw [← List.mem_singleton.1 h, isAlphanumeric_blank] at halnum
        cases halnum

end EventFinder
