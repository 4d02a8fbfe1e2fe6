import EventFinder.Proofs.Text.LetterCase

/-!
# Texts in upper case

No character of an upper-case form has another one: not where characters are mapped one to one, and not where several
stand for one. So a text in upper case is its own upper case (`upperCase_upperCase`).
-/

set_option autoImplicit false

namespace EventFinder

/-! ## What the tables say -/

/-- A run for each character that has several for its upper case. -/
def upperSequenceRuns : List CaseRun := upperSequences.map fun entry => ⟨entry.1, entry.1, 1, 0⟩

/-- The characters that are the upper case of one each, in ascending order. -/
def upperForms : List CaseRun := inOrder (upperRuns.map CaseRun.image)

/-- The tables of upper case are in ascending order, upper-case forms are characters, and none has another upper case, be
it the upper case of a character alone or one of several. -/
theorem upperTables :
    (upperRuns.IsChain fun run other => run.first ≤ other.first) ∧
      (upperSequenceRuns.IsChain fun run other => run.first ≤ other.first) ∧
      (∀ run ∈ upperRuns, 0 ≤ run.first + run.shift) ∧
      (∀ run ∈ upperRuns,
        run.image.last < 0xd800 ∨ 0xdfff < run.image.first ∧ run.image.last < 0x110000) ∧
      staysClear upperRuns upperForms = true ∧ staysClear upperSequenceRuns upperForms = true ∧
      (upperSequences.all fun entry => entry.2.all fun n =>
        (mappedByRun n upperRuns).isNone && (upperSequences.lookup n).isNone && n.blt 0xd800) = true := by
  decide +kernel

/-! ## Single characters -/

/-- Without a run and without several characters for it a character is its own upper case. -/
theorem upperChar_of_none {c : Char} (hrun : mappedByRun c.toNat upperRuns = none)
    (hseq : upperSequences.lookup c.toNat = none) : upperChar c = [c] := by
  rw [upperChar, mapCase, hrun, hseq]

theorem toNat_ofNat_of_mem_upperRuns {run : CaseRun} (hrun : run ∈ upperRuns) {n : Nat} (hhas : run.image.Has n) :
    (Char.ofNat n).toNat = n := by
  have hvalid : n.isValidChar := by
    obtain ⟨-, -, -, hvalid, -⟩ := upperTables
    have hrange := hvalid run hrun
    have hfirst := hhas.1
    have hlast := hhas.2.1
    rw [Nat.isValidChar]
    omega
  rw [Char.ofNat, dif_pos hvalid]
  rfl

/-- What a run of upper case maps to is its own upper case. -/
theorem upperChar_of_mem_upperRuns {run : CaseRun} (hrun : run ∈ upperRuns) {n : Nat} (hhas : run.image.Has n) :
    upperChar (Char.ofNat n) = [Char.ofNat n] := by
  have hform : run.image ∈ upperForms := (List.mem_insertionSort _).2 (List.mem_map_of_mem hrun)
  obtain ⟨hruns, hsequences, -, -, hclear, hclear', -⟩ := upperTables
  have hnat := toNat_ofNat_of_mem_upperRuns hrun hhas
  apply upperChar_of_none
  · rw [hnat]
    exact mappedByRun_of_staysClear (ascending_of_isChain hruns) (ascending_inOrder _) hclear hform hhas
  · rw [hnat, List.lookup_eq_none_iff]
    intro entry hentry
    have hclears := clears_of_staysClear (ascending_of_isChain hsequences) (ascending_inOrder _) hclear' hform
      (List.mem_map_of_mem hentry)
    rw [bne_iff_ne]
    rintro rfl
    exact CaseRun.not_has_of_clears hclears hhas ⟨Nat.le_refl _, Nat.le_refl _, Nat.mod_one _⟩

/-- One of several characters that are an upper case is its own upper case. -/
theorem upperChar_of_mem_upperSequences {entry : Nat × List Nat} (hentry : entry ∈ upperSequences) {n : Nat}
    (hn : n ∈ entry.2) : upperChar (Char.ofNat n) = [Char.ofNat n] := by
  obtain ⟨-, -, -, -, -, -, hown⟩ := upperTables
  replace hown := List.all_eq_true.1 (List.all_eq_true.1 hown entry hentry) n hn
  simp only [Bool.and_eq_true, Option.isNone_iff_eq_none, Nat.blt_eq] at hown
  obtain ⟨⟨hrun, hseq⟩, hvalid⟩ := hown
  have hnat : (Char.ofNat n).toNat = n := by
    rw [Char.ofNat, dif_pos (Or.inl hvalid)]
    rfl
  exact upperChar_of_none (by rwa [hnat]) (by rwa [hnat])

/-- A character of upper case is its own upper case. -/
theorem upperChar_of_mem_upperChar {c d : Char} (h : d ∈ upperChar c) : upperChar d = [d] := by
  rw [upperChar, mapCase] at h
  split at h
  · rename_i m hmapped
    obtain ⟨run, hrun, hhas, rfl⟩ := mem_of_mappedByRun hmapped
    obtain ⟨-, -, hnonneg, -⟩ := upperTables
    rw [List.mem_singleton.1 h, run.mapped_eq (hnonneg run hrun) hhas]
    exact upperChar_of_mem_upperRuns hrun hhas.image
  · rename_i hnone
    split at h
    · rename_i ns hlookup
      obtain ⟨n, hn, rfl⟩ := List.mem_map.1 h
      obtain ⟨before, after, hsplit, -⟩ := List.lookup_eq_some_iff.1 hlookup
      have hentry : (c.toNat, ns) ∈ upperSequences := hsplit ▸ List.mem_append_right _ List.mem_cons_self
      exact upperChar_of_mem_upperSequences hentry hn
    · rename_i hseq
      rw [List.mem_singleton.1 h]
      exact upperChar_of_none hnone hseq

/-! ## Whole texts -/

/-- A text in upper case is its own upper case. -/
theorem upperCase_upperCase (s : String) : upperCase (upperCase s) = upperCase s := by
  rw [upperCase, upperCase, String.toList_ofList]
  congr 1
  apply flatMap_of_self
  intro c hc
  obtain ⟨d, -, hd⟩ := List.mem_flatMap.1 hc
  exact upperChar_of_mem_upperChar hd

end EventFinder
