import EventFinder.Text.Alphanumeric
import EventFinder.Text.LetterCase
import Mathlib.Data.List.Sort
import Mathlib.Data.List.TakeWhile

/-!
# Runs and ranges of characters

The tables of characters are lists of ranges and of runs in ascending order. They are checked run by run and not
character by character, along two ascending lists at a time: along ranges and the segments that should be within them
(`withinRanges`), or along runs and what others map to, which should stay clear of them (`staysClear`).
-/

set_option autoImplicit false

namespace EventFinder

/-! ## Ranges -/

section Ranges

variable {ranges segments : List (Nat × Nat)}

theorem exists_range_of_inRanges {n : Nat} (h : inRanges n ranges = true) :
    ∃ range ∈ ranges, range.1 ≤ n ∧ n ≤ range.2 := by
  induction ranges with
  | nil => cases h
  | cons range rest ih =>
      rw [inRanges] at h
      split at h
      · cases h
      · rename_i hfirst
        split at h
        · rename_i hlast
          exact ⟨range, List.mem_cons_self, Nat.le_of_not_lt hfirst, hlast⟩
        · obtain ⟨range', hmem, hrange'⟩ := ih h
          exact ⟨range', List.mem_cons_of_mem _ hmem, hrange'⟩

/-- A number within one of some ascending ranges is found in them. -/
theorem inRanges_of_mem (ascending : ranges.Pairwise fun r s => r.1 ≤ s.1) {range : Nat × Nat}
    (hrange : range ∈ ranges) {n : Nat} (hfirst : range.1 ≤ n) (hlast : n ≤ range.2) : inRanges n ranges = true := by
  induction ranges with
  | nil => cases hrange
  | cons head rest ih =>
      rw [List.pairwise_cons] at ascending
      rw [inRanges]
      rcases List.mem_cons.1 hrange with rfl | hmem
      · rw [if_neg (Nat.not_lt.2 hfirst), if_pos hlast]
      · have hhead : head.1 ≤ n := Nat.le_trans (ascending.1 range hmem) hfirst
        rw [if_neg (Nat.not_lt.2 hhead)]
        split
        · rfl
        · exact ih ascending.2 hmem

/-- Is each of the segments within one of the ranges? Both are taken in their order, each range for the segments at the
front. -/
def withinRanges : List (Nat × Nat) → List (Nat × Nat) → Bool
  | [], segments => segments.isEmpty
  | range :: rest, segments =>
      withinRanges rest (segments.dropWhile fun segment => range.1.ble segment.1 && segment.2.ble range.2)

theorem exists_range_of_withinRanges (h : withinRanges ranges segments = true) {segment : Nat × Nat}
    (hsegment : segment ∈ segments) : ∃ range ∈ ranges, range.1 ≤ segment.1 ∧ segment.2 ≤ range.2 := by
  induction ranges generalizing segments with
  | nil =>
      rw [withinRanges, List.isEmpty_iff] at h
      rw [h] at hsegment
      cases hsegment
  | cons range rest ih =>
      rw [withinRanges] at h
      -- The segment is within this range, or it is left for the other ones.
      rw [← List.takeWhile_append_dropWhile (l := segments)
        (p := fun segment => range.1.ble segment.1 && segment.2.ble range.2)] at hsegment
      rcases List.mem_append.1 hsegment with htake | hdrop
      · have hwithin := List.mem_takeWhile_imp htake
        rw [Bool.and_eq_true, Nat.ble_eq, Nat.ble_eq] at hwithin
        exact ⟨range, List.mem_cons_self, hwithin⟩
      · obtain ⟨range', hmem, hwithin⟩ := ih h hdrop
        exact ⟨range', List.mem_cons_of_mem _ hmem, hwithin⟩

end Ranges

/-! ## Runs -/

namespace CaseRun

/-- Is `n` one of the characters that the run maps? -/
def Has (run : CaseRun) (n : Nat) : Prop :=
  run.first ≤ n ∧ n ≤ run.last ∧ (n - run.first) % run.step = 0

/-- What the first character of the run is mapped to. -/
def firstMapped (run : CaseRun) : Nat := (run.first + run.shift).toNat

/-- The characters that the run maps to. One alone may as well be every second one. -/
def image (run : CaseRun) : CaseRun where
  first := run.firstMapped
  last := run.firstMapped + (run.last - run.first)
  step := bif run.first.beq run.last then 2 else run.step
  shift := 0

/-- Are the characters of the run below those of the other one, above them, or between them? -/
def clears (run other : CaseRun) : Bool :=
  run.last.blt other.first || other.last.blt run.first ||
    (run.step.beq 2 && other.step.beq 2 && ((run.first + other.first) % 2).beq 1)

/-- The segments of the characters as far from `base` as those of the run are from its first one. A short run is taken
apart, since it may be every second character where the others are of another kind. -/
def segmentsFrom (run : CaseRun) (base : Nat) : List (Nat × Nat) :=
  bif Nat.blt 6 (run.last - run.first) then [(base, base + (run.last - run.first))]
  else ((List.range (run.last - run.first + 1)).filter fun n => (n % run.step).beq 0).map fun n => (base + n, base + n)

variable {run other : CaseRun} {n : Nat}

theorem mapped_eq (hnonneg : 0 ≤ run.first + run.shift) (hhas : run.Has n) :
    (n + run.shift).toNat = run.firstMapped + (n - run.first) := by
  have hfirst := hhas.1
  rw [firstMapped]
  omega

theorem Has.image (hhas : run.Has n) : run.image.Has (run.firstMapped + (n - run.first)) := by
  obtain ⟨hfirst, hlast, hstep⟩ := hhas
  refine ⟨Nat.le_add_right _ _, ?_, ?_⟩
  · exact Nat.add_le_add_left (Nat.sub_le_sub_right hlast _) _
  · rw [CaseRun.image, Nat.add_sub_cancel_left]
    dsimp only
    cases hone : run.first.beq run.last with
    | false => exact hstep
    | true =>
        rw [Nat.beq_eq] at hone
        have hzero : n - run.first = 0 := by omega
        rw [hzero, Nat.zero_mod]

theorem not_has_of_clears (h : run.clears other = true) (hhas : run.Has n) : ¬ other.Has n := by
  obtain ⟨hfirst, hlast, hstep⟩ := hhas
  rintro ⟨hfirst', hlast', hstep'⟩
  simp only [clears, Bool.or_eq_true, Bool.and_eq_true, Nat.blt_eq, Nat.beq_eq] at h
  rcases h with (hbelow | habove) | ⟨⟨htwo, htwo'⟩, hodd⟩
  · omega
  · omega
  · -- Both take every second number, one the even ones and the other the odd ones.
    rw [htwo] at hstep
    rw [htwo'] at hstep'
    omega

theorem exists_segment (hhas : run.Has n) (base : Nat) :
    ∃ segment ∈ run.segmentsFrom base, segment.1 ≤ base + (n - run.first) ∧ base + (n - run.first) ≤ segment.2 := by
  obtain ⟨hfirst, hlast, hstep⟩ := hhas
  rw [segmentsFrom]
  cases Nat.blt 6 (run.last - run.first) with
  | true =>
      refine ⟨_, List.mem_cons_self, Nat.le_add_right _ _, ?_⟩
      exact Nat.add_le_add_left (Nat.sub_le_sub_right hlast _) _
  | false =>
      refine ⟨_, List.mem_map_of_mem (List.mem_filter.2 ⟨List.mem_range.2 ?_, ?_⟩), Nat.le_refl _, Nat.le_refl _⟩
      · omega
      · rw [hstep]
        rfl

end CaseRun

section Tables

variable {table runs : List CaseRun} {n m : Nat}

theorem mem_of_mappedByRun (h : mappedByRun n table = some m) :
    ∃ run ∈ table, run.Has n ∧ m = (n + run.shift).toNat := by
  induction table with
  | nil => cases h
  | cons run rest ih =>
      rw [mappedByRun] at h
      split at h
      · cases h
      · rename_i hfirst
        split at h
        · rename_i hhas
          rw [Bool.and_eq_true, decide_eq_true_eq, decide_eq_true_eq] at hhas
          exact ⟨run, List.mem_cons_self, ⟨Nat.le_of_not_lt hfirst, hhas⟩, (Option.some.inj h).symm⟩
        · obtain ⟨run', hmem, hrun'⟩ := ih h
          exact ⟨run', List.mem_cons_of_mem _ hmem, hrun'⟩

theorem mappedByRun_eq_none (h : ∀ run ∈ table, ¬ run.Has n) : mappedByRun n table = none := by
  cases hmapped : mappedByRun n table with
  | none => rfl
  | some m =>
      obtain ⟨run, hrun, hhas, -⟩ := mem_of_mappedByRun hmapped
      exact absurd hhas (h run hrun)

/-- Some runs in ascending order. -/
def inOrder (runs : List CaseRun) : List CaseRun := runs.insertionSort fun run other => run.first ≤ other.first

/-- The runs are in ascending order. -/
def Ascending (runs : List CaseRun) : Prop := runs.Pairwise fun run other => run.first ≤ other.first

theorem ascending_inOrder (runs : List CaseRun) : Ascending (inOrder runs) := by
  have : Std.Total fun run other : CaseRun => run.first ≤ other.first := ⟨fun _ _ => Nat.le_total _ _⟩
  have : IsTrans CaseRun fun run other => run.first ≤ other.first := ⟨fun _ _ _ => Nat.le_trans⟩
  exact List.pairwise_insertionSort _ runs

theorem ascending_of_isChain (h : runs.IsChain fun run other => run.first ≤ other.first) : Ascending runs := by
  have : IsTrans CaseRun fun run other => run.first ≤ other.first := ⟨fun _ _ _ => Nat.le_trans⟩
  exact h.pairwise

/-- Are the runs clear of those of the table? Both are taken in their order. Each run of the table is compared with those
at the front that begin below its end, and those that end below its beginning are left behind. -/
def staysClear : List CaseRun → List CaseRun → Bool
  | [], _ => true
  | entry :: rest, runs =>
      ((runs.takeWhile fun run => run.first.ble entry.last).all fun run => run.clears entry) &&
        staysClear rest (runs.dropWhile fun run => run.last.blt entry.first)

/-- Behind a run that begins above `n` all others do, too. -/
theorem lt_first_of_dropWhile (hruns : Ascending runs) {run : CaseRun}
    (hdrop : run ∈ runs.dropWhile fun run => run.first.ble n) : n < run.first := by
  have hascending : Ascending (runs.dropWhile fun run => run.first.ble n) := hruns.sublist (List.dropWhile_sublist _)
  have hnot := List.head_dropWhile_not (fun run : CaseRun => run.first.ble n) (List.ne_nil_of_mem hdrop)
  cases hrest : runs.dropWhile fun run => run.first.ble n with
  | nil =>
      rw [hrest] at hdrop
      cases hdrop
  | cons head rest =>
      simp only [hrest, List.head_cons, ← Bool.not_eq_true, Nat.ble_eq, Nat.not_le] at hnot
      rw [hrest] at hdrop hascending
      rcases List.mem_cons.1 hdrop with rfl | hmem
      · exact hnot
      · exact Nat.lt_of_lt_of_le hnot ((List.pairwise_cons.1 hascending).1 run hmem)

theorem clears_of_staysClear (htable : Ascending table) (hruns : Ascending runs) (h : staysClear table runs = true)
    {run : CaseRun} (hrun : run ∈ runs) {entry : CaseRun} (hentry : entry ∈ table) : run.clears entry = true := by
  induction table generalizing runs with
  | nil => cases hentry
  | cons head rest ih =>
      rw [staysClear, Bool.and_eq_true, List.all_eq_true] at h
      rw [Ascending, List.pairwise_cons] at htable
      rcases List.mem_cons.1 hentry with rfl | hrest
      · -- A run at the front has been compared, and all others begin above the entry.
        rw [← List.takeWhile_append_dropWhile (l := runs) (p := fun run => run.first.ble entry.last)] at hrun
        rcases List.mem_append.1 hrun with htake | hdrop
        · exact h.1 run htake
        · rw [CaseRun.clears, Bool.or_eq_true, Bool.or_eq_true, Nat.blt_eq, Nat.blt_eq]
          exact Or.inl (Or.inr (lt_first_of_dropWhile hruns hdrop))
      · -- A run that is left behind ends below all further entries.
        rw [← List.takeWhile_append_dropWhile (l := runs) (p := fun run => run.last.blt head.first)] at hrun
        rcases List.mem_append.1 hrun with htake | hdrop
        · have hbelow := List.mem_takeWhile_imp htake
          rw [Nat.blt_eq] at hbelow
          rw [CaseRun.clears, Bool.or_eq_true, Bool.or_eq_true, Nat.blt_eq, Nat.blt_eq]
          exact Or.inl (Or.inl (Nat.lt_of_lt_of_le hbelow (htable.1 entry hrest)))
        · exact ih htable.2 (hruns.sublist (List.dropWhile_sublist _)) h.2 hdrop hrest

/-- What is in runs that stay clear of a table is not mapped by it. -/
theorem mappedByRun_of_staysClear (htable : Ascending table) (hruns : Ascending runs)
    (h : staysClear table runs = true) {run : CaseRun} (hrun : run ∈ runs) (hhas : run.Has n) :
    mappedByRun n table = none := by
  apply mappedByRun_eq_none
  intro entry hentry
  exact CaseRun.not_has_of_clears (clears_of_staysClear htable hruns h hrun hentry) hhas

end Tables

end EventFinder
