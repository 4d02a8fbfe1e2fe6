import EventFinder.Analysis

/-!
# Runs of letters and digits

A text may be cut wherever letters and digits do not meet: its runs are then those of the one part, and behind them
those of the other one (`runs_append`). Letters and digits alone are one run, and without any there is none. So a run
stands between two parts of the text that have the runs before and behind it (`exists_of_runs_eq`).

Where a text begins matters for the places of its runs alone (`runs_add`).
-/

set_option autoImplicit false

namespace EventFinder

namespace Analysis

/-- Every character takes a byte at least. -/
theorem length_le_byteLength (cs : List Char) : cs.length ≤ byteLength cs := by
  induction cs with
  | nil => exact Nat.le_refl _
  | cons c rest ih =>
      have hsize := c.utf8Size_pos
      rw [byteLength, List.length_cons]
      omega

theorem byteLength_pos {cs : List Char} (h : cs ≠ []) : 0 < byteLength cs :=
  Nat.lt_of_lt_of_le (List.length_pos_iff.2 h) (length_le_byteLength cs)

/-- Every character takes four bytes at most. -/
theorem byteLength_le (cs : List Char) : byteLength cs ≤ 4 * cs.length := by
  induction cs with
  | nil => exact Nat.le_refl _
  | cons c rest ih =>
      have hsize := c.utf8Size_le_four
      rw [byteLength, List.length_cons]
      omega

/-! ## Where texts may be cut -/

theorem getLast?_append_right {α : Type} {l l' : List α} (h : l' ≠ []) : (l ++ l').getLast? = l'.getLast? := by
  rw [List.getLast?_append, List.getLast?_eq_some_getLast h, Option.some_or]

/-- The text does not begin with a letter or digit. -/
def StartsOff (cs : List Char) : Prop := ∀ c ∈ cs.head?, isAlphanumeric c = false

/-- Letters and digits do not meet where the second text follows the first one. -/
def Apart (cs rest : List Char) : Prop := ∀ c ∈ cs.getLast?, isAlphanumeric c = true → StartsOff rest

variable {start : Nat} {cs rest : List Char} {run : Run}

theorem StartsOff.apart (h : StartsOff rest) (cs : List Char) : Apart cs rest := fun _ _ _ => h

theorem StartsOff.of_append (h : StartsOff (cs ++ rest)) : StartsOff cs := by
  cases cs with
  | nil => exact fun c hc => nomatch hc
  | cons d ds => exact h

/-- A gap before a text keeps it apart from what is before the gap. -/
theorem apart_of_gap (h : ∀ c ∈ cs, isAlphanumeric c = false) (rest : List Char) : Apart cs rest := by
  intro c hc halnum
  rw [h c (List.mem_of_getLast? hc)] at halnum
  cases halnum

theorem Apart.of_append {before : List Char} (h : Apart (before ++ cs) rest) (hne : cs ≠ []) : Apart cs rest := by
  rwa [Apart, getLast?_append_right hne] at h

theorem Apart.append {before : List Char} (h : Apart cs rest) (hne : cs ≠ []) : Apart (before ++ cs) rest := by
  rwa [Apart, getLast?_append_right hne]

theorem start_le_of_mem_joinRun {c : Char} {rs : List Run} (h : ∀ run ∈ rs, start ≤ run.start) :
    ∀ run ∈ joinRun c start rs, start ≤ run.start := by
  cases rs with
  | nil => simp [joinRun]
  | cons next others =>
      rw [joinRun]
      split
      · exact List.forall_mem_cons.2 ⟨Nat.le_refl _, fun run hrun => h run (List.mem_cons_of_mem _ hrun)⟩
      · exact List.forall_mem_cons.2 ⟨Nat.le_refl _, h⟩

/-- No run begins before the text. -/
theorem start_le_of_mem_runs (h : run ∈ runs start cs) : start ≤ run.start := by
  induction cs generalizing start run with
  | nil => cases h
  | cons c rest ih =>
      have hafter : ∀ run ∈ runs (start + c.utf8Size) rest, start ≤ run.start := fun run hrun =>
        Nat.le_trans (Nat.le_add_right _ _) (ih hrun)
      rw [runs] at h
      split at h
      · exact start_le_of_mem_joinRun hafter run h
      · exact hafter run h

theorem start_lt_of_mem_runs (hoff : StartsOff cs) (h : run ∈ runs start cs) : start < run.start := by
  cases cs with
  | nil => cases h
  | cons c rest =>
      have hc : ¬ isAlphanumeric c = true := by rw [hoff c rfl]; exact Bool.false_ne_true
      rw [runs, if_neg hc] at h
      exact Nat.lt_of_lt_of_le (Nat.lt_add_of_pos_right c.utf8Size_pos) (start_le_of_mem_runs h)

/-- A character joins the first run of the rest of its own part, or else none. -/
theorem joinRun_append {c : Char} {rs others : List Run}
    (h : ∀ run ∈ others, start + c.utf8Size < run.start) :
    joinRun c start (rs ++ others) = joinRun c start rs ++ others := by
  cases rs with
  | nil =>
      cases others with
      | nil => rfl
      | cons next others =>
          have hnext := h next List.mem_cons_self
          rw [List.nil_append, joinRun, joinRun, if_neg (Nat.ne_of_gt hnext)]
          rfl
  | cons run rs =>
      rw [List.cons_append, joinRun, joinRun]
      split <;> rfl

/-- The runs of a text that is cut where letters and digits do not meet. -/
theorem runs_append (h : Apart cs rest) :
    runs start (cs ++ rest) = runs start cs ++ runs (start + byteLength cs) rest := by
  induction cs generalizing start with
  | nil => rw [List.nil_append, byteLength, runs, List.nil_append, Nat.add_zero]
  | cons c others ih =>
      have happart : Apart others rest := by
        cases others with
        | nil =>
            intro d hd
            cases hd
        | cons d ds =>
            have hsplit : Apart ([c] ++ d :: ds) rest := h
            exact hsplit.of_append (List.cons_ne_nil d ds)
      rw [List.cons_append, runs, runs, ih happart, byteLength, ← Nat.add_assoc]
      by_cases hc : isAlphanumeric c = true
      · rw [if_pos hc, if_pos hc]
        -- The runs of the second text do not begin right behind this character.
        apply joinRun_append
        intro run hrun
        cases others with
        | nil => exact start_lt_of_mem_runs (h c rfl hc) hrun
        | cons d ds =>
            have hle := start_le_of_mem_runs hrun
            have hpos := byteLength_pos (List.cons_ne_nil d ds)
            omega
      · rw [if_neg hc, if_neg hc]

/-! ## Gaps and blocks -/

/-- Without letters and digits there is no run. -/
theorem runs_of_gap (h : ∀ c ∈ cs, isAlphanumeric c = false) : runs start cs = [] := by
  induction cs generalizing start with
  | nil => rfl
  | cons c rest ih =>
      rw [List.forall_mem_cons] at h
      rw [runs, ih h.2, h.1]
      rfl

/-- Letters and digits alone are one run. -/
theorem runs_of_block (hne : cs ≠ []) (h : ∀ c ∈ cs, isAlphanumeric c = true) :
    runs start cs = [⟨cs, start⟩] := by
  induction cs generalizing start with
  | nil => exact absurd rfl hne
  | cons c rest ih =>
      rw [List.forall_mem_cons] at h
      rw [runs, if_pos h.1]
      cases rest with
      | nil => rfl
      | cons d ds => rw [ih (List.cons_ne_nil d ds) h.2, joinRun, if_pos rfl]

/-- A text has no letters and digits, or it begins with a gap and a block of them. -/
theorem gap_or_block (text : List Char) :
    (∀ c ∈ text, isAlphanumeric c = false) ∨
      ∃ gap block back, text = gap ++ (block ++ back) ∧ (∀ c ∈ gap, isAlphanumeric c = false) ∧
        block ≠ [] ∧ (∀ c ∈ block, isAlphanumeric c = true) ∧ StartsOff back := by
  induction text with
  | nil => exact Or.inl fun c hc => nomatch hc
  | cons c rest ih =>
      cases hc : isAlphanumeric c with
      | false =>
          rcases ih with hnone | ⟨gap, block, back, rfl, hgap, hblock⟩
          · exact Or.inl (List.forall_mem_cons.2 ⟨hc, hnone⟩)
          · exact Or.inr ⟨c :: gap, block, back, rfl, List.forall_mem_cons.2 ⟨hc, hgap⟩, hblock⟩
      | true =>
          right
          have hone : ∀ d ∈ [c], isAlphanumeric d = true := fun d hd => List.mem_singleton.1 hd ▸ hc
          -- The character is a block by itself, unless the rest begins with one.
          rcases ih with hnone | ⟨gap, block, back, rfl, hgap, hne, hblock, hback⟩
          · exact ⟨[], [c], rest, rfl, List.forall_mem_nil _, List.cons_ne_nil _ _, hone,
              fun d hd => hnone d (List.mem_of_head? hd)⟩
          · cases gap with
            | nil =>
                exact ⟨[], c :: block, back, rfl, hgap, List.cons_ne_nil _ _,
                  List.forall_mem_cons.2 ⟨hc, hblock⟩, hback⟩
            | cons d ds =>
                refine ⟨[], [c], (d :: ds) ++ (block ++ back), rfl, List.forall_mem_nil _,
                  List.cons_ne_nil _ _, hone, ?_⟩
                rintro e ⟨⟩
                exact hgap d List.mem_cons_self

/-- The runs of a text that begins with a gap and a block. -/
theorem runs_of_gap_block {gap block back : List Char} (hgap : ∀ c ∈ gap, isAlphanumeric c = false)
    (hne : block ≠ []) (hblock : ∀ c ∈ block, isAlphanumeric c = true) (hback : StartsOff back) :
    runs start (gap ++ (block ++ back)) =
      ⟨block, start + byteLength gap⟩ :: runs (start + byteLength gap + byteLength block) back := by
  rw [runs_append (apart_of_gap hgap _), runs_of_gap hgap, runs_append (hback.apart block),
    runs_of_block hne hblock]
  rfl

/-! ## Runs in their text -/

/-- Without a run there is no letter or digit. -/
theorem gap_of_runs_eq_nil (h : runs start cs = []) : ∀ c ∈ cs, isAlphanumeric c = false := by
  rcases gap_or_block cs with hgap | ⟨gap, block, back, rfl, hgap, hne, hblock, hback⟩
  · exact hgap
  · rw [runs_of_gap_block hgap hne hblock hback] at h
    cases h

/-- The first run is the block behind the first gap. -/
theorem exists_of_runs_eq_cons {after : List Run} (h : runs start cs = run :: after) :
    ∃ gap back, cs = gap ++ (run.chars ++ back) ∧ (∀ c ∈ gap, isAlphanumeric c = false) ∧
      run.chars ≠ [] ∧ (∀ c ∈ run.chars, isAlphanumeric c = true) ∧ StartsOff back ∧
      run.start = start + byteLength gap ∧ runs run.stop back = after := by
  rcases gap_or_block cs with hgap | ⟨gap, block, back, rfl, hgap, hne, hblock, hback⟩
  · rw [runs_of_gap hgap] at h
    cases h
  · rw [runs_of_gap_block hgap hne hblock hback, List.cons.injEq] at h
    obtain ⟨rfl, hafter⟩ := h
    exact ⟨gap, back, rfl, hgap, hne, hblock, hback, rfl, hafter⟩

/-- A run stands between a front of the text, with the runs before it, and a back, with those behind it. -/
theorem exists_of_runs_eq {before after : List Run} (h : runs start cs = before ++ run :: after) :
    ∃ front back, cs = front ++ (run.chars ++ back) ∧ Apart front run.chars ∧
      run.chars ≠ [] ∧ (∀ c ∈ run.chars, isAlphanumeric c = true) ∧ StartsOff back ∧
      runs start front = before ∧ run.start = start + byteLength front ∧ runs run.stop back = after := by
  induction before generalizing start cs with
  | nil =>
      obtain ⟨gap, back, hcs, hgap, hne, hblock, hback, hstart, hafter⟩ := exists_of_runs_eq_cons h
      exact ⟨gap, back, hcs, apart_of_gap hgap _, hne, hblock, hback, runs_of_gap hgap, hstart, hafter⟩
  | cons first before ih =>
      -- The front of the whole is the first block, with its gap, and the front of what is behind it.
      obtain ⟨gap, rest, rfl, hgap, hfirst, hfirstBlock, hrest, hfirstStart, hbehind⟩ :=
        exists_of_runs_eq_cons h
      obtain ⟨front, back, rfl, hfront, hne, hblock, hback, hbefore, hstart, hafter⟩ := ih hbehind
      have hfrontOff : StartsOff front := hrest.of_append
      have hfrontNe : front ≠ [] := by
        rintro rfl
        obtain ⟨c, cs', hchars⟩ := List.exists_cons_of_ne_nil hne
        have halnum := hblock c (hchars ▸ List.mem_cons_self)
        rw [hrest c (by rw [List.nil_append, hchars]; rfl)] at halnum
        cases halnum
      refine ⟨gap ++ (first.chars ++ front), back, by simp, ?_, hne, hblock, hback, ?_, ?_, hafter⟩
      · rw [← List.append_assoc]
        exact hfront.append hfrontNe
      · rw [runs_of_gap_block hgap hfirst hfirstBlock hfrontOff, ← hfirstStart, ← hbefore]
        rfl
      · rw [hstart, Run.stop, hfirstStart, byteLength_append, byteLength_append]
        omega

/-- Runs are of letters and digits, of one at least. -/
theorem of_mem_runs (h : run ∈ runs start cs) : run.chars ≠ [] ∧ ∀ c ∈ run.chars, isAlphanumeric c = true := by
  obtain ⟨before, after, hruns⟩ := List.append_of_mem h
  obtain ⟨-, -, -, -, hne, hblock, -⟩ := exists_of_runs_eq hruns
  exact ⟨hne, hblock⟩

/-! ## Where a text begins -/

/-- The run of a text that begins so many bytes later. -/
def Run.later (n : Nat) (run : Run) : Run := ⟨run.chars, run.start + n⟩

theorem joinRun_later (c : Char) (n : Nat) (rs : List Run) :
    joinRun c (start + n) (rs.map (Run.later n)) = (joinRun c start rs).map (Run.later n) := by
  cases rs with
  | nil => rfl
  | cons run rest =>
      have hiff : run.start + n = start + n + c.utf8Size ↔ run.start = start + c.utf8Size := by omega
      rw [List.map_cons, joinRun, joinRun]
      by_cases h : run.start = start + c.utf8Size
      · rw [if_pos h]
        exact if_pos (hiff.2 h)
      · rw [if_neg h]
        exact if_neg fun heq => h (hiff.1 heq)

theorem runs_add (start n : Nat) (cs : List Char) : runs (start + n) cs = (runs start cs).map (Run.later n) := by
  induction cs generalizing start with
  | nil => rfl
  | cons c rest ih =>
      rw [runs, runs, Nat.add_right_comm, ih]
      split
      · exact joinRun_later c n _
      · rfl

end Analysis

end EventFinder
