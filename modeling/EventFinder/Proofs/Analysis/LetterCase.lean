import EventFinder.Proofs.Analysis.Tokens
import Mathlib.Data.List.Basic
import Mathlib.Data.List.Flatten

/-!
# Tokens and letter case

All tokens are in lower case, but a text is cut before. So a text and its lower case may have different words
(`terms_word_lowerCase_iff`): the lower case of a dotted capital I ends a word, and letters of another case may take
more bytes or less, so that a run of them is a word in one case alone. Every other run gives the same words.

Grams are of characters and not of words: without a dotted capital I the grams of a text and its lower case are the
same (`terms_gram_lowerCase`). So texts that share a word of three letters or more share a gram in any case
(`shares_gram_of_long`).
-/

set_option autoImplicit false

namespace EventFinder

/-- If each part is a part of another one and the wholes are the same, the parts are the same. -/
theorem eq_of_flatMap_eq {α β : Type} {f g : α → List β} {l : List α} (h : ∀ a ∈ l, (f a).Sublist (g a))
    (heq : l.flatMap f = l.flatMap g) : ∀ a ∈ l, f a = g a := by
  induction l with
  | nil => exact List.forall_mem_nil _
  | cons a rest ih =>
      rw [List.forall_mem_cons] at h
      have hrest := (List.Sublist.flatMap_right rest h.2).length_le
      have hlength := congrArg List.length heq
      simp only [List.flatMap_cons, List.length_append] at hlength
      -- Neither part is shorter than the other one, since together they are not.
      have hfirst : f a = g a := h.1.eq_of_length (by have := h.1.length_le; omega)
      rw [List.flatMap_cons, List.flatMap_cons, hfirst, List.append_cancel_left_eq] at heq
      exact List.forall_mem_cons.2 ⟨hfirst, ih h.2 heq⟩

namespace Analysis

/-! ## Blocks

What matters of runs here are their characters alone. -/

/-- The maximal blocks of letters and digits of a text. -/
def blocks (cs : List Char) : List (List Char) := (runs 0 cs).map Run.chars

variable {cs rest block : List Char}

theorem map_chars_runs (start : Nat) (cs : List Char) : (runs start cs).map Run.chars = blocks cs := by
  rw [blocks, ← Nat.zero_add start, runs_add, List.map_map]
  rfl

theorem blocks_append (h : Apart cs rest) : blocks (cs ++ rest) = blocks cs ++ blocks rest := by
  rw [blocks, runs_append h, List.map_append, map_chars_runs, map_chars_runs]

theorem blocks_of_gap (h : ∀ c ∈ cs, isAlphanumeric c = false) : blocks cs = [] := by
  rw [blocks, runs_of_gap h]
  rfl

theorem blocks_of_block (hne : cs ≠ []) (h : ∀ c ∈ cs, isAlphanumeric c = true) : blocks cs = [cs] := by
  rw [blocks, runs_of_block hne h]
  rfl

/-- Blocks are of letters and digits, of one at least. -/
theorem of_mem_blocks (h : block ∈ blocks cs) : block ≠ [] ∧ ∀ c ∈ block, isAlphanumeric c = true := by
  obtain ⟨run, hrun, rfl⟩ := List.mem_map.1 h
  exact of_mem_runs hrun

/-- Blocks are parts of their text. -/
theorem infix_of_mem_blocks (h : block ∈ blocks cs) : block <:+: cs := by
  obtain ⟨run, hrun, rfl⟩ := List.mem_map.1 h
  obtain ⟨before, after, hruns⟩ := List.append_of_mem hrun
  obtain ⟨front, back, rfl, -⟩ := exists_of_runs_eq hruns
  exact ⟨front, back, List.append_assoc ..⟩

theorem dotted_notMem_of_mem_blocks (h : 'İ' ∉ cs) (hblock : block ∈ blocks cs) : 'İ' ∉ block :=
  fun hmem => h ((infix_of_mem_blocks hblock).subset hmem)

/-- The blocks of a text in lower case are those of its blocks in lower case. -/
theorem blocks_lower (cs : List Char) :
    blocks (cs.flatMap lowerChar) = (blocks cs).flatMap fun block => blocks (block.flatMap lowerChar) := by
  have hgap : ∀ {gap : List Char}, (∀ c ∈ gap, isAlphanumeric c = false) → gap.flatMap lowerChar = gap :=
    fun h => flatMap_of_self fun c hc => lowerChar_of_not_alphanumeric (h c hc)
  -- Block after block: what follows a block is no letter or digit, and so in lower case.
  suffices h : ∀ (rs : List Run) (start : Nat) (cs : List Char), runs start cs = rs →
      blocks (cs.flatMap lowerChar) = (rs.map Run.chars).flatMap fun block => blocks (block.flatMap lowerChar) from
    h _ 0 cs rfl
  intro rs
  induction rs with
  | nil =>
      intro start cs hruns
      -- The whole text is a gap, and gaps are their own lower case.
      have hnone := gap_of_runs_eq_nil hruns
      rw [hgap hnone, blocks_of_gap hnone]
      rfl
  | cons run after ih =>
      intro start cs hruns
      obtain ⟨gap, back, rfl, hnone, -, -, hback, -, hafter⟩ := exists_of_runs_eq_cons hruns
      have hbackLower : StartsOff (back.flatMap lowerChar) := by
        cases back with
        | nil => exact fun c hc => nomatch hc
        | cons c others =>
            rw [List.flatMap_cons, lowerChar_of_not_alphanumeric (hback c rfl)]
            exact hback
      rw [List.flatMap_append, List.flatMap_append, hgap hnone, blocks_append (apart_of_gap hnone _),
        blocks_of_gap hnone, blocks_append (hbackLower.apart _), ih _ back hafter]
      rfl

/-! ## Words -/

/-- The lower case of a text in lower case is the same token. -/
theorem lowered_lower (cs : List Char) : lowered (cs.flatMap lowerChar) = lowered cs := by
  rw [lowered, lower_lower, lowered]

/-- The words of a block in lower case. -/
def lowerWords (block : List Char) : List String := (blocks (block.flatMap lowerChar)).filterMap wordText?

theorem terms_word_eq (t : String) : Pipeline.terms .word t = (blocks t.toList).filterMap wordText? :=
  map_text_wordsOfRuns 0 _

theorem mem_terms_word_iff {s t : String} :
    s ∈ Pipeline.terms .word t ↔ ∃ block ∈ blocks t.toList, byteLength block < wordLimit ∧ s = lowered block := by
  rw [terms_word_eq, List.mem_filterMap]
  refine exists_congr fun block => and_congr_right fun _ => ?_
  rw [wordText?, Option.ite_none_right_eq_some, Option.some.injEq, eq_comm]

theorem toList_lowerCase (t : String) : (lowerCase t).toList = t.toList.flatMap lowerChar := by
  rw [lowerCase, String.toList_ofList]

theorem terms_word_lowerCase (t : String) :
    Pipeline.terms .word (lowerCase t) = (blocks t.toList).flatMap lowerWords := by
  rw [terms_word_eq, toList_lowerCase, blocks_lower, List.filterMap_flatMap]
  rfl

/-- Lower case changes nothing about the words of a block: if it is a word, it has no dotted capital I and is short in
lower case, too; and if it is overlong, so is whatever it has in lower case. -/
def Steady (block : List Char) : Prop :=
  if byteLength block < wordLimit then
    'İ' ∉ block ∧ byteLength (block.flatMap lowerChar) < wordLimit
  else ∀ run ∈ runs 0 (block.flatMap lowerChar), wordLimit ≤ byteLength run.chars

instance (block : List Char) : Decidable (Steady block) := by
  unfold Steady
  infer_instance

/-- In lower case a block without a dotted capital I is one block. -/
theorem blocks_lower_of_block (h : block ∈ blocks cs) (hdotted : 'İ' ∉ block) :
    blocks (block.flatMap lowerChar) = [block.flatMap lowerChar] := by
  obtain ⟨hne, hblock⟩ := of_mem_blocks h
  refine blocks_of_block ?_ (isAlphanumeric_lower hblock hdotted)
  rw [flatMap_lowerChar_eq_map hdotted]
  simpa using hne

/-- Without a dotted capital I the words of the lower case are the blocks of the text that are short in lower case. -/
theorem mem_terms_word_lowerCase_iff {s t : String} (h : 'İ' ∉ t.toList) :
    s ∈ Pipeline.terms .word (lowerCase t) ↔
      ∃ block ∈ blocks t.toList, byteLength (block.flatMap lowerChar) < wordLimit ∧ s = lowered block := by
  rw [mem_terms_word_iff, toList_lowerCase, blocks_lower]
  constructor
  · rintro ⟨found, hfound, hshort, rfl⟩
    obtain ⟨block, hblock, hlower⟩ := List.mem_flatMap.1 hfound
    rw [blocks_lower_of_block hblock (dotted_notMem_of_mem_blocks h hblock), List.mem_singleton] at hlower
    subst hlower
    exact ⟨block, hblock, hshort, lowered_lower block⟩
  · rintro ⟨block, hblock, hshort, rfl⟩
    refine ⟨block.flatMap lowerChar, List.mem_flatMap.2 ⟨block, hblock, ?_⟩, hshort, (lowered_lower block).symm⟩
    rw [blocks_lower_of_block hblock (dotted_notMem_of_mem_blocks h hblock)]
    exact List.mem_singleton_self _

/-- If a block in lower case is a block of a text in lower case, it has no dotted capital I. -/
theorem lower_eq_of_lowered_eq {other : List Char} (h : lowered block = lowered other)
    (hother : other ∈ blocks (cs.flatMap lowerChar)) :
    'İ' ∉ block ∧ block.flatMap lowerChar = other := by
  -- A block of a text in lower case is its own lower case, so it is the lower case of the first block.
  have hself : other.flatMap lowerChar = other :=
    flatMap_of_self fun c hc => lowerChar_of_mem_lower ((infix_of_mem_blocks hother).subset hc)
  rw [lowered, lowered, hself, String.ofList_inj] at h
  refine ⟨dotted_notMem_of_isAlphanumeric_lower ?_, h⟩
  rw [h]
  exact (of_mem_blocks hother).2

theorem lowerWords_of_short (h : block ∈ blocks cs) (hdotted : 'İ' ∉ block)
    (hshort : byteLength (block.flatMap lowerChar) < wordLimit) : lowerWords block = [lowered block] := by
  have hword : wordText? (block.flatMap lowerChar) = some (lowered block) := by
    rw [wordText?, if_pos hshort, lowered_lower]
  rw [lowerWords, blocks_lower_of_block h hdotted, List.filterMap_cons_some hword, List.filterMap_nil]

theorem wordText?_eq_none_iff : wordText? block = none ↔ wordLimit ≤ byteLength block := by
  rw [wordText?]
  split <;> simp <;> omega

/-- A block that is a word is one of the words in lower case only if it is steady. -/
theorem steady_of_mem_lowerWords {other : List Char} (hshort : byteLength block < wordLimit)
    (h : lowered block ∈ lowerWords other) : Steady block := by
  obtain ⟨found, hfound, hword⟩ := List.mem_filterMap.1 h
  rw [wordText?, Option.ite_none_right_eq_some, Option.some.injEq] at hword
  obtain ⟨hdotted, hlower⟩ := lower_eq_of_lowered_eq hword.2.symm hfound
  rw [Steady, if_pos hshort, hlower]
  exact ⟨hdotted, hword.1⟩

/-- Steady blocks are those that give the same words in lower case. -/
theorem steady_iff (h : block ∈ blocks cs) : Steady block ↔ (wordText? block).toList = lowerWords block := by
  by_cases hshort : byteLength block < wordLimit
  · rw [wordText?, if_pos hshort, Option.toList_some]
    constructor
    · intro hsteady
      rw [Steady, if_pos hshort] at hsteady
      exact (lowerWords_of_short h hsteady.1 hsteady.2).symm
    · intro hwords
      exact steady_of_mem_lowerWords hshort (hwords ▸ List.mem_singleton_self _)
  · rw [wordText?, if_neg hshort, Option.toList_none, Steady, if_neg hshort, eq_comm, lowerWords,
      List.filterMap_eq_nil_iff]
    simp only [wordText?_eq_none_iff, blocks, List.forall_mem_map]

/-- A text and its lower case have the same words if all runs are steady, and only then: a word that the lower case
lacks is not made good by others, since no run gives less words in lower case unless it is one. -/
theorem terms_word_lowerCase_iff (t : String) :
    Pipeline.terms .word (lowerCase t) = Pipeline.terms .word t ↔ ∀ run ∈ runs 0 t.toList, Steady run.chars := by
  have hwords : Pipeline.terms .word t = (blocks t.toList).flatMap fun block => (wordText? block).toList := by
    rw [terms_word_eq, List.filterMap_eq_flatMap_toList]
  have hall : (∀ run ∈ runs 0 t.toList, Steady run.chars) ↔ ∀ block ∈ blocks t.toList, Steady block :=
    List.forall_mem_map.symm
  rw [hall, hwords, terms_word_lowerCase]
  constructor
  · intro heq
    -- A word of a block is one of the words in lower case, so the block is steady.
    have hsub : ∀ block ∈ blocks t.toList, (wordText? block).toList.Sublist (lowerWords block) := by
      intro block hblock
      by_cases hshort : byteLength block < wordLimit
      · have hmem : lowered block ∈ (blocks t.toList).flatMap lowerWords := by
          rw [heq]
          exact List.mem_flatMap.2 ⟨block, hblock, by simp [wordText?, hshort]⟩
        obtain ⟨other, -, hother⟩ := List.mem_flatMap.1 hmem
        rw [(steady_iff hblock).1 (steady_of_mem_lowerWords hshort hother)]
      · rw [wordText?, if_neg hshort]
        exact List.nil_sublist _
    intro block hblock
    exact (steady_iff hblock).2 (eq_of_flatMap_eq hsub heq.symm block hblock)
  · -- Block by block the words are the same.
    intro hsteady
    exact (List.flatMap_congr fun block hblock => (steady_iff hblock).1 (hsteady block hblock)).symm

/-! ## Grams -/

theorem map_text_gramsAt (start : Nat) (text : List Char) :
    (gramsAt start text).map Token.text = gramSizes.filterMap fun size =>
      if (text.take size).length = size then some (lowered (text.take size)) else none := by
  rw [gramsAt, List.map_filterMap]
  congr 1
  funext size
  by_cases hsize : (text.take size).length = size
  · rw [if_pos hsize]
    simp only [if_pos hsize, Option.map_some]
  · rw [if_neg hsize]
    simp only [if_neg hsize, Option.map_none]

/-- Without a dotted capital I each gram of the lower case is the lower case of the gram in its place. -/
theorem map_text_gramsFrom_lower {text : List Char} (h : 'İ' ∉ text) (start start' : Nat) :
    (gramsFrom start (text.flatMap lowerChar)).map Token.text = (gramsFrom start' text).map Token.text := by
  have hsize : ∀ (cs : List Char) (size : Nat), 'İ' ∉ cs →
      ((cs.map lowerLetter).take size).length = (cs.take size).length ∧
        lowered ((cs.map lowerLetter).take size) = lowered (cs.take size) := by
    intro cs size hcs
    -- Lower case of single characters goes through `take`.
    have htake : 'İ' ∉ cs.take size := fun hmem => hcs (List.mem_of_mem_take hmem)
    rw [← List.map_take, List.length_map, ← flatMap_lowerChar_eq_map htake, lowered_lower]
    exact ⟨rfl, rfl⟩
  rw [flatMap_lowerChar_eq_map h]
  induction text generalizing start start' with
  | nil => rfl
  | cons c rest ih =>
      have hrest : 'İ' ∉ rest := fun hmem => h (List.mem_cons_of_mem _ hmem)
      have hat : (gramsAt start ((c :: rest).map lowerLetter)).map Token.text =
          (gramsAt start' (c :: rest)).map Token.text := by
        rw [map_text_gramsAt, map_text_gramsAt]
        simp only [(hsize (c :: rest) _ h).1, (hsize (c :: rest) _ h).2]
      rw [List.map_cons, gramsFrom, gramsFrom, List.map_append, List.map_append, ih hrest, ← hat,
        List.map_cons]

/-- Without a dotted capital I a text and its lower case have the same grams. -/
theorem terms_gram_lowerCase {t : String} (h : 'İ' ∉ t.toList) :
    Pipeline.terms .gram (lowerCase t) = Pipeline.terms .gram t := by
  rw [Pipeline.terms, Pipeline.terms, Pipeline.tokens, Pipeline.tokens, toList_lowerCase]
  exact map_text_gramsFrom_lower h 0 0

/-- A run that is too long for a word has several letters. -/
theorem three_le_length_of_wordLimit_le {block : List Char} (h : wordLimit ≤ byteLength block) :
    3 ≤ block.length := by
  have hbytes := byteLength_le block
  rw [wordLimit] at h
  omega

/-- The front of a long word without a dotted capital I is a gram of every text that has this word. -/
theorem shares_gram_of_long {block : List Char} {t v : String} (hblock : block ∈ blocks t.toList)
    (hdotted : 'İ' ∉ block) (hlong : 3 ≤ block.length) (hv : lowered block ∈ Pipeline.terms .word v) :
    ∃ s ∈ Pipeline.terms .gram t, s ∈ Pipeline.terms .gram v := by
  obtain ⟨other, hother, -, hsame⟩ := mem_terms_word_iff.1 hv
  rw [lowered, lowered, String.ofList_inj] at hsame
  -- The word of the other text has no dotted capital I either, since its lower case has no dot.
  have hotherDotted : 'İ' ∉ other := by
    apply dotted_notMem_of_isAlphanumeric_lower
    rw [← hsame]
    exact isAlphanumeric_lower (of_mem_blocks hblock).2 hdotted
  -- So both words are mapped character by character, and what begins the one begins the other.
  rw [flatMap_lowerChar_eq_map hdotted, flatMap_lowerChar_eq_map hotherDotted] at hsame
  have hlength : block.length = other.length := by simpa using congrArg List.length hsame
  have hfront : ∀ {cs : List Char}, 'İ' ∉ cs → lowered (cs.take 3) = String.ofList ((cs.map lowerLetter).take 3) := by
    intro cs hcs
    rw [lowered, flatMap_lowerChar_eq_map fun hmem => hcs (List.mem_of_mem_take hmem), List.map_take]
  have hgram : ∀ {cs : List Char} {u : String}, cs ∈ blocks u.toList → 3 ≤ cs.length →
      lowered (cs.take 3) ∈ Pipeline.terms .gram u := by
    intro cs u hcs hthree
    have htake : (cs.take 3).length = 3 := by
      rw [List.length_take]
      omega
    refine Pipeline.mem_gram_terms_iff.2 ⟨cs.take 3, ?_, ?_, rfl⟩
    · exact (List.take_prefix 3 cs).isInfix.trans (infix_of_mem_blocks hcs)
    · rw [htake]
      decide
  refine ⟨lowered (block.take 3), hgram hblock hlong, ?_⟩
  rw [hfront hdotted, hsame, ← hfront hotherDotted]
  exact hgram hother (by omega)

end Analysis

end EventFinder
