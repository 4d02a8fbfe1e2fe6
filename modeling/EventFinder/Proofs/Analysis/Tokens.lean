import EventFinder.Proofs.Analysis.Runs
import EventFinder.Proofs.Text.LetterCase

/-!
# The tokens of a text

Shingles are groups of two or three neighbouring words (`mem_shingle_terms_iff`), and grams are groups of
three to five neighbouring characters (`mem_gram_terms_iff`).

A word holds no blank, since only a blank has one for its lower case (`blank_notMem_of_mem_words`), and a
shingle holds one behind its first word. Hence no shingle is a word, and shingles that are the same text
begin with the same word (`exists_word_of_mem_tag`).

The tokens of a tag are the words and the shingles in another order (`perm_terms_tag`).
-/

set_option autoImplicit false

namespace EventFinder

namespace Analysis

/-! ## Words -/

/-- Letters and digits have no blank for their lower case. -/
theorem blank_notMem_lowered {cs : List Char} (h : ∀ c ∈ cs, isAlphanumeric c = true) :
    ' ' ∉ (lowered cs).toList := by
  rw [lowered, String.toList_ofList]
  intro hmem
  obtain ⟨c, hc, hblank⟩ := List.mem_flatMap.1 hmem
  have halnum := h c hc
  rw [eq_blank_of_mem_lowerChar hblank, isAlphanumeric_blank] at halnum
  cases halnum

/-- The word that a block of letters and digits is, if it is short enough. -/
def wordText? (block : List Char) : Option String :=
  if byteLength block < wordLimit then some (lowered block) else none

theorem map_text_wordsOfRuns (position : Nat) (rs : List Run) :
    (wordsOfRuns position rs).map Token.text = (rs.map Run.chars).filterMap wordText? := by
  induction rs generalizing position with
  | nil => rfl
  | cons run rest ih =>
      rw [wordsOfRuns, List.map_cons]
      by_cases hshort : byteLength run.chars < wordLimit
      · have htext : wordText? run.chars = some (lowered run.chars) := if_pos hshort
        rw [List.filterMap_cons_some htext, Run.word?, if_pos hshort, ← ih]
        rfl
      · have htext : wordText? run.chars = none := if_neg hshort
        rw [List.filterMap_cons_none htext, Run.word?, if_neg hshort, ← ih]

/-- No word holds a blank. -/
theorem blank_notMem_of_mem_words {text : List Char} {token : Token} (h : token ∈ words text) :
    ' ' ∉ token.text.toList := by
  have htext : token.text ∈ ((runs 0 text).map Run.chars).filterMap wordText? := by
    rw [← map_text_wordsOfRuns 0]
    exact List.mem_map_of_mem h
  obtain ⟨block, hblock, hword⟩ := List.mem_filterMap.1 htext
  obtain ⟨run, hrun, rfl⟩ := List.mem_map.1 hblock
  rw [wordText?, Option.ite_none_right_eq_some, Option.some.injEq] at hword
  rw [← hword.2]
  exact blank_notMem_lowered (of_mem_runs hrun).2

/-! ## Groups of neighbours

Shingles and grams are found position by position; put together, they are the groups of the given sizes that
stand anywhere. -/

/-- A group of neighbours stands at the front or further on. -/
theorem exists_infix_cons_iff {α : Type} {P : List α → Prop} {a : α} {l : List α} :
    (∃ group, group <:+: a :: l ∧ P group) ↔
      (∃ group : List α, group.length ≤ l.length + 1 ∧ group = (a :: l).take group.length ∧ P group) ∨
        ∃ group, group <:+: l ∧ P group := by
  constructor
  · rintro ⟨group, hinfix, hgroup⟩
    rcases List.infix_cons_iff.1 hinfix with hprefix | hinfix
    · exact Or.inl ⟨group, hprefix.length_le, List.prefix_iff_eq_take.1 hprefix, hgroup⟩
    · exact Or.inr ⟨group, hinfix, hgroup⟩
  · rintro (⟨group, -, htake, hgroup⟩ | ⟨group, hinfix, hgroup⟩)
    · exact ⟨group, (List.prefix_iff_eq_take.2 htake).isInfix, hgroup⟩
    · exact ⟨group, hinfix.trans (List.suffix_cons a l).isInfix, hgroup⟩

/-- The text of a group of words. -/
def groupText (group : List Token) : String := " ".intercalate (group.map Token.text)

theorem shingleSizes_pos {size : Nat} (h : size ∈ shingleSizes) : size - 1 + 1 = size := by
  rw [shingleSizes, List.mem_cons, List.mem_singleton] at h
  omega

theorem text_mem_shinglesAt_iff {s : String} {first : Token} {others : List Token} :
    s ∈ (shinglesAt first others).map Token.text ↔
      ∃ group : List Token, group.length ≤ others.length + 1 ∧
        group = (first :: others).take group.length ∧ group.length ∈ shingleSizes ∧
        s = groupText group := by
  have hjoin : ∀ size ∈ shingleSizes, (joinWords first (others.take (size - 1))).text =
      groupText ((first :: others).take size) := by
    intro size hsize
    rw [← shingleSizes_pos hsize, List.take_succ_cons]
    rfl
  rw [shinglesAt, List.map_filterMap, List.mem_filterMap]
  constructor
  · rintro ⟨size, hsize, hs⟩
    split at hs
    · rename_i hle
      have hlength : ((first :: others).take size).length = size := by
        rw [List.length_take, List.length_cons]
        omega
      rw [Option.map_some, Option.some.injEq, hjoin size hsize] at hs
      refine ⟨(first :: others).take size, ?_, ?_, ?_, hs.symm⟩
      · rwa [hlength]
      · rw [hlength]
      · rwa [hlength]
    · cases hs
  · rintro ⟨group, hle, hgroup, hsize, rfl⟩
    refine ⟨group.length, hsize, ?_⟩
    rw [if_pos hle, Option.map_some, Option.some.injEq, hjoin _ hsize, ← hgroup]

/-- Shingles are groups of neighbouring words. -/
theorem text_mem_shinglesOf_iff {s : String} {ws : List Token} :
    s ∈ (shinglesOf ws).map Token.text ↔
      ∃ group, group <:+: ws ∧ group.length ∈ shingleSizes ∧ s = groupText group := by
  induction ws with
  | nil =>
      constructor
      · intro h
        cases h
      · rintro ⟨group, hinfix, hsize, -⟩
        rw [List.infix_nil.1 hinfix] at hsize
        exact absurd hsize (by decide)
  | cons word rest ih =>
      rw [shinglesOf, List.map_append, List.mem_append, text_mem_shinglesAt_iff, ih,
        exists_infix_cons_iff]

theorem text_mem_gramsAt_iff {s : String} {start : Nat} {text : List Char} :
    s ∈ (gramsAt start text).map Token.text ↔
      ∃ group : List Char, group.length ≤ text.length ∧ group = text.take group.length ∧
        group.length ∈ gramSizes ∧ s = lowered group := by
  rw [gramsAt, List.map_filterMap, List.mem_filterMap]
  constructor
  · rintro ⟨size, hsize, hs⟩
    dsimp only at hs
    split at hs
    · rename_i hlength
      rw [Option.map_some, Option.some.injEq] at hs
      refine ⟨text.take size, (List.take_sublist size text).length_le, ?_, ?_, hs.symm⟩
      · rw [hlength]
      · rwa [hlength]
    · cases hs
  · rintro ⟨group, -, hgroup, hsize, rfl⟩
    refine ⟨group.length, hsize, ?_⟩
    dsimp only
    rw [← hgroup, if_pos rfl]
    rfl

/-- Grams are groups of neighbouring characters. -/
theorem text_mem_gramsFrom_iff {s : String} {start : Nat} {text : List Char} :
    s ∈ (gramsFrom start text).map Token.text ↔
      ∃ group, group <:+: text ∧ group.length ∈ gramSizes ∧ s = lowered group := by
  induction text generalizing start with
  | nil =>
      constructor
      · intro h
        cases h
      · rintro ⟨group, hinfix, hsize, -⟩
        rw [List.infix_nil.1 hinfix] at hsize
        exact absurd hsize (by decide)
  | cons c rest ih =>
      rw [gramsFrom, List.map_append, List.mem_append, text_mem_gramsAt_iff, ih, exists_infix_cons_iff]
      rfl

/-! ## Shingles and words -/

/-- Behind the first word of a group of several there is a blank. -/
theorem groupText_eq {first : Token} {others : List Token} (h : others ≠ []) :
    (groupText (first :: others)).toList = first.text.toList ++ ' ' :: (groupText others).toList := by
  have hne : others.map Token.text ≠ [] := by simpa using h
  rw [groupText, List.map_cons, String.intercalate_cons_of_ne_nil hne, String.toList_append,
    String.toList_append, List.append_assoc]
  rfl

/-- Groups of several words with the same text begin with the same word. -/
theorem text_eq_of_groupText_eq {first first' : Token} {others others' : List Token}
    (hfirst : ' ' ∉ first.text.toList) (hfirst' : ' ' ∉ first'.text.toList) (h : others ≠ [])
    (h' : others' ≠ []) (htext : groupText (first :: others) = groupText (first' :: others')) :
    first.text = first'.text := by
  -- What stands before the first blank is the first word.
  have hfront : ∀ {token : Token} {rest : List Char}, ' ' ∉ token.text.toList →
      (token.text.toList ++ ' ' :: rest).takeWhile (fun c => decide (c ≠ ' ')) = token.text.toList := by
    intro token rest hblank
    rw [List.takeWhile_append_of_pos, List.takeWhile_cons_of_neg, List.append_nil]
    · simp
    · intro c hc
      rw [decide_eq_true_eq]
      rintro rfl
      exact hblank hc
  have hlists := congrArg (fun s : String => s.toList.takeWhile fun c => decide (c ≠ ' ')) htext
  rw [groupText_eq h, groupText_eq h', hfront hfirst, hfront hfirst'] at hlists
  exact String.toList_inj.1 hlists

/-! ## How many tokens there are

The number of words decides that of shingles, and the number of characters that of grams. -/

/-- Words and shingles are the tokens of a tag in another order. -/
theorem perm_withShingles (ws : List Token) : (withShingles ws).Perm (ws ++ shinglesOf ws) := by
  induction ws with
  | nil => exact .nil
  | cons word rest ih =>
      rw [shinglesOf, withShingles, List.cons_append]
      apply List.Perm.cons
      -- The other words change places with the shingles that begin with the first one.
      exact (ih.append_left _).trans (List.perm_append_comm_assoc ..)

/-- A window of each size begins at a word if there are enough words behind it. -/
theorem length_shinglesAt (word : Token) (rest : List Token) :
    (shinglesAt word rest).length = shingleSizes.countP fun size => size ≤ rest.length + 1 := by
  rw [shinglesAt, List.length_filterMap_eq_countP]
  apply List.countP_congr
  intro size _
  by_cases hsize : size ≤ rest.length + 1 <;> simp [hsize]

theorem length_shinglesOf (ws : List Token) :
    (shinglesOf ws).length = (ws.length - 1) + (ws.length - 2) := by
  induction ws with
  | nil => rfl
  | cons word rest ih =>
      rw [shinglesOf, List.length_append, ih, length_shinglesAt, List.length_cons]
      simp only [shingleSizes, List.countP_cons, List.countP_nil, decide_eq_true_eq]
      split <;> split <;> omega

theorem length_gramsAt (start : Nat) (text : List Char) :
    (gramsAt start text).length = gramSizes.countP fun size => size ≤ text.length := by
  rw [gramsAt, List.length_filterMap_eq_countP]
  apply List.countP_congr
  intro size _
  -- So many characters can be taken if there are as many.
  have htake : min size text.length = size ↔ size ≤ text.length := by omega
  by_cases hsize : size ≤ text.length <;> simp [htake, hsize]

theorem length_gramsFrom (start : Nat) (text : List Char) :
    (gramsFrom start text).length = (text.length - 2) + (text.length - 3) + (text.length - 4) := by
  induction text generalizing start with
  | nil => rfl
  | cons c rest ih =>
      rw [gramsFrom, List.length_append, ih, length_gramsAt, List.length_cons]
      simp only [gramSizes, List.countP_cons, List.countP_nil, decide_eq_true_eq]
      split <;> split <;> split <;> omega

/-! ## What the shingles of a text tell of its words -/

theorem map_text_shinglesAt (first : Token) (others : List Token) :
    (shinglesAt first others).map Token.text = shingleSizes.filterMap fun size =>
      if size ≤ (others.map Token.text).length + 1 then
        some (" ".intercalate (first.text :: (others.map Token.text).take (size - 1))) else none := by
  rw [shinglesAt, List.map_filterMap, List.length_map]
  congr 1
  funext size
  split
  · rw [Option.map_some, joinWords, List.map_cons, List.map_take]
  · rfl

theorem map_text_shinglesOf_cons (word : Token) (rest : List Token) :
    (shinglesOf (word :: rest)).map Token.text =
      (shinglesAt word rest).map Token.text ++ (shinglesOf rest).map Token.text := by
  rw [shinglesOf, List.map_append]

/-- Words of the same texts have shingles of the same texts. -/
theorem map_text_shinglesOf_congr {ws others : List Token} (h : ws.map Token.text = others.map Token.text) :
    (shinglesOf ws).map Token.text = (shinglesOf others).map Token.text := by
  induction ws generalizing others with
  | nil => rw [List.map_eq_nil_iff.1 h.symm]
  | cons word rest ih =>
      cases others with
      | nil => cases h
      | cons other others =>
          obtain ⟨hword, hrest⟩ := List.cons.inj h
          rw [map_text_shinglesOf_cons, map_text_shinglesOf_cons, map_text_shinglesAt, map_text_shinglesAt,
            hword, hrest, ih hrest]

/-- The first shingle that begins with a word has two words. -/
theorem exists_shinglesAt_eq_cons (first second : Token) (rest : List Token) :
    ∃ others, shinglesAt first (second :: rest) = joinWords first [second] :: others := by
  simp [shinglesAt, shingleSizes, List.filterMap_cons]

/-- Groups of two words have the same text only if the words have. -/
theorem text_eq_of_groupText_pair_eq {first second first' second' : Token} (hfirst : ' ' ∉ first.text.toList)
    (hfirst' : ' ' ∉ first'.text.toList) (h : groupText [first, second] = groupText [first', second']) :
    first.text = first'.text ∧ second.text = second'.text := by
  have hone : ∀ word : Token, groupText [word] = word.text := fun word => String.intercalate_singleton
  have hfront := text_eq_of_groupText_eq hfirst hfirst' (List.cons_ne_nil _ _) (List.cons_ne_nil _ _) h
  refine ⟨hfront, ?_⟩
  have hlists := congrArg String.toList h
  rw [groupText_eq (List.cons_ne_nil _ _), groupText_eq (List.cons_ne_nil _ _), hfront, hone, hone,
    List.append_cancel_left_eq] at hlists
  exact String.toList_inj.1 (List.cons.inj hlists).2

/-- Two words or more can be read off their shingles. -/
theorem map_text_eq_of_shinglesOf_eq {ws others : List Token} (hws : ∀ word ∈ ws, ' ' ∉ word.text.toList)
    (hothers : ∀ word ∈ others, ' ' ∉ word.text.toList) (hlength : ws.length = others.length)
    (htwo : 2 ≤ ws.length) (h : (shinglesOf ws).map Token.text = (shinglesOf others).map Token.text) :
    ws.map Token.text = others.map Token.text := by
  induction ws generalizing others with
  | nil => exact absurd htwo (by decide)
  | cons first ws ih =>
      match ws, others, hlength with
      | second :: rest, first' :: second' :: rest', hlength =>
          rw [map_text_shinglesOf_cons first, map_text_shinglesOf_cons first'] at h
          obtain ⟨hat, hof⟩ := List.append_inj h (by
            rw [List.length_map, List.length_map, length_shinglesAt, length_shinglesAt,
              Nat.succ.inj hlength])
          obtain ⟨more, hmore⟩ := exists_shinglesAt_eq_cons first second rest
          obtain ⟨more', hmore'⟩ := exists_shinglesAt_eq_cons first' second' rest'
          rw [hmore, hmore', List.map_cons, List.map_cons] at hat
          rw [List.forall_mem_cons] at hws hothers
          obtain ⟨hfirst, hsecond⟩ := text_eq_of_groupText_pair_eq hws.1 hothers.1 (List.cons.inj hat).1
          -- Behind the second word the shingles that begin with it tell the rest, if there is any.
          cases rest with
          | nil =>
              have hnil : rest' = [] := List.length_eq_zero_iff.1 (by simpa using hlength.symm)
              rw [hnil, List.map_cons, List.map_cons, List.map_cons, List.map_cons, hfirst, hsecond]
          | cons third rest =>
              rw [List.map_cons, hfirst, ih hws.2 hothers.2 (Nat.succ.inj hlength) (by simp) hof]
              rfl

namespace Pipeline

theorem perm_terms_tag (text : String) : (terms .tag text).Perm (terms .word text ++ terms .shingle text) := by
  rw [terms, terms, terms, ← List.map_append]
  exact (perm_withShingles _).map Token.text

theorem length_terms_shingle (text : String) :
    (terms .shingle text).length = ((terms .word text).length - 1) + ((terms .word text).length - 2) := by
  rw [terms, terms, List.length_map, List.length_map]
  exact length_shinglesOf _

/-- Texts have the same shingles if they have the same words, or one word at most. -/
theorem terms_shingle_eq_iff (text text' : String) :
    terms .shingle text = terms .shingle text' ↔
      terms .word text = terms .word text' ∨
        (terms .word text).length ≤ 1 ∧ (terms .word text').length ≤ 1 := by
  constructor
  · intro h
    have hlength := congrArg List.length h
    rw [length_terms_shingle, length_terms_shingle] at hlength
    by_cases hone : (terms .word text).length ≤ 1
    · exact Or.inr ⟨hone, by omega⟩
    · left
      have hwords : ∀ t, ∀ word ∈ words t, ' ' ∉ word.text.toList := fun _ _ => blank_notMem_of_mem_words
      simp only [terms, List.length_map] at hone hlength
      exact map_text_eq_of_shinglesOf_eq (hwords _) (hwords _) (by omega) (by omega) h
  · rintro (h | ⟨hone, hone'⟩)
    · exact map_text_shinglesOf_congr h
    · have hnil : ∀ t, (terms .word t).length ≤ 1 → terms .shingle t = [] := fun t ht => by
        rw [← List.length_eq_zero_iff, length_terms_shingle]
        omega
      rw [hnil text hone, hnil text' hone']

theorem length_terms_gram (text : String) :
    (terms .gram text).length = (text.length - 2) + (text.length - 3) + (text.length - 4) := by
  rw [terms, List.length_map, ← String.length_toList]
  exact length_gramsFrom 0 text.toList

variable {s t v : String}

theorem mem_shingle_terms_iff :
    s ∈ terms .shingle t ↔
      ∃ group, group <:+: words t.toList ∧ group.length ∈ shingleSizes ∧ s = groupText group :=
  text_mem_shinglesOf_iff

theorem mem_gram_terms_iff :
    s ∈ terms .gram t ↔
      ∃ group, group <:+: t.toList ∧ group.length ∈ gramSizes ∧ s = lowered group :=
  text_mem_gramsFrom_iff

/-- Tags are cut into words and shingles. -/
theorem mem_tag_terms_iff : s ∈ terms .tag t ↔ s ∈ terms .word t ∨ s ∈ terms .shingle t :=
  (perm_terms_tag t).mem_iff.trans List.mem_append

/-- No word holds a blank. -/
theorem blank_notMem_of_mem_word (h : s ∈ terms .word t) : ' ' ∉ s.toList := by
  obtain ⟨token, htoken, rfl⟩ := List.mem_map.1 h
  exact blank_notMem_of_mem_words htoken

/-- A shingle begins with a word of the text. -/
theorem exists_first_of_mem_shingle (h : s ∈ terms .shingle t) :
    ∃ (first : Token) (others : List Token), first ∈ words t.toList ∧ others ≠ [] ∧
      s = groupText (first :: others) := by
  obtain ⟨group, hinfix, hsize, rfl⟩ := mem_shingle_terms_iff.1 h
  cases group with
  | nil => exact absurd hsize (by decide)
  | cons first others =>
      refine ⟨first, others, hinfix.subset List.mem_cons_self, ?_, rfl⟩
      rintro rfl
      have hone : 1 ∈ shingleSizes := hsize
      exact absurd hone (by decide)

/-- A text with a shingle has a word. -/
theorem exists_word_of_mem_shingle (h : s ∈ terms .shingle t) : ∃ w, w ∈ terms .word t := by
  obtain ⟨first, -, hfirst, -⟩ := exists_first_of_mem_shingle h
  exact ⟨first.text, List.mem_map_of_mem hfirst⟩

/-- No word is a shingle. -/
theorem notMem_shingle_of_mem_word (h : s ∈ terms .word t) : s ∉ terms .shingle v := by
  intro hs
  obtain ⟨first, others, -, hothers, rfl⟩ := exists_first_of_mem_shingle hs
  apply blank_notMem_of_mem_word h
  rw [groupText_eq hothers]
  exact List.mem_append_right _ List.mem_cons_self

/-- The words in a tag are those that it has as a text. -/
theorem mem_tag_terms_iff_of_mem_word (h : s ∈ terms .word t) :
    s ∈ terms .tag v ↔ s ∈ terms .word v := by
  rw [mem_tag_terms_iff, or_iff_left (notMem_shingle_of_mem_word h)]

/-- Texts that share a shingle share the word that it begins with. -/
theorem exists_word_of_mem_tag (h : s ∈ terms .shingle t) (hv : s ∈ terms .tag v) :
    ∃ w ∈ terms .word t, w ∈ terms .word v := by
  rcases mem_tag_terms_iff.1 hv with hword | hshingle
  · exact absurd h (notMem_shingle_of_mem_word hword)
  · obtain ⟨first, others, hfirst, hothers, rfl⟩ := exists_first_of_mem_shingle h
    obtain ⟨first', others', hfirst', hothers', htext⟩ := exists_first_of_mem_shingle hshingle
    have hsame := text_eq_of_groupText_eq (blank_notMem_of_mem_words hfirst)
      (blank_notMem_of_mem_words hfirst') hothers hothers' htext
    refine ⟨first.text, List.mem_map_of_mem hfirst, ?_⟩
    rw [hsame]
    exact List.mem_map_of_mem hfirst'

end Pipeline

end Analysis

end EventFinder
