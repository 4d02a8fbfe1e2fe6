import EventFinder.Proofs.Analysis.Tokens
import Mathlib.Data.List.Forall2

/-!
# Windows of words

The shingles of a text are its windows of two and three neighbouring words, and the tokens of a tag are those of one,
two and three, in order (`shingles_are_windows`). A window stands in the text from its first word to its last one, and
what stands there has exactly these words (`hasPart_of_joins`): overlong runs between them are no words there either.
-/

set_option autoImplicit false

namespace EventFinder

theorem byteLength_eq_utf8ByteSize (cs : List Char) : byteLength cs = (String.ofList cs).utf8ByteSize := by
  induction cs with
  | nil => rfl
  | cons c rest ih =>
      have hsplit : String.ofList (c :: rest) = String.singleton c ++ String.ofList rest := by
        rw [← String.toList_inj]
        simp
      rw [byteLength, ih, hsplit, String.utf8ByteSize_append, String.utf8ByteSize_singleton]

theorem byteLength_toList (s : String) : byteLength s.toList = s.utf8ByteSize := by
  rw [byteLength_eq_utf8ByteSize, String.ofList_toList]

namespace Analysis

/-- A token of a text that begins so many bytes and words later. -/
def Token.later (bytes count : Nat) (token : Token) : Token :=
  { token with start := token.start + bytes, stop := token.stop + bytes, position := token.position + count }

/-! ## Words and their runs -/

theorem word?_later {run : Run} {position : Nat} (n count : Nat) :
    (run.later n).word? (position + count) = (run.word? position).map (Token.later n count) := by
  rw [Run.word?, Run.word?]
  by_cases h : byteLength run.chars < wordLimit
  · rw [if_pos h, Option.map_some, Run.later, if_pos h]
    simp only [Token.later, Run.stop, Nat.add_right_comm]
  · rw [if_neg h, Option.map_none]
    exact if_neg h

theorem wordsOfRuns_later (n count position : Nat) (rs : List Run) :
    wordsOfRuns (position + count) (rs.map (Run.later n)) =
      (wordsOfRuns position rs).map (Token.later n count) := by
  induction rs generalizing position with
  | nil => rfl
  | cons run rest ih =>
      rw [List.map_cons, wordsOfRuns, wordsOfRuns, word?_later, Nat.add_right_comm, ih]
      cases run.word? position with
      | none => rfl
      | some token => rfl

theorem wordsOfRuns_append (position : Nat) (rs others : List Run) :
    wordsOfRuns position (rs ++ others) =
      wordsOfRuns position rs ++ wordsOfRuns (position + rs.length) others := by
  induction rs generalizing position with
  | nil => rfl
  | cons run rest ih =>
      rw [List.cons_append, wordsOfRuns, wordsOfRuns, ih, List.length_cons, Nat.add_right_comm,
        Nat.add_assoc]
      cases run.word? position with
      | none => rfl
      | some token => rfl

theorem wordsOfRuns_cons {position : Nat} {run : Run} {token : Token} (h : run.word? position = some token)
    (rest : List Run) : wordsOfRuns position (run :: rest) = token :: wordsOfRuns (position + 1) rest := by
  rw [wordsOfRuns, h]

/-- A word comes from a run, and the words before and behind it from the runs before and behind. -/
theorem exists_run_of_words_eq {position : Nat} {rs : List Run} {front back : List Token} {token : Token}
    (h : wordsOfRuns position rs = front ++ token :: back) :
    ∃ before run after, rs = before ++ run :: after ∧ wordsOfRuns position before = front ∧
      run.word? (position + before.length) = some token ∧
      wordsOfRuns (position + before.length + 1) after = back := by
  induction rs generalizing position front with
  | nil => simp [wordsOfRuns] at h
  | cons run rest ih =>
      have hcount : ∀ n, position + (n + 1) = position + 1 + n := fun n => by omega
      cases hword : run.word? position with
      | none =>
          -- The run is no word, so the word comes from the rest.
          have hrest : wordsOfRuns position (run :: rest) = wordsOfRuns (position + 1) rest := by
            rw [wordsOfRuns, hword]
          rw [hrest] at h
          obtain ⟨before, run', after, rfl, hbefore, htoken, hafter⟩ := ih h
          refine ⟨run :: before, run', after, rfl, ?_, ?_, ?_⟩
          · rwa [wordsOfRuns, hword]
          · rwa [List.length_cons, hcount]
          · rwa [List.length_cons, hcount]
      | some word =>
          rw [wordsOfRuns_cons hword] at h
          cases front with
          | nil =>
              obtain ⟨rfl, hback⟩ := List.cons.inj h
              exact ⟨[], run, rest, rfl, rfl, hword, hback⟩
          | cons first front =>
              obtain ⟨rfl, htail⟩ := List.cons.inj h
              obtain ⟨before, run', after, rfl, hbefore, htoken, hafter⟩ := ih htail
              refine ⟨run :: before, run', after, rfl, ?_, ?_, ?_⟩
              · rw [wordsOfRuns_cons hword, hbefore]
              · rwa [List.length_cons, hcount]
              · rwa [List.length_cons, hcount]

theorem word?_eq_some_iff {run : Run} {position : Nat} {token : Token} :
    run.word? position = some token ↔
      byteLength run.chars < wordLimit ∧ token = ⟨lowered run.chars, run.start, run.stop, position, 1⟩ := by
  rw [Run.word?]
  split
  · rename_i h
    simp [h, eq_comm]
  · rename_i h
    simp [h]

/-! ## Parts of a text -/

/-- The words of a part, at their places in the whole. -/
theorem map_later_words (start position : Nat) (part : List Char) :
    (words part).map (Token.later start position) = wordsOfRuns position (runs start part) := by
  have hruns := runs_add 0 start part
  rw [Nat.zero_add] at hruns
  rw [words, hruns, ← wordsOfRuns_later, Nat.zero_add]

/-- The token is some neighbouring words, joined by blanks, in their place. -/
structure Joins (group : List Token) (token : Token) : Prop where
  text : token.text = groupText group
  start : group.head?.map Token.start = some token.start
  stop : group.getLast?.map Token.stop = some token.stop
  position : group.head?.map Token.position = some token.position
  span : token.span = group.length

/-- Between the bytes of the token there is something, which has these words. -/
def HasPart (text : List Char) (token : Token) (group : List Token) : Prop :=
  ∃ before part after, text = before ++ (part ++ after) ∧ part ≠ [] ∧ token.start = byteLength before ∧
    token.stop = byteLength before + byteLength part ∧
    (words part).map (Token.later token.start token.position) = group

variable {text : List Char} {front back : List Token} {token : Token}

/-- What stands in the place of a word is this word. -/
theorem hasPart_word {word : Token} (h : words text = front ++ word :: back) (hstart : token.start = word.start)
    (hstop : token.stop = word.stop) (hposition : token.position = word.position) :
    HasPart text token [word] := by
  obtain ⟨before, run, after, hruns, -, hword, -⟩ := exists_run_of_words_eq h
  obtain ⟨textFront, textBack, htext, -, hne, hblock, -, -, hrun, -⟩ := exists_of_runs_eq hruns
  obtain ⟨-, rfl⟩ := word?_eq_some_iff.1 hword
  rw [Nat.zero_add] at hrun
  refine ⟨textFront, run.chars, textBack, htext, hne, hstart.trans hrun, ?_, ?_⟩
  · rw [hstop, Run.stop, hrun]
  · rw [map_later_words, hstart, hposition, runs_of_block hne hblock, wordsOfRuns_cons hword]
    rfl

/-- What stands from one word to another one are these words and those between them. -/
theorem hasPart_words {first last : Token} {inner : List Token}
    (h : words text = front ++ first :: (inner ++ last :: back)) (hstart : token.start = first.start)
    (hstop : token.stop = last.stop) (hposition : token.position = first.position) :
    HasPart text token (first :: (inner ++ [last])) := by
  obtain ⟨before, run, after, hruns, -, hword, hafter⟩ := exists_run_of_words_eq h
  obtain ⟨between, lastRun, behind, rfl, hbetween, hlastWord, -⟩ := exists_run_of_words_eq hafter
  obtain ⟨textFront, rest, rfl, -, hne, hblock, hrest, -, hrun, hrestRuns⟩ := exists_of_runs_eq hruns
  obtain ⟨middle, textBack, rfl, hapart, hlastNe, hlastBlock, -, hmiddleRuns, hlastRun, -⟩ :=
    exists_of_runs_eq hrestRuns
  obtain ⟨-, rfl⟩ := word?_eq_some_iff.1 hword
  obtain ⟨-, rfl⟩ := word?_eq_some_iff.1 hlastWord
  rw [Nat.zero_add] at hrun
  -- The part is the first run, what is between the two, and the last run; so it has the runs from the one to the other.
  have hmiddle : StartsOff (middle ++ lastRun.chars) := by
    rw [← List.append_assoc] at hrest
    exact hrest.of_append
  have hpartRuns : runs run.start (run.chars ++ (middle ++ lastRun.chars)) = run :: (between ++ [lastRun]) := by
    rw [runs_append (hmiddle.apart _), runs_of_block hne hblock, runs_append hapart,
      runs_of_block hlastNe hlastBlock, ← hmiddleRuns]
    change run :: (runs run.stop middle ++ [⟨lastRun.chars, run.stop + byteLength middle⟩]) = _
    rw [← hlastRun]
  refine ⟨textFront, run.chars ++ (middle ++ lastRun.chars), textBack, by simp, by simp [hne],
    hstart.trans hrun, ?_, ?_⟩
  · rw [hstop, Run.stop, hlastRun, Run.stop, hrun]
    simp only [byteLength_append]
    omega
  · rw [map_later_words, hstart, hposition, hpartRuns, wordsOfRuns_cons hword, wordsOfRuns_append, hbetween,
      wordsOfRuns_cons hlastWord]
    rfl

/-- What stands in the place of neighbouring words are these words. -/
theorem hasPart_of_joins {group : List Token} (h : words text = front ++ (group ++ back)) (hjoins : Joins group token) :
    HasPart text token group := by
  obtain ⟨-, hstart, hstop, hposition, -⟩ := hjoins
  cases group with
  | nil => cases hstart
  | cons first others =>
      rw [List.head?_cons, Option.map_some, Option.some.injEq] at hstart hposition
      rcases others.eq_nil_or_concat with rfl | ⟨inner, last, rfl⟩
      · rw [List.getLast?_singleton, Option.map_some, Option.some.injEq] at hstop
        exact hasPart_word h hstart.symm hstop.symm hposition.symm
      · rw [List.concat_eq_append, ← List.cons_append, List.getLast?_concat, Option.map_some,
          Option.some.injEq] at hstop
        rw [List.concat_eq_append] at h ⊢
        rw [List.cons_append, List.append_assoc, List.singleton_append] at h
        exact hasPart_words h hstart.symm hstop.symm hposition.symm

/-! ## Windows -/

/-- The places of the windows of these sizes among so many words: the first word and the size, in order. -/
def windowPlaces (sizes : List Nat) (count : Nat) : List (Nat × Nat) :=
  (List.range count).flatMap fun first =>
    (sizes.filter fun size => first + size ≤ count).map fun size => (first, size)

/-- The words of the window at a place. -/
def window (ws : List Token) (place : Nat × Nat) : List Token := (ws.drop place.1).take place.2

/-- The token is the window at the place, which does not go beyond the words. -/
def IsWindowOf (ws : List Token) (place : Nat × Nat) (token : Token) : Prop :=
  (window ws place).length = place.2 ∧ Joins (window ws place) token

/-- The window of so many words that begins with `word`, if there are enough words. -/
def windowAt? (word : Token) (rest : List Token) (size : Nat) : Option Token :=
  if size ≤ rest.length + 1 then some (joinWords word (rest.take (size - 1))) else none

/-- The windows of these sizes, by first word and then by size. -/
def windowsOf (sizes : List Nat) : List Token → List Token
  | [] => []
  | word :: rest => sizes.filterMap (windowAt? word rest) ++ windowsOf sizes rest

theorem joins_joinWords (first : Token) (others : List Token) : Joins (first :: others) (joinWords first others) where
  text := rfl
  start := rfl
  stop := by
    rw [List.getLast?_cons]
    rfl
  position := rfl
  span := rfl

theorem windowPlaces_succ (sizes : List Nat) (count : Nat) :
    windowPlaces sizes (count + 1) =
      ((sizes.filter fun size => size ≤ count + 1).map fun size => (0, size)) ++
        (windowPlaces sizes count).map fun place => (place.1 + 1, place.2) := by
  rw [windowPlaces, List.range_succ_eq_map, List.flatMap_cons, List.flatMap_map, windowPlaces, List.map_flatMap]
  congr 1
  · simp only [Nat.zero_add]
  · simp only [Nat.succ_eq_add_one, Nat.add_right_comm _ 1, Nat.add_le_add_iff_right, List.map_map]
    rfl

example : windowPlaces [2, 3] 3 = [(0, 2), (0, 3), (1, 2)] := rfl

/-- The windows that begin with the first word. -/
theorem forall₂_front (word : Token) (rest : List Token) {sizes : List Nat} (hpos : ∀ size ∈ sizes, 0 < size) :
    List.Forall₂ (IsWindowOf (word :: rest))
      ((sizes.filter fun size => size ≤ rest.length + 1).map fun size => (0, size))
      (sizes.filterMap (windowAt? word rest)) := by
  induction sizes with
  | nil => exact .nil
  | cons size sizes ih =>
      rw [List.forall_mem_cons] at hpos
      by_cases hsize : size ≤ rest.length + 1
      · have hwindow : windowAt? word rest size = some (joinWords word (rest.take (size - 1))) := if_pos hsize
        rw [List.filter_cons_of_pos (by simpa using hsize), List.map_cons, List.filterMap_cons_some hwindow]
        obtain ⟨others, rfl⟩ := Nat.exists_eq_succ_of_ne_zero (Nat.ne_of_gt hpos.1)
        refine .cons ⟨?_, joins_joinWords word _⟩ (ih hpos.2)
        rw [window, List.drop_zero, List.take_succ_cons, List.length_cons, List.length_take,
          Nat.min_eq_left (Nat.le_of_succ_le_succ hsize)]
      · have hwindow : windowAt? word rest size = none := if_neg hsize
        rw [List.filter_cons_of_neg (by simpa using hsize), List.filterMap_cons_none hwindow]
        exact ih hpos.2

/-- Each window is there as a token, in order. -/
theorem forall₂_windowsOf {sizes : List Nat} (hpos : ∀ size ∈ sizes, 0 < size) (ws : List Token) :
    List.Forall₂ (IsWindowOf ws) (windowPlaces sizes ws.length) (windowsOf sizes ws) := by
  induction ws with
  | nil => exact .nil
  | cons word rest ih =>
      rw [List.length_cons, windowPlaces_succ, windowsOf]
      -- Behind the windows that begin with the first word come those of the rest.
      exact List.rel_append (forall₂_front word rest hpos) (List.forall₂_map_left_iff.2 ih)

/-! ## The windows of a text -/

theorem span_of_mem_wordsOfRuns {position : Nat} {rs : List Run} :
    ∀ word ∈ wordsOfRuns position rs, word.span = 1 := by
  induction rs generalizing position with
  | nil => exact List.forall_mem_nil _
  | cons run rest ih =>
      rw [wordsOfRuns]
      cases hword : run.word? position with
      | none => exact ih
      | some token =>
          obtain ⟨-, rfl⟩ := word?_eq_some_iff.1 hword
          exact List.forall_mem_cons.2 ⟨rfl, ih⟩

theorem span_of_mem_words {text : List Char} : ∀ word ∈ words text, word.span = 1 := span_of_mem_wordsOfRuns

theorem shinglesAt_eq (word : Token) (rest : List Token) :
    shinglesAt word rest = shingleSizes.filterMap (windowAt? word rest) := rfl

theorem shinglesOf_eq_windowsOf (ws : List Token) : shinglesOf ws = windowsOf shingleSizes ws := by
  induction ws with
  | nil => rfl
  | cons word rest ih => rw [shinglesOf, windowsOf, ih, shinglesAt_eq]

theorem withShingles_eq_windowsOf {ws : List Token} (h : ∀ word ∈ ws, word.span = 1) :
    withShingles ws = windowsOf (1 :: shingleSizes) ws := by
  induction ws with
  | nil => rfl
  | cons word rest ih =>
      rw [List.forall_mem_cons] at h
      -- A window of one word is the word.
      have hone : windowAt? word rest 1 = some word := by
        have hword : joinWords word [] = word := by
          rw [joinWords, List.length_nil, Nat.zero_add, ← h.1]
          simp
        rw [windowAt?, if_pos (Nat.le_add_left 1 _), Nat.sub_self, List.take_zero, hword]
      rw [withShingles, windowsOf, ih h.2, List.filterMap_cons_some hone, List.cons_append, shinglesAt_eq]

theorem span_of_mem_shinglesAt {word : Token} {rest : List Token} :
    ∀ token ∈ shinglesAt word rest, token.span ≠ 1 := by
  rw [shinglesAt_eq]
  intro token htoken
  obtain ⟨size, hsize, hwindow⟩ := List.mem_filterMap.1 htoken
  rw [windowAt?] at hwindow
  split at hwindow
  · rename_i hle
    have hspan : token.span = (rest.take (size - 1)).length + 1 := by
      rw [← Option.some.inj hwindow]
      rfl
    rw [shingleSizes, List.mem_cons, List.mem_singleton] at hsize
    rw [hspan, List.length_take]
    omega
  · cases hwindow

/-- Words are the tokens of one word among words and shingles, and shingles are the others. -/
theorem filter_withShingles {ws : List Token} (h : ∀ word ∈ ws, word.span = 1) :
    (withShingles ws).filter (fun token => token.span = 1) = ws ∧
      (withShingles ws).filter (fun token => token.span ≠ 1) = shinglesOf ws := by
  induction ws with
  | nil => exact ⟨rfl, rfl⟩
  | cons word rest ih =>
      rw [List.forall_mem_cons] at h
      obtain ⟨ihWords, ihShingles⟩ := ih h.2
      have hone : (shinglesAt word rest).filter (fun token => token.span = 1) = [] :=
        List.filter_eq_nil_iff.2 fun token htoken => by simpa using span_of_mem_shinglesAt token htoken
      have hseveral : (shinglesAt word rest).filter (fun token => token.span ≠ 1) = shinglesAt word rest :=
        List.filter_eq_self.2 fun token htoken => by simpa using span_of_mem_shinglesAt token htoken
      constructor
      · rw [withShingles, List.filter_cons_of_pos (by simpa using h.1), List.filter_append, hone, ihWords,
          List.nil_append]
      · rw [withShingles, List.filter_cons_of_neg (by simpa using h.1), List.filter_append, hseveral, ihShingles,
          shinglesOf]

/-- The token is the window of the text at the place: it has the joined text of its words, the place of the first
word and the end of the last one, and what stands there in the text has exactly these words, at the same places. -/
structure IsWindow (text : String) (place : Nat × Nat) (token : Token) : Prop where
  joins : IsWindowOf (Pipeline.word.tokens text) place token
  inside : token.start < token.stop
  part : ∃ before part after : String, text = before ++ part ++ after ∧ before.utf8ByteSize = token.start ∧
    (before ++ part).utf8ByteSize = token.stop ∧
    (Pipeline.word.tokens part).map (Token.later token.start token.position) =
      window (Pipeline.word.tokens text) place

theorem isWindow_of_isWindowOf {text : String} {place : Nat × Nat} {token : Token}
    (h : IsWindowOf (Pipeline.word.tokens text) place token) : IsWindow text place token := by
  have hwords : words text.toList = (words text.toList).take place.1 ++ (window (words text.toList) place ++
      ((words text.toList).drop place.1).drop place.2) := by
    rw [window, List.take_append_drop, List.take_append_drop]
  obtain ⟨before, part, after, htext, hne, hstart, hstop, hpart⟩ := hasPart_of_joins hwords h.2
  refine ⟨h, ?_, String.ofList before, String.ofList part, String.ofList after, ?_, ?_, ?_, ?_⟩
  · have hpos := byteLength_pos hne
    omega
  · rw [← String.toList_inj, htext]
    simp
  · rw [← byteLength_toList, String.toList_ofList, hstart]
  · rw [← byteLength_toList, String.toList_append, byteLength_append, String.toList_ofList, String.toList_ofList,
      hstop]
  · rw [Pipeline.tokens, String.toList_ofList]
    exact hpart

/-- The shingles of a text are its windows of two and of three words, one token for each, by first word and then by
size. The tokens of a tag are its windows of one, two and three words; without those of one word they are the
shingles, and those of one word are the words. -/
theorem shingles_are_windows (text : String) :
    List.Forall₂ (IsWindow text) (windowPlaces [2, 3] (Pipeline.word.tokens text).length)
      (Pipeline.shingle.tokens text) ∧
    List.Forall₂ (IsWindow text) (windowPlaces [1, 2, 3] (Pipeline.word.tokens text).length)
      (Pipeline.tag.tokens text) ∧
    (Pipeline.tag.tokens text).filter (fun token => token.span ≠ 1) = Pipeline.shingle.tokens text ∧
    (Pipeline.tag.tokens text).filter (fun token => token.span = 1) = Pipeline.word.tokens text := by
  have hspans : ∀ word ∈ words text.toList, word.span = 1 := span_of_mem_words
  have hwindows : ∀ sizes : List Nat, (∀ size ∈ sizes, 0 < size) →
      List.Forall₂ (IsWindow text) (windowPlaces sizes (Pipeline.word.tokens text).length)
        (windowsOf sizes (words text.toList)) := fun sizes hpos =>
    (forall₂_windowsOf hpos (words text.toList)).imp fun _ _ => isWindow_of_isWindowOf
  obtain ⟨hwords, hshingles⟩ := filter_withShingles hspans
  refine ⟨?_, ?_, hshingles, hwords⟩
  · change List.Forall₂ _ _ (shinglesOf (words text.toList))
    rw [shinglesOf_eq_windowsOf]
    exact hwindows shingleSizes (by decide)
  · change List.Forall₂ _ _ (withShingles (words text.toList))
    rw [withShingles_eq_windowsOf hspans]
    exact hwindows (1 :: shingleSizes) (by decide)

end Analysis

end EventFinder
