import EventFinder.Import
import EventFinder.Proofs.Outcome
import Mathlib.Data.List.DropRight

/-!
# Reading events

Which inputs hold events is said line by line: a line is `Readable`, or it has a `LineFault`, which depends on
the number of the line. An input is read if all of its lines are readable, and otherwise the fault of the
first line that is not is the error (`decides_readEvents`).

The payload of an event that was read is one line without blanks at its ends, and the event is what is read
from it (`ImportedEvent.Faithful`). So the payloads of events, one on each line, are read as these events
(`readEvents_joined`).
-/

set_option autoImplicit false

namespace EventFinder

/-! ## Texts without blanks at their ends -/

theorem trim_eq_rdropWhile (cs : List Char) : trim cs = (cs.dropWhile isBlank).rdropWhile isBlank := rfl

theorem mem_of_mem_trim {c : Char} {cs : List Char} (h : c ∈ trim cs) : c ∈ cs := by
  rw [trim_eq_rdropWhile] at h
  exact (List.dropWhile_suffix isBlank).mem ((List.rdropWhile_prefix isBlank _).mem h)

/-- What is left begins and ends with other characters than blanks, so there is nothing more to drop. -/
theorem trim_trim (cs : List Char) : trim (trim cs) = trim cs := by
  have hfirst : (trim cs).dropWhile isBlank = trim cs := by
    rw [trim_eq_rdropWhile, List.dropWhile_eq_self_iff]
    intro hlength
    have hhead := List.IsPrefix.getElem (List.rdropWhile_prefix isBlank (cs.dropWhile isBlank)) hlength
    rw [hhead]
    exact List.dropWhile_eq_self_iff.1 (List.dropWhile_idempotent isBlank cs) _
  rw [trim_eq_rdropWhile (trim cs), hfirst, trim_eq_rdropWhile, List.rdropWhile_idempotent]

namespace Import

/-! ## The bytes of texts -/

/-- The bytes of a text in UTF-8. -/
def bytes (s : String) : List UInt8 := s.toUTF8.data.toList

theorem text?_eq_some_iff {line : List UInt8} {s : String} : text? line = some s ↔ line = bytes s := by
  rw [text?, String.fromUTF8?]
  constructor
  · intro h
    split at h
    · cases h
      rfl
    · cases h
  · rintro rfl
    exact dif_pos s.isValidUTF8

theorem bytes_inj {s t : String} : bytes s = bytes t ↔ s = t := by
  constructor
  · intro h
    have hs := text?_eq_some_iff.2 h
    rw [text?_eq_some_iff.2 rfl] at hs
    exact (Option.some.inj hs).symm ▸ rfl
  · rintro rfl
    rfl

theorem bytes_append (s t : String) : bytes (s ++ t) = bytes s ++ bytes t := by
  simp [bytes]

theorem bytes_eq_flatMap (s : String) : bytes s = s.toList.flatMap String.utf8EncodeChar := by
  rw [bytes, String.toUTF8_eq_toByteArray, ← String.utf8Encode_toList, List.utf8Encode,
    List.data_toByteArray]

/-- The bytes of a longer encoding are beyond those that stand for a character alone. -/
theorem le_of_mem_encoded {c : Char} (h : 127 < c.val.toNat) :
    ∀ b ∈ String.utf8EncodeChar c, 128 ≤ b.toNat := by
  unfold String.utf8EncodeChar
  dsimp only
  rw [if_neg (by omega)]
  split_ifs
  all_goals
    simp only [List.forall_mem_cons, List.not_mem_nil, false_implies, implies_true, and_true,
      UInt8.toNat_ofNat']
    omega

/-- The byte of a line feed encodes line feeds alone. -/
theorem lineFeed_mem_encoded_iff {c : Char} : lineFeed ∈ String.utf8EncodeChar c ↔ c = '\n' := by
  constructor
  · intro h
    by_cases hc : 127 < c.val.toNat
    · exact absurd (le_of_mem_encoded hc _ h) (by decide)
    · have hsingle : String.utf8EncodeChar c = [UInt8.ofNat c.val.toNat] := if_pos (by omega)
      rw [hsingle, List.mem_singleton, ← UInt8.toNat_inj, UInt8.toNat_ofNat',
        Nat.mod_eq_of_lt (by omega)] at h
      exact Char.ext (UInt32.toNat_inj.1 h.symm)
  · rintro rfl
    decide

theorem lineFeed_mem_bytes_iff {s : String} : lineFeed ∈ bytes s ↔ '\n' ∈ s.toList := by
  rw [bytes_eq_flatMap, List.mem_flatMap]
  simp only [lineFeed_mem_encoded_iff, exists_eq_right]

/-! ## Lines -/

theorem lineFeed_notMem_linesFrom {current input line : List UInt8} (hcurrent : lineFeed ∉ current)
    (h : line ∈ linesFrom current input) : lineFeed ∉ line := by
  induction input generalizing current with
  | nil =>
      rw [linesFrom] at h
      split at h
      · cases h
      · rw [List.mem_singleton.1 h, List.mem_reverse]
        exact hcurrent
  | cons byte rest ih =>
      rw [linesFrom] at h
      split at h
      · rcases List.mem_cons.1 h with rfl | h
        · rw [List.mem_reverse]
          exact hcurrent
        · exact ih List.not_mem_nil h
      · -- The line goes on by a byte that ends none.
        rename_i hbyte
        refine ih (fun hmem => ?_) h
        rcases List.mem_cons.1 hmem with heq | hmem
        · exact hbyte heq.symm
        · exact hcurrent hmem

theorem lineFeed_notMem_of_mem_lines {input line : List UInt8} (h : line ∈ lines input) : lineFeed ∉ line :=
  lineFeed_notMem_linesFrom List.not_mem_nil h

theorem linesFrom_of_notMem {line : List UInt8} (h : lineFeed ∉ line) {current : List UInt8}
    (hne : current.reverse ++ line ≠ []) : linesFrom current line = [current.reverse ++ line] := by
  induction line generalizing current with
  | nil =>
      rw [List.append_nil] at hne ⊢
      rw [linesFrom, if_neg]
      rwa [List.isEmpty_iff, ← List.reverse_eq_nil_iff]
  | cons byte rest ih =>
      rw [List.mem_cons, not_or] at h
      rw [linesFrom, if_neg (Ne.symm h.1), ih h.2 (by simp)]
      simp

/-- A line without an end is a line, if there is anything on it. -/
theorem lines_of_notMem {line : List UInt8} (h : lineFeed ∉ line) (hne : line ≠ []) : lines line = [line] :=
  linesFrom_of_notMem h hne

/-- Lines that are joined are the lines of the whole, unless the last one is empty. -/
theorem lines_intercalate {pieces : List (List UInt8)} (h : ∀ piece ∈ pieces, lineFeed ∉ piece ∧ piece ≠ []) :
    lines ([lineFeed].intercalate pieces) = pieces := by
  induction pieces with
  | nil => rfl
  | cons piece rest ih =>
      rw [List.forall_mem_cons] at h
      cases rest with
      | nil => rw [List.intercalate_singleton, lines_of_notMem h.1.1 h.1.2]
      | cons next rest =>
          rw [List.intercalate_cons_cons, List.append_assoc, List.singleton_append, lines_append h.1.1,
            ih h.2]

/-! ## Readable lines -/

/-- A line is text, and blank or the text of an event but for blanks at its ends. -/
def Readable (line : List UInt8) : Prop :=
  ∃ s, line = bytes s ∧ (trim s.toList = [] ∨ ∃ event, Event.ofText (trim s.toList) = .ok event)

/-- What is wrong with the line of this number. -/
inductive LineFault (number : Nat) (line : List UInt8) : ImportError → Prop where
  | notText (other : ∀ s, line ≠ bytes s) : LineFault number line .notText
  | notEvent {s : String} {fault : Json.Fault} (text : line = bytes s) (filled : trim s.toList ≠ [])
      (refused : Event.ofText (trim s.toList) = .error fault) : LineFault number line (.notEvent number fault)

theorem readable_bytes_iff {s : String} :
    Readable (bytes s) ↔ trim s.toList = [] ∨ ∃ event, Event.ofText (trim s.toList) = .ok event := by
  constructor
  · rintro ⟨t, ht, h⟩
    obtain rfl := bytes_inj.1 ht
    exact h
  · exact fun h => ⟨s, rfl, h⟩

theorem lineFault_bytes_iff {number : Nat} {s : String} {e : ImportError} :
    LineFault number (bytes s) e ↔
      trim s.toList ≠ [] ∧
        ∃ fault, Event.ofText (trim s.toList) = .error fault ∧ e = .notEvent number fault := by
  constructor
  · intro h
    cases h with
    | notText other => exact absurd rfl (other s)
    | notEvent text filled refused =>
        obtain rfl := bytes_inj.1 text
        exact ⟨filled, _, refused, rfl⟩
  · rintro ⟨filled, fault, refused, rfl⟩
    exact LineFault.notEvent rfl filled refused

theorem decides_readLine (number : Nat) (line : List UInt8) :
    Decides (readLine number line) (Readable line) (LineFault number line) := by
  rw [readLine]
  cases htext : text? line with
  | none =>
      have hother : ∀ s, line ≠ bytes s := fun s hs => by
        rw [text?_eq_some_iff.2 hs] at htext
        cases htext
      apply Decides.of_error _ fun ⟨s, hs, _⟩ => hother s hs
      intro e
      constructor
      · intro h
        cases h with
        | notText => rfl
        | notEvent text => exact absurd text (hother _)
      · rintro rfl
        exact LineFault.notText hother
  | some s =>
      obtain rfl := text?_eq_some_iff.1 htext
      apply Decides.congr _ readable_bytes_iff.symm fun e => lineFault_bytes_iff.symm
      dsimp only
      cases htrim : trim s.toList with
      | nil => exact Decides.of_ok none (Or.inl rfl) fun e h => h.1 rfl
      | cons c cs =>
          cases hevent : Event.ofText (c :: cs) with
          | ok event => exact Decides.of_ok _ (Or.inr ⟨event, rfl⟩) fun e ⟨_, fault, h, _⟩ => nomatch h
          | error fault => exact Decides.of_error _ (by simp) (by simp)

theorem readLine_ok_none_iff {number : Nat} {line : List UInt8} :
    readLine number line = .ok none ↔ ∃ s, line = bytes s ∧ trim s.toList = [] := by
  constructor
  · intro h
    rw [readLine] at h
    split at h
    · cases h
    · rename_i s hs
      dsimp only at h
      split at h
      · rename_i hempty
        exact ⟨s, text?_eq_some_iff.1 hs, List.isEmpty_iff.1 hempty⟩
      · split at h <;> cases h
  · rintro ⟨s, rfl, hempty⟩
    rw [readLine, text?_eq_some_iff.2 rfl]
    dsimp only
    rw [if_pos (List.isEmpty_iff.2 hempty)]

theorem readLine_ok_some_iff {number : Nat} {line : List UInt8} {e : ImportedEvent} :
    readLine number line = .ok (some e) ↔
      ∃ s, line = bytes s ∧ trim s.toList ≠ [] ∧ e.payload.toList = trim s.toList ∧
        Event.ofText e.payload.toList = .ok e.event := by
  constructor
  · intro h
    rw [readLine] at h
    split at h
    · cases h
    · rename_i s hs
      dsimp only at h
      split at h
      · cases h
      · rename_i hfilled
        split at h
        · rename_i event hevent
          cases h
          refine ⟨s, text?_eq_some_iff.1 hs, fun hnil => hfilled (List.isEmpty_iff.2 hnil),
            String.toList_ofList, ?_⟩
          rw [String.toList_ofList]
          exact hevent
        · cases h
  · rintro ⟨s, rfl, hfilled, hpayload, hread⟩
    rw [hpayload] at hread
    rw [readLine, text?_eq_some_iff.2 rfl]
    dsimp only
    rw [if_neg fun h => hfilled (List.isEmpty_iff.1 h), hread, ← hpayload]
    dsimp only
    rw [String.ofList_toList]

/-- Reading lines is reading each with its number, and leaving out what blank ones give. -/
theorem readLines_eq_mapM (number : Nat) (ls : List (List UInt8)) :
    readLines number ls = do
      let found ← (ls.zipIdx number).mapM fun line => readLine line.2 line.1
      return found.flatMap Option.toList := by
  induction ls generalizing number with
  | nil => rfl
  | cons line rest ih =>
      rw [readLines, List.zipIdx_cons, List.mapM_cons, ih]
      cases readLine number line with
      | error e => rfl
      | ok found =>
          cases (rest.zipIdx (number + 1)).mapM fun line => readLine line.2 line.1 with
          | error e => rfl
          | ok others => rfl

/-- The first fault among the lines of an input. -/
def FirstFault (input : List UInt8) : ImportError → Prop :=
  FirstRefused (fun line => Readable line.1) (fun line => LineFault line.2 line.1) ((lines input).zipIdx 1)

/-- An input is read if all of its lines are readable, and else the fault of the first other one is the
error. -/
theorem decides_readEvents (input : List UInt8) :
    Decides (readEvents input) (∀ line ∈ lines input, Readable line) (FirstFault input) := by
  have hlines : Decides (((lines input).zipIdx 1).mapM fun line => readLine line.2 line.1) _ _ :=
    Decides.mapM fun line _ => decides_readLine line.2 line.1
  rw [readEvents, readLines_eq_mapM]
  apply hlines.map.congr _ fun e => Iff.rfl
  rw [← List.forall_mem_map, List.zipIdx_map_fst]

end Import

/-! ## What is read -/

namespace ImportedEvent

/-- The event is what is read from its payload, which is a line without blanks at its ends. -/
structure Faithful (e : ImportedEvent) : Prop where
  trimmed : trim e.payload.toList = e.payload.toList
  filled : e.payload ≠ ""
  oneLine : '\n' ∉ e.payload.toList
  read : Event.ofText e.payload.toList = .ok e.event

end ImportedEvent

namespace Import

/-- What a line gives that is not blank. -/
theorem faithful_of_readLine {number : Nat} {line : List UInt8} {e : ImportedEvent} (h : lineFeed ∉ line)
    (hread : readLine number line = .ok (some e)) : e.Faithful := by
  obtain ⟨s, rfl, hfilled, hpayload, hevent⟩ := readLine_ok_some_iff.1 hread
  -- As there is no line feed in the bytes of the line, there is none in its text and in what is left of it.
  rw [lineFeed_mem_bytes_iff] at h
  constructor
  · rw [hpayload, trim_trim]
  · intro hempty
    rw [← String.toList_eq_nil_iff, hpayload] at hempty
    exact hfilled hempty
  · rw [hpayload]
    exact fun hmem => h (mem_of_mem_trim hmem)
  · exact hevent

/-- Events that are read are what is read from their payloads. -/
theorem faithful_of_mem {input : List UInt8} {events : List ImportedEvent} (h : readEvents input = .ok events)
    {e : ImportedEvent} (he : e ∈ events) : e.Faithful := by
  rw [readEvents, readLines_eq_mapM] at h
  obtain ⟨found, hfound, h⟩ := bind_eq_ok_iff.1 h
  cases h
  obtain ⟨read, hmem, hread⟩ := List.mem_flatMap.1 he
  obtain ⟨⟨line, number⟩, hline, hreadLine⟩ := exists_of_mem_mapM hfound hmem
  rw [Option.mem_toList.1 hread] at hreadLine
  have hmemLine : line ∈ lines input := by
    rw [← List.zipIdx_map_fst 1 (lines input)]
    exact List.mem_map_of_mem hline
  exact faithful_of_readLine (lineFeed_notMem_of_mem_lines hmemLine) hreadLine

/-- The payload of an event, on a line of its own, is read as the event. -/
theorem readLine_payload {e : ImportedEvent} (h : e.Faithful) (number : Nat) :
    readLine number (bytes e.payload) = .ok (some e) := by
  have hfilled : trim e.payload.toList ≠ [] := by
    rw [h.trimmed, ne_eq, String.toList_eq_nil_iff]
    exact h.filled
  exact readLine_ok_some_iff.2 ⟨e.payload, rfl, hfilled, h.trimmed.symm, h.read⟩

theorem readLines_payloads {events : List ImportedEvent} (h : ∀ e ∈ events, e.Faithful) (number : Nat) :
    readLines number (events.map fun e => bytes e.payload) = .ok events := by
  induction events generalizing number with
  | nil => rfl
  | cons e rest ih =>
      rw [List.forall_mem_cons] at h
      rw [List.map_cons, readLines, readLine_payload h.1, ih h.2]
      rfl

theorem bytes_intercalate (texts : List String) :
    bytes ("\n".intercalate texts) = [lineFeed].intercalate (texts.map bytes) := by
  induction texts with
  | nil => rfl
  | cons s rest ih =>
      cases rest with
      | nil => rw [String.intercalate_singleton, List.map_singleton, List.intercalate_singleton]
      | cons t rest =>
          rw [String.intercalate_cons_cons, bytes_append, bytes_append, ih, List.map_cons, List.map_cons,
            List.map_cons, List.intercalate_cons_cons]
          rfl

/-- The payloads of events, joined with line feeds, are read as the events. -/
theorem readEvents_joined {events : List ImportedEvent} (h : ∀ e ∈ events, e.Faithful) :
    readEvents (bytes ("\n".intercalate (events.map ImportedEvent.payload))) = .ok events := by
  have hpieces : ∀ piece ∈ events.map fun e => bytes e.payload, lineFeed ∉ piece ∧ piece ≠ [] := by
    intro piece hpiece
    obtain ⟨e, he, rfl⟩ := List.mem_map.1 hpiece
    refine ⟨lineFeed_mem_bytes_iff.not.2 (h e he).oneLine, fun hnil => (h e he).filled ?_⟩
    exact bytes_inj.1 (hnil.trans (by rfl : ([] : List UInt8) = bytes ""))
  rw [bytes_intercalate, List.map_map]
  change readLines 1 (lines ([lineFeed].intercalate (events.map fun e => bytes e.payload))) = _
  rw [lines_intercalate hpieces, readLines_payloads h]

end Import

end EventFinder
