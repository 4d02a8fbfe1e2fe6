import EventFinder.Proofs.Import.Events
import Mathlib.Data.List.Basic

/-!
# The events on the lines of an input

The lines of an input are the pieces between its line feeds, but for an empty one at the end
(`lines_eq_piecesOf`). On each line there is an event, or the line is blank (`EventsOn`). So the pieces alone say
which events are read from an input, and which error there is: the one of the first line that is not readable,
with its number among all lines (`readEvents_exact`). Inputs that are joined by a line feed hold the events of both
(`readEvents_append`).
-/

set_option autoImplicit false

namespace EventFinder

namespace Import

/-! ## Pieces between line feeds -/

/-- The pieces without the last one if that is empty. -/
def dropEmptyEnd (pieces : List (List UInt8)) : List (List UInt8) :=
  if pieces.getLast? = some [] then pieces.dropLast else pieces

/-- The pieces of an input between line feeds. One behind the last line feed counts unless it is empty. -/
def piecesOf (input : List UInt8) : List (List UInt8) := dropEmptyEnd (input.splitOn lineFeed)

theorem dropEmptyEnd_cons {piece : List UInt8} {rest : List (List UInt8)} (h : rest ≠ []) :
    dropEmptyEnd (piece :: rest) = piece :: dropEmptyEnd rest := by
  rw [dropEmptyEnd, dropEmptyEnd, List.getLast?_cons_of_ne_nil h, List.dropLast_cons_of_ne_nil h]
  split <;> rfl

theorem modifyHead_nil_append (pieces : List (List UInt8)) :
    pieces.modifyHead (([] : List UInt8).reverse ++ ·) = pieces := by
  cases pieces <;> rfl

/-- What was read of a line before the input belongs to the first piece. -/
theorem linesFrom_eq (current input : List UInt8) :
    linesFrom current input = dropEmptyEnd ((input.splitOn lineFeed).modifyHead (current.reverse ++ ·)) := by
  induction input generalizing current with
  | nil => cases current <;> simp [linesFrom, dropEmptyEnd]
  | cons byte rest ih =>
      rw [linesFrom, List.splitOn_cons_eq_if_modifyHead]
      by_cases hbyte : byte = lineFeed
      · -- The piece ends, and of the next one nothing was read.
        have hrest : (rest.splitOn lineFeed).modifyHead (([] : List UInt8).reverse ++ ·) =
            rest.splitOn lineFeed := modifyHead_nil_append _
        rw [if_pos hbyte, if_pos (beq_iff_eq.2 hbyte), ih, hrest, List.modifyHead_cons, List.append_nil,
          dropEmptyEnd_cons (List.splitOn_ne_nil lineFeed rest)]
      · -- The byte goes on the piece that the rest begins with.
        have happend : ((byte :: current).reverse ++ ·) = (current.reverse ++ ·) ∘ List.cons byte := by
          funext piece
          simp
        rw [if_neg hbyte, if_neg (fun h => hbyte (beq_iff_eq.1 h)), ih, List.modifyHead_modifyHead, happend]

/-- The lines of an input are its pieces. -/
theorem lines_eq_piecesOf (input : List UInt8) : lines input = piecesOf input := by
  rw [lines, linesFrom_eq, piecesOf]
  exact congrArg dropEmptyEnd (modifyHead_nil_append _)

/-! ## Events on lines -/

/-- The events on some lines, in order: a line of blanks has none, and another one has the event that is read from
its text without the blanks at its ends, which is the payload. -/
inductive EventsOn : List (List UInt8) → List ImportedEvent → Prop where
  | nil : EventsOn [] []
  | blank {s : String} {rest : List (List UInt8)} {events : List ImportedEvent} (empty : trim s.toList = [])
      (others : EventsOn rest events) : EventsOn (bytes s :: rest) events
  | event {s : String} {e : ImportedEvent} {rest : List (List UInt8)} {events : List ImportedEvent}
      (filled : trim s.toList ≠ []) (payload : e.payload.toList = trim s.toList)
      (read : Event.ofText e.payload.toList = .ok e.event) (others : EventsOn rest events) :
      EventsOn (bytes s :: rest) (e :: events)

/-- Lines that are read have the events that are read from them, and no others. -/
theorem readLines_ok_iff {number : Nat} {ls : List (List UInt8)} {events : List ImportedEvent} :
    readLines number ls = .ok events ↔ EventsOn ls events := by
  induction ls generalizing number events with
  | nil =>
      rw [readLines]
      constructor
      · intro h
        cases h
        exact EventsOn.nil
      · intro h
        cases h
        rfl
  | cons line rest ih =>
      rw [readLines, bind_eq_ok_iff]
      constructor
      · rintro ⟨found, hfound, h⟩
        obtain ⟨others, hothers, h⟩ := bind_eq_ok_iff.1 h
        cases h
        rw [ih] at hothers
        -- What the first line gives says which of the two kinds it is.
        cases found with
        | none =>
            obtain ⟨s, rfl, hempty⟩ := readLine_ok_none_iff.1 hfound
            exact EventsOn.blank hempty hothers
        | some e =>
            obtain ⟨s, rfl, hfilled, hpayload, hread⟩ := readLine_ok_some_iff.1 hfound
            exact EventsOn.event hfilled hpayload hread hothers
      · intro h
        cases h with
        | blank empty others =>
            exact ⟨none, readLine_ok_none_iff.2 ⟨_, rfl, empty⟩, bind_eq_ok_iff.2 ⟨_, ih.2 others, rfl⟩⟩
        | event filled payload read others =>
            exact ⟨some _, readLine_ok_some_iff.2 ⟨_, rfl, filled, payload, read⟩,
              bind_eq_ok_iff.2 ⟨_, ih.2 others, rfl⟩⟩

/-! ## Joined inputs

An input that is put before another one, with a line feed between them, keeps its lines: its last one is ended,
and if it was ended before there is an empty line more, on which there is no event. -/

theorem dropEmptyEnd_append (pieces : List (List UInt8)) {others : List (List UInt8)} (h : others ≠ []) :
    dropEmptyEnd (pieces ++ others) = pieces ++ dropEmptyEnd others := by
  induction pieces with
  | nil => rfl
  | cons piece rest ih =>
      rw [List.cons_append, dropEmptyEnd_cons (List.append_ne_nil_of_right_ne_nil rest h), ih,
        List.cons_append]

theorem piecesOf_append (a b : List UInt8) :
    piecesOf (a ++ lineFeed :: b) = a.splitOn lineFeed ++ piecesOf b := by
  rw [piecesOf, List.splitOn_append_cons_self,
    dropEmptyEnd_append _ (List.splitOn_ne_nil lineFeed b), piecesOf]

theorem EventsOn.append {ls others : List (List UInt8)} {events further : List ImportedEvent}
    (h : EventsOn ls events) (hothers : EventsOn others further) :
    EventsOn (ls ++ others) (events ++ further) := by
  induction h with
  | nil => exact hothers
  | blank empty _ ih => exact EventsOn.blank empty ih
  | event filled payload read _ ih => exact EventsOn.event filled payload read ih

/-- On an empty piece at the end there is no event. -/
theorem eventsOn_of_dropEmptyEnd {pieces : List (List UInt8)} {events : List ImportedEvent}
    (h : EventsOn (dropEmptyEnd pieces) events) : EventsOn pieces events := by
  rw [dropEmptyEnd] at h
  split at h
  · rename_i hlast
    have hempty : EventsOn [bytes ""] [] := EventsOn.blank rfl EventsOn.nil
    rw [← List.dropLast_append_getLast? [] hlast, ← List.append_nil events]
    exact h.append hempty
  · exact h

/-- Inputs joined by a line feed hold the events of the first one and then those of the other one. -/
theorem readEvents_append {a b : List UInt8} {events others : List ImportedEvent}
    (ha : readEvents a = .ok events) (hb : readEvents b = .ok others) :
    readEvents (a ++ lineFeed :: b) = .ok (events ++ others) := by
  rw [readEvents, readLines_ok_iff, lines_eq_piecesOf] at ha hb ⊢
  rw [piecesOf_append]
  exact (eventsOn_of_dropEmptyEnd ha).append hb

/-! ## The first fault -/

/-- The first line that is refused is behind as many others as its number says. -/
theorem firstFault_iff {input : List UInt8} {e : ImportError} :
    FirstFault input e ↔ ∃ before line after, lines input = before ++ line :: after ∧
      (∀ other ∈ before, Readable other) ∧ LineFault (before.length + 1) line e := by
  constructor
  · rintro ⟨before, ⟨line, number⟩, after, hsplit, hbefore, hfault⟩
    -- Lines are numbered from one, whether they are blank or not.
    have hnumber : number = before.length + 1 := by
      have hget : ((lines input).zipIdx 1)[before.length]? = some (line, number) := by
        rw [hsplit, List.getElem?_append_right le_rfl, Nat.sub_self]
        rfl
      rw [List.getElem?_zipIdx] at hget
      obtain ⟨found, -, heq⟩ := Option.map_eq_some_iff.1 hget
      cases heq
      exact Nat.add_comm 1 _
    have hlines : lines input = before.map Prod.fst ++ line :: after.map Prod.fst := by
      rw [← List.zipIdx_map_fst 1 (lines input), hsplit, List.map_append, List.map_cons]
    refine ⟨before.map Prod.fst, line, after.map Prod.fst, hlines, List.forall_mem_map.2 hbefore, ?_⟩
    rwa [List.length_map, ← hnumber]
  · rintro ⟨before, line, after, hlines, hbefore, hfault⟩
    refine ⟨before.zipIdx 1, (line, before.length + 1), after.zipIdx (before.length + 2), ?_, ?_, hfault⟩
    · rw [hlines, List.zipIdx_append, List.zipIdx_cons, Nat.add_comm 1]
    · rw [← List.forall_mem_map (f := Prod.fst), List.zipIdx_map_fst]
      exact hbefore

/-- Which events are read from an input, and which error there is, is decided by its pieces: there are the events on
them, if all of them are readable, and otherwise the fault of the first one that is not, with its number. What is
read are events with payloads of one line without blanks at its ends, and from these payloads, one on each line, the
same is read again. -/
theorem readEvents_exact (input : List UInt8) :
    (∀ events, readEvents input = .ok events ↔ EventsOn (piecesOf input) events) ∧
    ((∃ events, readEvents input = .ok events) ↔ ∀ line ∈ piecesOf input, Readable line) ∧
    (∀ e, readEvents input = .error e ↔ ∃ before line after, piecesOf input = before ++ line :: after ∧
      (∀ other ∈ before, Readable other) ∧ LineFault (before.length + 1) line e) ∧
    ∀ events, readEvents input = .ok events →
      (∀ e ∈ events, e.payload ≠ "" ∧ trim e.payload.toList = e.payload.toList ∧ '\n' ∉ e.payload.toList) ∧
      readEvents (bytes ("\n".intercalate (events.map ImportedEvent.payload))) = .ok events := by
  have hdecides := decides_readEvents input
  rw [← lines_eq_piecesOf]
  refine ⟨fun events => readLines_ok_iff, hdecides.ok_iff, fun e => ?_, fun events h => ?_⟩
  · rw [hdecides.error_iff, firstFault_iff]
  · have hfaithful : ∀ e ∈ events, e.Faithful := fun e he => faithful_of_mem h he
    refine ⟨fun e he => ?_, readEvents_joined hfaithful⟩
    exact ⟨(hfaithful e he).filled, (hfaithful e he).trimmed, (hfaithful e he).oneLine⟩

/-- An event behind a line of blanks, on a line without an end. -/
def lateEvent : List UInt8 := bytes "\r\n \x7b\"identity\": 7\x7d\t"

/-- What is read from the input is read again from its payload. -/
theorem readEvents_exact_late :
    ∃ events, readEvents lateEvent = .ok events ∧
      readEvents (bytes ("\n".intercalate (events.map ImportedEvent.payload))) = .ok events := by
  have hread : readEvents lateEvent = .ok [⟨{ Event.empty with identity := 7 }, "\x7b\"identity\": 7\x7d"⟩] := by
    decide +kernel
  exact ⟨_, hread, ((readEvents_exact lateEvent).2.2.2 _ hread).2⟩

end Import

end EventFinder
