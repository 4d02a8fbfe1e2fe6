import EventFinder.Proofs.Import.Events
import EventFinder.Proofs.Search.Everything
import EventFinder.Proofs.Store.History
import Mathlib.Algebra.BigOperators.Group.Finset.Basic

/-!
# What the status of a store counts

The live records of a snapshot are those of its identities taken together (`Snapshot.length_records`), so the two
numbers of a status belong to one set of identities, which the durable writes decide (`status_counts`).

If nothing but events is written, an identity has records exactly as long as it has a committed version
(`Operation.version?`), one for each show of that version or a single one (`length_recordsOf_shown`).
-/

set_option autoImplicit false

namespace EventFinder

namespace Snapshot

/-- The identities that have live records. -/
def identities (s : Snapshot) : Finset UInt64 := (s.records.map Record.identity).toFinset

variable (s : Snapshot)

theorem mem_identities_iff {i : UInt64} : i ∈ s.identities ↔ s.recordsOf i ≠ [] := by
  rw [identities, List.mem_toFinset, List.mem_map, recordsOf, ne_eq, List.filter_eq_nil_iff]
  simp only [decide_eq_true_eq, not_forall, not_not, exists_prop]

/-- The live records are those of all identities taken together. -/
theorem length_records : s.records.length = ∑ i ∈ s.identities, (s.recordsOf i).length := by
  have hcount : ∀ i, (s.records.map Record.identity).count i = (s.recordsOf i).length := by
    intro i
    rw [List.count, List.countP_map, List.countP_eq_length_filter]
    rfl
  rw [← List.length_map Record.identity, ← List.sum_toFinset_count_eq_length]
  exact Finset.sum_congr rfl fun i _ => hcount i

theorem card_identities_le : s.identities.card ≤ s.records.length := by
  rw [← List.length_map Record.identity]
  exact List.toFinset_card_le _

theorem card_identities_eq_zero_iff : s.identities.card = 0 ↔ s.records.length = 0 := by
  rw [Finset.card_eq_zero, identities, List.toFinset_eq_empty_iff, List.map_eq_nil_iff, List.length_eq_zero_iff]

end Snapshot

/-! ## Versions of events -/

namespace Change

/-- The event that a change leaves of its identity. -/
def event? : Change → Option Event
  | put imported => some imported.event
  | remove _ => none

/-- The last of some changes of an identity. -/
def lastOf (i : UInt64) (changes : List Change) : Option Change :=
  (changes.filter fun change => decide (change.write.identity = i)).getLast?

theorem lastWrite_map_write (i : UInt64) (changes : List Change) :
    Content.lastWrite i (changes.map write) = (lastOf i changes).map write := by
  rw [Content.lastWrite, List.filter_map, List.getLast?_map]
  rfl

/-- An event makes a record for each of its shows, or a single one; a removal makes none. -/
theorem length_records_write (change : Change) :
    change.write.records.length = change.event?.elim 0 fun e => max 1 e.shows.length := by
  cases change with
  | put imported =>
      have hrecords := Write.records_ofEvent imported.event imported.payload
      exact (congrArg List.length hrecords).trans (imported.event.length_records imported.payload)
  | remove identity => rfl

end Change

namespace Operation

/-- All records that the operation writes are those of events. -/
def WritesEvents : Operation → Prop
  | put _ _ => False
  | putEvent _ _ | remove _ | delete _ | ingest _ | importEvents _ | commit | hold | reopen => True

/-- The events that an operation writes and the identities that it removes, in order. -/
def changes : Operation → List Change
  | putEvent event payload => [.put ⟨event, payload⟩]
  | remove identity | delete identity => [.remove identity]
  | ingest events => events.map .put
  | importEvents input => (imported input).map .put
  | put _ _ | commit | hold | reopen => []

theorem writes_eq_changes {op : Operation} (h : op.WritesEvents) : op.writes = op.changes.map Change.write := by
  cases op with
  | put identity records => cases h
  | ingest events =>
      rw [writes, changes, List.map_map]
      rfl
  | importEvents input =>
      rw [writes, changes, List.map_map]
      rfl
  | _ => rfl

/-- The operations whose writes last. -/
def lasting : List Operation → List Operation
  | [] => []
  | op :: rest => if lasts (op :: rest) then op :: lasting rest else lasting rest

theorem lasting_sublist (ops : List Operation) : (lasting ops).Sublist ops := by
  induction ops with
  | nil => exact .slnil
  | cons op rest ih =>
      rw [lasting]
      split
      · exact ih.cons_cons op
      · exact ih.cons op

theorem durable_eq_flatMap (ops : List Operation) : durable ops = (lasting ops).flatMap writes := by
  induction ops with
  | nil => rfl
  | cons op rest ih =>
      rw [durable, lasting, ih]
      split
      · exact List.flatMap_cons.symm
      · rfl

/-- The changes that last. -/
def durableChanges (ops : List Operation) : List Change := (lasting ops).flatMap changes

/-- The committed version of the event of an identity: that of the last change that lasts, unless it is a removal. -/
def version? (ops : List Operation) (i : UInt64) : Option Event :=
  (Change.lastOf i (durableChanges ops)).bind Change.event?

theorem durable_eq_changes {ops : List Operation} (h : ∀ op ∈ ops, op.WritesEvents) :
    durable ops = (durableChanges ops).map Change.write := by
  rw [durable_eq_flatMap, durableChanges, List.map_flatMap, List.flatMap_def, List.flatMap_def]
  congr 1
  exact List.map_congr_left fun op hop => writes_eq_changes (h op ((lasting_sublist ops).subset hop))

end Operation

namespace Session

open Operation

/-- If nothing but events is written, an identity has as many records as its committed version makes. -/
theorem length_recordsOf_shown (settings : Settings) {ops : List Operation} (h : ∀ op ∈ ops, op.WritesEvents)
    (i : UInt64) :
    ((shown settings ops).recordsOf i).length = (version? ops i).elim 0 fun e => max 1 e.shows.length := by
  rw [recordsOf_shown_eq_last, durable_eq_changes h, Change.lastWrite_map_write, version?]
  cases Change.lastOf i (durableChanges ops) with
  | none => rfl
  | some change => exact change.length_records_write

/-- At any time the status is that of the durable writes: the live identities are those that these leave records of,
and the records are those of the live identities taken together. So there are no more events than records, and none
of the former just when there are none of the latter. If nothing but events was written, the live identities are those
with a committed version, and each of them has a record for each show of it, or a single one. -/
theorem status_counts (settings : Settings) (ops : List Operation) :
    ∃ (status : Status) (live : Finset UInt64),
      (run settings ops).service.status = .ok status ∧
      (∀ i, i ∈ live ↔ Content.replay (durable ops) i ≠ []) ∧
      status.events = live.card ∧
      status.records = (shown settings ops).records.length ∧
      status.records = ∑ i ∈ live, (Content.replay (durable ops) i).length ∧
      status.events ≤ status.records ∧
      (status.events = 0 ↔ status.records = 0) ∧
      ((∀ op ∈ ops, op.WritesEvents) →
        (∀ i, i ∈ live ↔ (version? ops i).isSome) ∧
        status.records = ∑ i ∈ live, (version? ops i).elim 0 fun e => max 1 e.shows.length) := by
  have hlength := (shown settings ops).length_records
  refine ⟨_, (shown settings ops).identities, Service.status_eq _, fun i => ?_, rfl, rfl, ?_,
    (shown settings ops).card_identities_le, (shown settings ops).card_identities_eq_zero_iff, fun hevents => ⟨?_, ?_⟩⟩
  · rw [Snapshot.mem_identities_iff, recordsOf_shown]
  · simp only [← recordsOf_shown settings ops]
    exact hlength
  · intro i
    rw [Snapshot.mem_identities_iff, ← List.length_pos_iff, length_recordsOf_shown settings hevents]
    -- A version makes at least one record.
    cases version? ops i with
    | none => decide
    | some e => simp
  · exact hlength.trans (Finset.sum_congr rfl fun i _ => length_recordsOf_shown settings hevents i)

/-- An event with two shows is imported and then, in the same input, without them, and so is another event with two
shows; an input is at fault; a write is lost when the store is opened again; an event is ingested and deleted; and a
removal is pending. -/
def changedOften : List Operation :=
  [.importEvents (Import.bytes ("\x7b\"identity\": 7, \"shows\": [\x7b\"start\": 5\x7d, \x7b\"start\": 6\x7d]\x7d\n" ++
      "\x7b\"identity\": 7\x7d\n\x7b\"identity\": 8, \"shows\": [\x7b\"start\": 1\x7d, \x7b\"start\": 2\x7d]\x7d")),
   .importEvents (Import.bytes "\x7b\"identity\": 8\x7d\n\x7b\"identity\""),
   .putEvent { Event.empty with identity := 8 } "", .reopen,
   .ingest [⟨{ Event.empty with identity := 9 }, ""⟩], .delete 9, .remove 7]

/-- What is left are a single record of the later version and one for each of the two shows. -/
theorem status_counts_changedOften :
    ∃ (status : Status) (live : Finset UInt64),
      (run .standard changedOften).service.status = .ok status ∧ status = ⟨3, 2⟩ ∧ live = {7, 8} ∧
      status.records = ∑ i ∈ live, (version? changedOften i).elim 0 fun e => max 1 e.shows.length := by
  obtain ⟨status, live, hstatus, -, hevents, -, -, -, -, hversions⟩ := status_counts .standard changedOften
  have hwrites : ∀ op ∈ changedOften, op.WritesEvents := by
    intro op hop
    simp only [changedOften, List.mem_cons, List.not_mem_nil, or_false] at hop
    rcases hop with rfl | rfl | rfl | rfl | rfl | rfl | rfl <;> exact trivial
  obtain ⟨hlive, hrecords⟩ := hversions hwrites
  have hvalue : status = ⟨3, 2⟩ := by
    have hcounts := Service.status_eq (run .standard changedOften).service
    rw [hstatus, Except.ok.injEq] at hcounts
    rw [hcounts, Status.mk.injEq]
    constructor <;> decide +kernel
  have hseven : 7 ∈ live := (hlive 7).2 (by decide +kernel)
  have height : 8 ∈ live := (hlive 8).2 (by decide +kernel)
  -- There are two live identities, so there is none but these.
  have hsub : {7, 8} ⊆ live := Finset.insert_subset hseven (Finset.singleton_subset_iff.2 height)
  have hcard : live.card ≤ ({7, 8} : Finset UInt64).card := by
    rw [← hevents, hvalue]
    decide
  exact ⟨status, live, hstatus, hvalue, (Finset.eq_of_subset_of_card_le hsub hcard).symm, hrecords⟩

end Session

end EventFinder
