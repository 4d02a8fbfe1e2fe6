import EventFinder.Proofs.Event.Records
import EventFinder.Service
import Mathlib.Data.List.Induction

/-!
# The content of a store

What a store holds, seen from outside, is a map: the records of each identity (`Content`). A `Write`
replaces the records of one identity, and removing an identity is writing no records for it. All that is
done to an index is writing, committing and opening it again.

An index has two such maps, that of its last commit and that of the next one (`Index.Holds`), and each of
the three is one step on the two maps: `holds_write`, `holds_commit` and `holds_reopen`. Of all writes to an
identity the last one alone decides its records (`foldl_write_eq_last`).
-/

set_option autoImplicit false

namespace EventFinder

/-- The records of an identity replaced. -/
structure Write where
  identity : UInt64
  records : List Record
  owned : ∀ r ∈ records, r.identity = identity

namespace Write

/-- The write of some records, which from then on belong to the identity. -/
def put (identity : UInt64) (records : List Record) : Write where
  identity := identity
  records := records.map fun r => { r with identity := identity }
  owned := by
    intro r hr
    obtain ⟨r', -, rfl⟩ := List.mem_map.1 hr
    rfl

/-- The write of no records. -/
def remove (identity : UInt64) : Write := ⟨identity, [], fun _ hr => nomatch hr⟩

/-- The write of the records of an event. -/
def ofEvent (event : Event) (payload : String) : Write := put event.identity (event.records payload)

/-- The records of an event are its own already. -/
theorem records_ofEvent (event : Event) (payload : String) :
    (ofEvent event payload).records = event.records payload := by
  have hsame : ∀ r ∈ event.records payload, ({ r with identity := event.identity } : Record) = r := by
    intro r hr
    obtain ⟨occurrence, rfl⟩ := Event.exists_recordAt_of_mem_records hr
    rfl
  exact (List.map_congr_left hsame).trans (List.map_id' _)

/-- The records of a write need not be given to its identity. -/
theorem map_identity_records (w : Write) :
    (w.records.map fun r => { r with identity := w.identity }) = w.records := by
  have hid : ∀ r ∈ w.records, ({ r with identity := w.identity } : Record) = r := fun r hr => by
    rw [← w.owned r hr]
  rw [List.map_congr_left hid, List.map_id']

/-- Of a write each record belongs to its identity. -/
theorem filter_records (w : Write) (i : UInt64) :
    (w.records.filter fun r => decide (r.identity = i)) = if i = w.identity then w.records else [] := by
  by_cases h : i = w.identity
  · rw [if_pos h, List.filter_eq_self]
    intro r hr
    simp [w.owned r hr, h]
  · rw [if_neg h, List.filter_eq_nil_iff]
    intro r hr
    simp [w.owned r hr, Ne.symm h]

end Write

/-- The records of each identity. -/
abbrev Content := UInt64 → List Record

namespace Content

/-- No records. -/
def empty : Content := fun _ => []

/-- The content after a write: that of the identity is replaced, all else stays. -/
def write (c : Content) (w : Write) : Content := fun i => if i = w.identity then w.records else c i

/-- The content after some writes, one after another, to no records. -/
def replay (writes : List Write) : Content := writes.foldl write empty

theorem replay_append (writes further : List Write) :
    replay (writes ++ further) = further.foldl write (replay writes) := by
  rw [replay, List.foldl_append, ← replay]

/-- The last of some writes to an identity. -/
def lastWrite (i : UInt64) (writes : List Write) : Option Write :=
  (writes.filter fun w => decide (w.identity = i)).getLast?

theorem lastWrite_append (i : UInt64) (writes further : List Write) :
    lastWrite i (writes ++ further) = (lastWrite i further).or (lastWrite i writes) := by
  rw [lastWrite, List.filter_append, List.getLast?_append]
  rfl

theorem lastWrite_singleton (i : UInt64) (w : Write) :
    lastWrite i [w] = if w.identity = i then some w else none := by
  by_cases h : w.identity = i <;> simp [lastWrite, h]

theorem mem_of_lastWrite {i : UInt64} {writes : List Write} {w : Write}
    (h : lastWrite i writes = some w) : w ∈ writes :=
  (List.mem_filter.1 (List.mem_of_getLast? h)).1

theorem identity_of_lastWrite {i : UInt64} {writes : List Write} {w : Write}
    (h : lastWrite i writes = some w) : w.identity = i :=
  of_decide_eq_true (List.mem_filter.1 (List.mem_of_getLast? h)).2

theorem lastWrite_eq_none {i : UInt64} {writes : List Write} (h : ∀ w ∈ writes, w.identity ≠ i) :
    lastWrite i writes = none := by
  have hnil : writes.filter (fun w => decide (w.identity = i)) = [] :=
    List.filter_eq_nil_iff.2 fun w hw => by simpa using h w hw
  rw [lastWrite, hnil]
  rfl

/-- Of writes to different identities each is the last one to its own. -/
theorem lastWrite_of_nodup {writes : List Write} (hnodup : (writes.map Write.identity).Nodup) {w : Write}
    (hw : w ∈ writes) : lastWrite w.identity writes = some w := by
  induction writes with
  | nil => cases hw
  | cons first rest ih =>
      rw [List.map_cons, List.nodup_cons] at hnodup
      have hsplit := lastWrite_append w.identity [first] rest
      rw [List.singleton_append, lastWrite_singleton] at hsplit
      rw [hsplit]
      rcases List.mem_cons.1 hw with rfl | hw
      · have hnone : lastWrite w.identity rest = none := lastWrite_eq_none fun other hother heq =>
          hnodup.1 (heq ▸ List.mem_map_of_mem hother)
        rw [hnone, if_pos rfl]
        rfl
      · rw [ih hnodup.2 hw]
        rfl

/-- After some writes the records of an identity are those of the last one to it; without one they are what they
were. -/
theorem foldl_write_eq_last (c : Content) (writes : List Write) (i : UInt64) :
    writes.foldl write c i = ((lastWrite i writes).map Write.records).getD (c i) := by
  induction writes using List.reverseRecOn with
  | nil => rfl
  | append_singleton writes w ih =>
      -- The new write is the last one to its own identity, and no write to any other.
      rw [List.foldl_append, lastWrite_append, lastWrite_singleton, List.foldl_cons, List.foldl_nil, write]
      by_cases h : w.identity = i
      · rw [if_pos h.symm, if_pos h]
        rfl
      · rw [if_neg (Ne.symm h), if_neg h]
        exact ih

/-- The records of an identity are those of the last write to it; it has none if there was no write. -/
theorem replay_eq_last (writes : List Write) (i : UInt64) :
    replay writes i = ((lastWrite i writes).map Write.records).getD [] :=
  foldl_write_eq_last empty writes i

/-- The same writes once more change nothing. -/
theorem foldl_write_again (c : Content) (writes : List Write) :
    writes.foldl write (writes.foldl write c) = writes.foldl write c := by
  funext i
  rw [foldl_write_eq_last, foldl_write_eq_last]
  cases lastWrite i writes with
  | none => rfl
  | some w => rfl

/-- Writes to different identities can be made in any order. -/
theorem foldl_write_comm (c : Content) {writes others : List Write}
    (h : ∀ w ∈ writes, ∀ other ∈ others, w.identity ≠ other.identity) :
    others.foldl write (writes.foldl write c) = writes.foldl write (others.foldl write c) := by
  funext i
  simp only [foldl_write_eq_last]
  cases hlast : lastWrite i writes with
  | none => rfl
  | some w =>
      -- There is a write to this identity, so there is none among the others.
      have hnone : lastWrite i others = none := lastWrite_eq_none fun other hother heq =>
        h w (mem_of_lastWrite hlast) other hother ((identity_of_lastWrite hlast).trans heq.symm)
      rw [hnone]
      rfl

end Content

/-! ## Live records -/

namespace Segment

theorem live_append (a b : Segment) : Segment.live (a ++ b) = a.live ++ b.live := by
  simp only [Segment.live, List.filter_append, List.map_append]

/-- Added records are live, behind the others. -/
theorem live_add (records : List Record) (segment : Segment) :
    (segment.add records).live = segment.live ++ records.map Document.ofRecord := by
  rw [Segment.add, live_append]
  congr 1
  induction records with
  | nil => rfl
  | cons r rest ih =>
      rw [List.map_cons, List.map_cons, ← ih]
      rfl

/-- Live after a removal are those that were, but for the records of the identity. -/
theorem live_remove (j : UInt64) (segment : Segment) :
    (segment.remove j).live = segment.live.filter fun d => decide (d.record.identity ≠ j) := by
  induction segment with
  | nil => rfl
  | cons slot rest ih =>
      simp only [Segment.live, Segment.remove, List.map_cons] at ih ⊢
      by_cases hj : slot.document.record.identity = j
      · cases ha : slot.alive <;> simp [hj, ha, ih]
      · cases ha : slot.alive <;> simp [hj, ha, ih]

theorem live_flatten (segments : List Segment) :
    segments.flatMap Segment.live = Segment.live segments.flatten := by
  induction segments with
  | nil => rfl
  | cons segment rest ih => rw [List.flatMap_cons, ih, List.flatten_cons, live_append]

theorem live_perm {a b : Segment} (h : a.Perm b) : a.live.Perm b.live :=
  (h.filter _).map _

/-- The live documents of an identity. -/
def liveOf (i : UInt64) (segment : Segment) : List Document :=
  segment.live.filter fun d => decide (d.record.identity = i)

theorem liveOf_add (i : UInt64) (segment : Segment) (records : List Record) :
    (segment.add records).liveOf i =
      segment.liveOf i ++ (records.filter fun r => decide (r.identity = i)).map Document.ofRecord := by
  rw [liveOf, live_add, List.filter_append, List.filter_map]
  rfl

theorem liveOf_remove (j : UInt64) (segment : Segment) (i : UInt64) :
    (segment.remove j).liveOf i =
      (segment.liveOf i).filter fun d => decide (d.record.identity ≠ j) := by
  rw [liveOf, live_remove, liveOf, List.filter_filter, List.filter_filter]
  exact List.filter_congr fun d _ => Bool.and_comm _ _

end Segment

namespace Snapshot

/-- The live records of an identity, in order. -/
def recordsOf (s : Snapshot) (i : UInt64) : List Record :=
  s.records.filter fun r => decide (r.identity = i)

/-- Snapshots that show the same of every identity show the same records. -/
theorem perm_records {s s' : Snapshot} (h : ∀ i, s.recordsOf i = s'.recordsOf i) :
    s.records.Perm s'.records := by
  have hcount : ∀ (t : Snapshot) (r : Record), (t.recordsOf r.identity).count r = t.records.count r :=
    fun t r => List.count_filter (decide_eq_true rfl)
  rw [List.perm_iff_count]
  intro r
  rw [← hcount, ← hcount, h]

theorem records_cons (segment : Segment) (rest : List Segment) :
    (Snapshot.mk (segment :: rest)).records =
      segment.live.map Document.record ++ (Snapshot.mk rest).records := by
  simp only [Snapshot.records, List.flatMap_cons, List.map_append]

theorem records_append (a b : List Segment) :
    (Snapshot.mk (a ++ b)).records = (Snapshot.mk a).records ++ (Snapshot.mk b).records := by
  simp only [Snapshot.records, List.flatMap_append, List.map_append]

theorem recordsOf_append (a b : List Segment) (i : UInt64) :
    (Snapshot.mk (a ++ b)).recordsOf i = (Snapshot.mk a).recordsOf i ++ (Snapshot.mk b).recordsOf i := by
  simp only [recordsOf, records_append, List.filter_append]

theorem records_remove (j : UInt64) (segments : List Segment) :
    (Snapshot.mk (segments.map (Segment.remove j))).records =
      (Snapshot.mk segments).records.filter fun r => decide (r.identity ≠ j) := by
  induction segments with
  | nil => rfl
  | cons segment rest ih =>
      rw [List.map_cons, records_cons, records_cons, List.filter_append, ih, Segment.live_remove,
        List.filter_map]
      rfl

/-- A removal takes the records of its identity and no others. -/
theorem recordsOf_remove (j : UInt64) (segments : List Segment) (i : UInt64) :
    (Snapshot.mk (segments.map (Segment.remove j))).recordsOf i =
      if i = j then [] else (Snapshot.mk segments).recordsOf i := by
  rw [recordsOf, records_remove, List.filter_filter, recordsOf]
  by_cases h : i = j
  · rw [if_pos h, List.filter_eq_nil_iff]
    intro r _
    simp [h]
  · rw [if_neg h]
    apply List.filter_congr
    intro r _
    by_cases hr : r.identity = i
    · simp [hr, h]
    · simp [hr]

/-- Records added to the last segment come behind the others. -/
theorem recordsOf_add (segments : List Segment) (segment : Segment) (records : List Record) (i : UInt64) :
    (Snapshot.mk (segments ++ [segment.add records])).recordsOf i =
      (Snapshot.mk (segments ++ [segment])).recordsOf i ++
        records.filter fun r => decide (r.identity = i) := by
  have hrecord : (records.map Document.ofRecord).map Document.record = records := by
    rw [List.map_map]
    exact List.map_id records
  rw [recordsOf_append, recordsOf_append, List.append_assoc]
  congr 1
  simp only [recordsOf, records_cons, Segment.live_add, List.map_append, List.filter_append, hrecord]
  simp [Snapshot.records]

/-- Segments without live documents do not show. -/
theorem records_filter_live (segments : List Segment) :
    (Snapshot.mk (segments.filter fun segment => !segment.live.isEmpty)).records =
      (Snapshot.mk segments).records := by
  induction segments with
  | nil => rfl
  | cons segment rest ih =>
      cases h : segment.live with
      | nil => simpa [h, records_cons] using ih
      | cons d ds => simpa [h, records_cons] using ih

end Snapshot

/-! ## Indexes and their two contents

An index that holds two contents still does so after a write, a commit or opening it again, and the three
lemmas say which ones. -/

/-- The write that a change is. -/
def Change.write : Change → Write
  | .put imported => .ofEvent imported.event imported.payload
  | .remove identity => .remove identity

namespace Index

/-- The index after a write. -/
def write (index : Index) (w : Write) : Index := index.put w.identity w.records

theorem write_put (index : Index) (identity : UInt64) (records : List Record) :
    index.write (.put identity records) = index.put identity records := by
  have hrecords := (Write.put identity records).map_identity_records
  rw [write, put, hrecords, put]
  rfl

/-- Removing an identity is writing no records for it. -/
theorem write_remove (index : Index) (identity : UInt64) :
    index.write (.remove identity) = index.remove identity := by
  have hfresh : ((index.remove identity).fresh).add [] = (index.remove identity).fresh :=
    List.append_nil _
  rw [write, put, Write.remove, List.map_nil, hfresh]

theorem apply_eq_write (index : Index) (change : Change) : index.apply change = index.write change.write := by
  cases change with
  | put imported => exact (write_put ..).symm
  | remove identity => exact (write_remove ..).symm

/-- A batch is writes and a commit. -/
theorem applyBatch_eq (index : Index) (batch : List Change) :
    index.applyBatch batch = ((batch.map Change.write).foldl write index).commit := by
  rw [applyBatch, List.foldl_map]
  congr 2
  funext index change
  exact apply_eq_write index change

/-- The index shows `committed` now and `pending` after the next commit. -/
structure Holds (index : Index) (committed pending : Content) : Prop where
  committed : ∀ i, index.snapshot.recordsOf i = committed i
  pending : ∀ i, index.pending.recordsOf i = pending i

variable {index : Index} {c p : Content}

theorem holds_empty : Index.empty.Holds Content.empty Content.empty :=
  ⟨fun _ => rfl, fun _ => rfl⟩

/-- What is pending after a removal. -/
theorem recordsOf_pending_remove (index : Index) (j i : UInt64) :
    (index.remove j).pending.recordsOf i = if i = j then [] else index.pending.recordsOf i := by
  have hsegments : (index.remove j).pending =
      ⟨(index.staged ++ [index.fresh]).map (Segment.remove j)⟩ := by
    rw [List.map_append]
    rfl
  rw [hsegments, Snapshot.recordsOf_remove]
  rfl

/-- A write is pending until the next commit. -/
theorem holds_write (h : index.Holds c p) (w : Write) : (index.write w).Holds c (p.write w) where
  committed := h.committed
  pending := by
    intro i
    -- First the records of the identity are removed, and then the new ones are added.
    have hadd : (index.write w).pending.recordsOf i =
        (index.remove w.identity).pending.recordsOf i ++
          w.records.filter fun r => decide (r.identity = i) := by
      rw [write, put, w.map_identity_records]
      exact Snapshot.recordsOf_add (index.remove w.identity).staged _ _ i
    rw [hadd, recordsOf_pending_remove, Write.filter_records, h.pending, Content.write]
    by_cases hi : i = w.identity
    · rw [if_pos hi, if_pos hi, if_pos hi, List.nil_append]
    · rw [if_neg hi, if_neg hi, if_neg hi, List.append_nil]

theorem holds_foldl_write (h : index.Holds c p) (writes : List Write) :
    (writes.foldl write index).Holds c (writes.foldl Content.write p) := by
  induction writes generalizing index p with
  | nil => exact h
  | cons w rest ih => exact ih (holds_write h w)

/-- A commit shows what was pending. -/
theorem holds_commit (h : index.Holds c p) : index.commit.Holds p p := by
  -- The segments that a commit gives up have nothing to show.
  have hrecords : index.commit.snapshot.records = index.pending.records :=
    Snapshot.records_filter_live index.pending.segments
  have hshown : ∀ i, index.commit.snapshot.recordsOf i = p i := by
    intro i
    rw [Snapshot.recordsOf, hrecords, ← Snapshot.recordsOf, h.pending]
  constructor
  · exact hshown
  intro i
  rw [← hshown i]
  exact (Snapshot.recordsOf_append index.commit.staged [[]] i).trans (List.append_nil _)

/-- Opening the index again gives up what was pending. -/
theorem holds_reopen (h : index.Holds c p) : index.reopen.Holds c c := by
  constructor
  · exact h.committed
  intro i
  rw [← h.committed i]
  exact (Snapshot.recordsOf_append index.committed [[]] i).trans (List.append_nil _)

end Index

end EventFinder
