import EventFinder.Field

/-!
# The index

The records that can be searched, and the writes that are not committed yet. A commit makes a *segment*
of the records added since the last one. A removed record stays in its segment as a dead one, where it
still counts in the statistics by which terms are rated; a segment without live records disappears at
the next commit.

A search sees a `Snapshot`: what was committed when it was taken. `Snapshot.records` are its live
records.
-/

set_option autoImplicit false

namespace EventFinder

/-- A record with the terms of all its fields at hand. -/
structure Document where
  record : Record
  fields : List (Field × List Term)
  fields_eq : fields = Field.all.map fun field => (field, record.terms field)

namespace Document

/-- The document of a record. -/
def ofRecord (r : Record) : Document where
  record := r
  fields := Field.all.map fun field => (field, r.terms field)
  fields_eq := rfl

/-- The terms of a document in a field. -/
def terms (d : Document) (field : Field) : List Term := (d.fields.lookup field).getD []

theorem lookup_map {α β : Type} [BEq α] [LawfulBEq α] (f : α → β) {a : α} {l : List α} (h : a ∈ l) :
    (l.map fun b => (b, f b)).lookup a = some (f a) := by
  induction l with
  | nil => simp at h
  | cons b l ih =>
      by_cases hb : a = b
      · simp [hb]
      · have hl : a ∈ l := by simpa [hb] using h
        simp [List.lookup_cons, beq_eq_false_iff_ne.2 hb, ih hl]

/-- The terms at hand are those of the record. -/
theorem terms_eq (d : Document) (field : Field) : d.terms field = d.record.terms field := by
  rw [terms, d.fields_eq, lookup_map d.record.terms (Field.mem_all field)]
  rfl

end Document

/-- A document in a segment, dead once it is removed. -/
structure Slot where
  document : Document
  alive : Bool

/-- The documents added between two commits, in order. -/
abbrev Segment := List Slot

namespace Segment

/-- The live documents. -/
def live (segment : Segment) : List Document :=
  (segment.filter Slot.alive).map Slot.document

/-- The segment with the records of an identity dead. -/
def remove (identity : UInt64) (segment : Segment) : Segment :=
  segment.map fun slot =>
    if slot.document.record.identity = identity then { slot with alive := false } else slot

/-- The segment with records added. -/
def add (records : List Record) (segment : Segment) : Segment :=
  segment ++ records.map fun r => ⟨Document.ofRecord r, true⟩

end Segment

/-- What a search sees. -/
structure Snapshot where
  segments : List Segment

namespace Snapshot

/-- All documents that count in statistics, dead ones too. -/
def documents (s : Snapshot) : List Document := s.segments.flatten.map Slot.document

/-- The live records. -/
def records (s : Snapshot) : List Record := (s.segments.flatMap Segment.live).map Document.record

end Snapshot

/-- The committed segments; the same segments with the removals since the last commit; and the segment
that is filled until the next one. -/
structure Index where
  committed : List Segment
  staged : List Segment
  fresh : Segment

namespace Index

/-- An index without records. -/
def empty : Index := ⟨[], [], []⟩

/-- What a search sees now. -/
def snapshot (index : Index) : Snapshot := ⟨index.committed⟩

/-- What a search will see after the next commit. -/
def pending (index : Index) : Snapshot := ⟨index.staged ++ [index.fresh]⟩

/-- Removes the records of an identity at the next commit. -/
def remove (identity : UInt64) (index : Index) : Index where
  committed := index.committed
  staged := index.staged.map (Segment.remove identity)
  fresh := index.fresh.remove identity

/-- Replaces the records of an identity at the next commit. The new records belong to that identity,
whatever they say themselves. -/
def put (identity : UInt64) (records : List Record) (index : Index) : Index :=
  let removed := index.remove identity
  { removed with fresh := removed.fresh.add (records.map fun r => { r with identity := identity }) }

/-- Replaces the records of an event at the next commit. -/
def putEvent (event : Event) (payload : String) (index : Index) : Index :=
  index.put event.identity (event.records payload)

/-- Makes the writes since the last commit visible. -/
def commit (index : Index) : Index :=
  let segments := index.pending.segments.filter fun segment => !segment.live.isEmpty
  ⟨segments, segments, []⟩

/-- Closes the index and opens it again: the writes since the last commit are lost. -/
def reopen (index : Index) : Index := ⟨index.committed, index.committed, []⟩

end Index

end EventFinder
