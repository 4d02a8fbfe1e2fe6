import EventFinder.Proofs.Store.History
import Mathlib.Data.List.Forall2
import Mathlib.Data.List.Perm.Basic

/-!
# Stores that differ in the order of records

Two stores with the same history, but that the records of one identity were once written in another order,
hold the same documents segment by segment, and those of the other identities in the same order
(`differInOrder_shown`).
-/

set_option autoImplicit false

namespace EventFinder

namespace Segment

/-- Two segments of the same documents, in which those of all identities but one have the same order. -/
structure DifferInOrder (i : UInt64) (a b : Segment) : Prop where
  perm : a.Perm b
  others : ∀ j, j ≠ i → a.liveOf j = b.liveOf j

namespace DifferInOrder

variable {i : UInt64} {a b : Segment}

theorem refl (i : UInt64) (a : Segment) : DifferInOrder i a a := ⟨List.Perm.refl a, fun _ _ => rfl⟩

theorem isEmpty_live (h : DifferInOrder i a b) : a.live.isEmpty = b.live.isEmpty :=
  (live_perm h.perm).isEmpty_eq

theorem remove (h : DifferInOrder i a b) (k : UInt64) : DifferInOrder i (a.remove k) (b.remove k) where
  perm := h.perm.map _
  others := by
    intro j hj
    rw [liveOf_remove, liveOf_remove, h.others j hj]

/-- Records may be added in another order if they are of that identity. -/
theorem add (h : DifferInOrder i a b) {records records' : List Record} (hperm : records.Perm records')
    (hothers : ∀ j, j ≠ i → (records.filter fun r => decide (r.identity = j)) =
      records'.filter fun r => decide (r.identity = j)) :
    DifferInOrder i (a.add records) (b.add records') where
  perm := h.perm.append (hperm.map _)
  others := by
    intro j hj
    rw [liveOf_add, liveOf_add, h.others j hj, hothers j hj]

end DifferInOrder

end Segment

namespace Snapshot

/-- Two snapshots whose segments differ in the order of the documents of an identity. -/
def DifferInOrder (i : UInt64) (s s' : Snapshot) : Prop :=
  List.Forall₂ (Segment.DifferInOrder i) s.segments s'.segments

theorem DifferInOrder.perm {i : UInt64} {s s' : Snapshot} (h : DifferInOrder i s s') :
    s.segments.flatten.Perm s'.segments.flatten :=
  List.Perm.flatten_congr (h.imp fun _ _ hab => hab.perm)

theorem DifferInOrder.map_liveOf {i : UInt64} {s s' : Snapshot} (h : DifferInOrder i s s') {j : UInt64}
    (hj : j ≠ i) : s.segments.map (Segment.liveOf j) = s'.segments.map (Segment.liveOf j) := by
  rw [← List.forall₂_eq_eq_eq, List.forall₂_map_left_iff, List.forall₂_map_right_iff]
  exact h.imp fun _ _ hab => hab.others j hj

end Snapshot

namespace Index

/-- Two indexes all of whose segments differ in the order of the documents of an identity. -/
structure DifferInOrder (i : UInt64) (index index' : Index) : Prop where
  committed : List.Forall₂ (Segment.DifferInOrder i) index.committed index'.committed
  staged : List.Forall₂ (Segment.DifferInOrder i) index.staged index'.staged
  fresh : Segment.DifferInOrder i index.fresh index'.fresh

namespace DifferInOrder

variable {i : UInt64} {index index' : Index}

theorem refl (i : UInt64) (index : Index) : DifferInOrder i index index where
  committed := List.forall₂_same.2 fun a _ => Segment.DifferInOrder.refl i a
  staged := List.forall₂_same.2 fun a _ => Segment.DifferInOrder.refl i a
  fresh := Segment.DifferInOrder.refl i index.fresh

theorem remove (h : DifferInOrder i index index') (k : UInt64) :
    DifferInOrder i (index.remove k) (index'.remove k) where
  committed := h.committed
  staged := by
    rw [Index.remove, Index.remove, List.forall₂_map_left_iff, List.forall₂_map_right_iff]
    exact h.staged.imp fun _ _ hab => hab.remove k
  fresh := h.fresh.remove k

theorem write (h : DifferInOrder i index index') (w : Write) :
    DifferInOrder i (index.write w) (index'.write w) where
  committed := h.committed
  staged := (h.remove w.identity).staged
  fresh := (h.remove w.identity).fresh.add (List.Perm.refl _) fun _ _ => rfl

theorem foldl_write (h : DifferInOrder i index index') (writes : List Write) :
    DifferInOrder i (writes.foldl Index.write index) (writes.foldl Index.write index') := by
  induction writes generalizing index index' with
  | nil => exact h
  | cons w rest ih => exact ih (h.write w)

/-- The records of the identity may be written in another order. -/
theorem put (i : UInt64) (index : Index) {records records' : List Record} (hperm : records.Perm records') :
    DifferInOrder i (index.put i records) (index.put i records') where
  committed := (refl i index).committed
  staged := ((refl i index).remove i).staged
  fresh := by
    apply ((refl i index).remove i).fresh.add (hperm.map _)
    intro j hj
    -- None of the written records belongs to another identity.
    have hnone : ∀ rs : List Record,
        ((Write.put i rs).records.filter fun r => decide (r.identity = j)) = [] := fun rs => by
      rw [Write.filter_records]
      exact if_neg hj
    exact (hnone records).trans (hnone records').symm

theorem commit (h : DifferInOrder i index index') : DifferInOrder i index.commit index'.commit := by
  have hpending : List.Forall₂ (Segment.DifferInOrder i) index.pending.segments index'.pending.segments :=
    List.rel_append h.staged (List.Forall₂.cons h.fresh List.Forall₂.nil)
  have hlive : List.Forall₂ (Segment.DifferInOrder i) index.commit.committed index'.commit.committed := by
    -- A segment is given up if nothing in it is live, which does not depend on the order.
    apply List.rel_filter _ hpending
    intro a b hab
    show (!a.live.isEmpty) = true ↔ (!b.live.isEmpty) = true
    rw [hab.isEmpty_live]
  exact ⟨hlive, hlive, Segment.DifferInOrder.refl i []⟩

theorem reopen (h : DifferInOrder i index index') : DifferInOrder i index.reopen index'.reopen :=
  ⟨h.committed, h.committed, Segment.DifferInOrder.refl i []⟩

theorem effect (h : DifferInOrder i index index') (op : Operation) :
    DifferInOrder i (op.effect index) (op.effect index') := by
  have hwritten := h.foldl_write op.writes
  rw [Operation.effect, Operation.effect]
  cases op.decides with
  | none => exact hwritten
  | some decision =>
      cases decision with
      | true => exact hwritten.commit
      | false => exact h.reopen

end DifferInOrder

end Index

namespace Session

variable {i : UInt64}

/-- Operations keep what is different between two stores to an order. -/
theorem differInOrder_foldl {session session' : Session}
    (h : Index.DifferInOrder i session.service.index session'.service.index) (ops : List Operation) :
    Index.DifferInOrder i (ops.foldl step session).service.index
      (ops.foldl step session').service.index := by
  induction ops generalizing session session' with
  | nil => exact h
  | cons op rest ih =>
      apply ih
      rw [step_index, step_index]
      exact h.effect op

/-- Two histories in which the records of an identity are written in two orders. -/
theorem differInOrder_shown (settings : Settings) (before after : List Operation)
    {records records' : List Record} (hperm : records.Perm records') :
    Snapshot.DifferInOrder i (shown settings (before ++ .put i records :: after))
      (shown settings (before ++ .put i records' :: after)) := by
  rw [shown, shown, run_append, run_append]
  exact (differInOrder_foldl (Index.DifferInOrder.put i _ hperm) after).committed

/-- What is shown of an identity after records were written for it that last, if nothing else was since. -/
theorem recordsOf_shown_put (settings : Settings) (before : List Operation) {after : List Operation}
    {records : List Record} (hlasts : Operation.lasts after = true)
    (hspares : ∀ op ∈ after, op.Spares i) :
    (shown settings (before ++ .put i records :: after)).recordsOf i = (Write.put i records).records := by
  have hwritten : Content.lastWrite i (Operation.durable (before ++ .put i records :: after)) =
      some (Write.put i records) := by
    obtain ⟨earlier, hearlier⟩ := Operation.exists_durable_append before (.put i records :: after)
    -- The write lasts, and none of those behind it is to the identity.
    have hlast : Operation.lasts (.put i records :: after) = true := by
      rw [Operation.lasts_cons_none rfl, hlasts]
    have hafter : Content.lastWrite i (Operation.durable after) = none := by
      rw [Content.lastWrite, Operation.filter_durable_of_spares hspares]
      rfl
    have hid : (Write.put i records).identity = i := rfl
    rw [hearlier, Operation.durable, hlast, if_pos rfl, Content.lastWrite_append,
      Content.lastWrite_append, hafter, Operation.writes, Content.lastWrite_singleton, if_pos hid]
    rfl
  rw [recordsOf_shown_eq_last, hwritten]
  rfl

end Session

end EventFinder
