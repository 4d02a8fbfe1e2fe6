import EventFinder.Proofs.Store.Content

/-!
# Histories of a store

What can be done to a store is an `Operation`; a `Session` is a service together with the snapshots that
were taken of it and are still held. The operations done so far decide which writes count: a write
*lasts* if of the commits and reopenings from it on the first one is a commit (`durable`), and it is
*undecided* if there was neither (`undecided`).

All that an operation does to the index is to write, to commit and to open it again (`step_index`). So
after any operations the committed records are those of the durable writes replayed to an empty store,
and the pending ones those of the durable and then the undecided writes (`holds_run`). Hence a snapshot
shows, for ever, the durable writes before it, and of each identity the records of exactly one write
(`held_snapshot_replays`).
-/

set_option autoImplicit false

namespace EventFinder

/-- What can be done to a store. -/
inductive Operation where
  /-- Replaces the records of an event, without a commit. -/
  | putEvent (event : Event) (payload : String)
  /-- Replaces the records of an identity, without a commit. -/
  | put (identity : UInt64) (records : List Record)
  /-- Removes the records of an identity, without a commit. -/
  | remove (identity : UInt64)
  /-- Removes the records of an identity and commits. -/
  | delete (identity : UInt64)
  /-- Replaces the records of some events and commits. -/
  | ingest (events : List ImportedEvent)
  /-- Replaces the records of the events of an input and commits, unless the input is at fault. -/
  | importEvents (input : List UInt8)
  | commit
  /-- Takes a snapshot and keeps it. -/
  | hold
  /-- Closes the store and opens it again. -/
  | reopen

/-- A service and the snapshots that are held of it, the oldest first. -/
structure Session where
  service : Service
  held : List Snapshot

namespace Session

/-- The session with another index. -/
def withIndex (session : Session) (index : Index) : Session :=
  { session with service := { session.service with index := index } }

/-- The session after an operation. -/
def step (session : Session) : Operation → Session
  | .putEvent event payload => session.withIndex (session.service.index.putEvent event payload)
  | .put identity records => session.withIndex (session.service.index.put identity records)
  | .remove identity => session.withIndex (session.service.index.remove identity)
  | .delete identity => { session with service := session.service.delete identity }
  | .ingest events => { session with service := (session.service.ingest events).1 }
  | .importEvents input =>
      match session.service.importEvents input with
      | .ok imported => { session with service := imported.1 }
      | .error _ => session
  | .commit => session.withIndex session.service.index.commit
  | .hold => { session with held := session.held ++ [session.service.index.snapshot] }
  | .reopen => session.withIndex session.service.index.reopen

/-- An empty store, of which no snapshot is held. -/
def start (settings : Settings) : Session := ⟨⟨settings, Index.empty⟩, []⟩

/-- The session after some operations on an empty store. -/
def run (settings : Settings) (ops : List Operation) : Session := ops.foldl step (start settings)

theorem run_append (settings : Settings) (ops further : List Operation) :
    run settings (ops ++ further) = further.foldl step (run settings ops) := by
  rw [run, List.foldl_append, ← run]

/-- What a search sees after some operations. -/
def shown (settings : Settings) (ops : List Operation) : Snapshot :=
  (run settings ops).service.index.snapshot

end Session

/-! ## Which writes last

Whether a write lasts is decided by the operations from its own on. The lemmas on a further operation at the
end (`lasts_concat`, `undecided_concat`, `durable_concat`) are what the induction on histories needs. -/

namespace Operation

/-- The events that an import finds, none if its input is at fault. -/
def imported (input : List UInt8) : List ImportedEvent := (Service.readEvents input).toOption.getD []

/-- The writes of an operation, in order. -/
def writes : Operation → List Write
  | putEvent event payload => [.ofEvent event payload]
  | put identity records => [.put identity records]
  | remove identity => [.remove identity]
  | delete identity => [.remove identity]
  | ingest events => events.map fun e => .ofEvent e.event e.payload
  | importEvents input => (imported input).map fun e => .ofEvent e.event e.payload
  | commit | hold | reopen => []

/-- What an operation decides about the writes before it and its own: that they last, or that they are
lost. -/
def decides : Operation → Option Bool
  | delete _ | ingest _ | commit => some true
  | importEvents input => if (Service.readEvents input).isOk then some true else none
  | reopen => some false
  | putEvent _ _ | put _ _ | remove _ | hold => none

/-- The index after an operation: after its writes, and then committed or opened again if it decides so. -/
def effect (op : Operation) (index : Index) : Index :=
  match op.decides with
  | none => op.writes.foldl Index.write index
  | some true => (op.writes.foldl Index.write index).commit
  | some false => index.reopen

/-- Does a write at the first of the operations last? -/
def lasts : List Operation → Bool
  | [] => false
  | op :: rest =>
      match op.decides with
      | some decision => decision
      | none => lasts rest

/-- The writes that last. -/
def durable : List Operation → List Write
  | [] => []
  | op :: rest => (if lasts (op :: rest) then op.writes else []) ++ durable rest

/-- Is nothing decided by the operations? -/
def isOpen (ops : List Operation) : Bool := ops.all fun op => op.decides.isNone

/-- The writes of which it is open whether they last. -/
def undecided : List Operation → List Write
  | [] => []
  | op :: rest => (if isOpen (op :: rest) then op.writes else []) ++ undecided rest

theorem lasts_cons_none {op : Operation} (h : op.decides = none) (rest : List Operation) :
    lasts (op :: rest) = lasts rest := by
  rw [lasts, h]

theorem lasts_cons_some {op : Operation} {decision : Bool} (h : op.decides = some decision)
    (rest : List Operation) : lasts (op :: rest) = decision := by
  rw [lasts, h]

theorem isOpen_cons (op : Operation) (rest : List Operation) :
    isOpen (op :: rest) = (op.decides.isNone && isOpen rest) := rfl

theorem lasts_of_isOpen {ops : List Operation} (h : isOpen ops = true) : lasts ops = false := by
  induction ops with
  | nil => rfl
  | cons op rest ih =>
      rw [isOpen_cons, Bool.and_eq_true, Option.isNone_iff_eq_none] at h
      rw [lasts_cons_none h.1, ih h.2]

theorem durable_of_isOpen {ops : List Operation} (h : isOpen ops = true) : durable ops = [] := by
  induction ops with
  | nil => rfl
  | cons op rest ih =>
      have hlasts := lasts_of_isOpen h
      rw [isOpen_cons, Bool.and_eq_true] at h
      rw [durable, hlasts, ih h.2]
      rfl

theorem exists_of_mem_durable {ops : List Operation} {w : Write} (h : w ∈ durable ops) :
    ∃ op ∈ ops, w ∈ op.writes := by
  induction ops with
  | nil => cases h
  | cons op rest ih =>
      rw [durable, List.mem_append] at h
      rcases h with h | h
      · split at h
        · exact ⟨op, List.mem_cons_self, h⟩
        · cases h
      · obtain ⟨op', hop', hw⟩ := ih h
        exact ⟨op', List.mem_cons_of_mem _ hop', hw⟩

theorem isOpen_concat (ops : List Operation) (op : Operation) :
    isOpen (ops ++ [op]) = (isOpen ops && op.decides.isNone) := by
  simp [isOpen]

/-- A write lasts if it did before or if it was open and the new operation is a commit. -/
theorem lasts_concat (ops : List Operation) (op : Operation) :
    lasts (ops ++ [op]) = (lasts ops || isOpen ops && decide (op.decides = some true)) := by
  induction ops with
  | nil =>
      cases h : op.decides with
      | none => simp [lasts_cons_none h, lasts, isOpen]
      | some decision => cases decision <;> simp [lasts_cons_some h, lasts, isOpen]
  | cons o rest ih =>
      rw [List.cons_append, isOpen_cons]
      -- What the first operation decides, no later one changes.
      cases h : o.decides with
      | none => rw [lasts_cons_none h, lasts_cons_none h, ih, Option.isNone_none, Bool.true_and]
      | some decision => simp [lasts_cons_some h]

theorem undecided_concat (ops : List Operation) (op : Operation) :
    undecided (ops ++ [op]) = if op.decides.isNone then undecided ops ++ op.writes else [] := by
  induction ops with
  | nil => by_cases h : op.decides.isNone <;> simp [undecided, isOpen, h]
  | cons o rest ih =>
      rw [List.cons_append, undecided, undecided, ih, ← List.cons_append, isOpen_concat]
      by_cases h : op.decides.isNone
      · simp [h]
      · simp [h]

/-- A commit makes all last that was open. -/
theorem durable_concat (ops : List Operation) (op : Operation) :
    durable (ops ++ [op]) =
      durable ops ++ if op.decides = some true then undecided ops ++ op.writes else [] := by
  induction ops with
  | nil =>
      have hlasts : lasts [op] = decide (op.decides = some true) := lasts_concat [] op
      simp [durable, undecided, hlasts]
  | cons o rest ih =>
      rw [List.cons_append, durable, ih, durable, undecided, ← List.cons_append, lasts_concat]
      by_cases hcommit : op.decides = some true
      · by_cases hopen : isOpen (o :: rest) = true
        · -- All of them were open, so none of them lasted before.
          have hrest : isOpen rest = true := by
            rw [isOpen_cons, Bool.and_eq_true] at hopen
            exact hopen.2
          simp [hcommit, hopen, lasts_of_isOpen hopen, durable_of_isOpen hrest]
        · simp [hcommit, hopen]
      · simp [hcommit]

end Operation

namespace Operation

/-! ### Writes to one identity -/

/-- The operation writes nothing to an identity. -/
def Spares (op : Operation) (i : UInt64) : Prop := ∀ w ∈ op.writes, w.identity ≠ i

variable {op op' : Operation}

theorem lasts_append_congr (hdecides : op.decides = op'.decides) (before after : List Operation) :
    lasts (before ++ op :: after) = lasts (before ++ op' :: after) := by
  induction before with
  | nil => rw [List.nil_append, List.nil_append, lasts, lasts, hdecides]
  | cons o rest ih =>
      rw [List.cons_append, List.cons_append, lasts, lasts, ih]

theorem filter_writes_of_spares {i : UInt64} (h : op.Spares i) :
    (op.writes.filter fun w => decide (w.identity = i)) = [] := by
  rw [List.filter_eq_nil_iff]
  intro w hw
  simpa using h w hw

theorem filter_durable_of_spares {i : UInt64} {ops : List Operation} (h : ∀ op ∈ ops, op.Spares i) :
    ((durable ops).filter fun w => decide (w.identity = i)) = [] := by
  induction ops with
  | nil => rfl
  | cons o rest ih =>
      rw [durable, List.filter_append, ih fun op hop => h op (List.mem_cons_of_mem _ hop)]
      split
      · rw [filter_writes_of_spares (h o List.mem_cons_self), List.append_nil]
      · rfl

/-- Earlier operations add durable writes in front. -/
theorem exists_durable_append (before ops : List Operation) :
    ∃ earlier, durable (before ++ ops) = earlier ++ durable ops := by
  induction before with
  | nil => exact ⟨[], rfl⟩
  | cons o rest ih =>
      obtain ⟨earlier, hearlier⟩ := ih
      rw [List.cons_append, durable, hearlier]
      exact ⟨_ ++ earlier, (List.append_assoc ..).symm⟩

/-- The durable writes to an identity do not depend on what an operation that spares it writes to
others. -/
theorem filter_durable_congr {i : UInt64} (hdecides : op.decides = op'.decides) (h : op.Spares i)
    (h' : op'.Spares i) (before after : List Operation) :
    ((durable (before ++ op :: after)).filter fun w => decide (w.identity = i)) =
      (durable (before ++ op' :: after)).filter fun w => decide (w.identity = i) := by
  induction before with
  | nil =>
      rw [List.nil_append, List.nil_append, durable, durable, List.filter_append, List.filter_append]
      congr 1
      split <;> split <;> simp [filter_writes_of_spares h, filter_writes_of_spares h']
  | cons o rest ih =>
      rw [List.cons_append, List.cons_append, durable, durable, List.filter_append,
        List.filter_append, ih, ← List.cons_append, ← List.cons_append, lasts_append_congr hdecides]

end Operation

/-! ## What a session shows -/

namespace Session

open Operation

/-- Ingesting is writing all events and committing. -/
theorem ingest_index (service : Service) (events : List ImportedEvent) :
    (service.ingest events).1.index = (Operation.ingest events).effect service.index := by
  have hbatch := Index.applyBatch_eq service.index (events.map Change.put)
  rw [List.map_map] at hbatch
  exact hbatch

/-- All that an operation does to the index is to write, to commit and to open it again. -/
theorem step_index (session : Session) (op : Operation) :
    (session.step op).service.index = op.effect session.service.index := by
  cases op with
  | putEvent event payload => exact (Index.write_put ..).symm
  | put identity records => exact (Index.write_put ..).symm
  | remove identity => exact (Index.write_remove ..).symm
  | delete identity => exact Index.applyBatch_eq _ [.remove identity]
  | ingest events => exact ingest_index session.service events
  | importEvents input =>
      cases hread : Service.readEvents input with
      | error e =>
          have himport : session.service.importEvents input = .error e := by
            rw [Service.importEvents, hread]
            rfl
          simp [step, himport, effect, decides, writes, imported, hread, Except.isOk, Except.toBool,
            Except.toOption]
      | ok events =>
          have himport : session.service.importEvents input =
              .ok ((session.service.ingest events).1, events.length) := by
            rw [Service.importEvents, hread]
            rfl
          have heffect : (importEvents input).effect = (ingest events).effect := by
            funext index
            simp [effect, decides, writes, imported, hread, Except.isOk, Except.toBool, Except.toOption]
          rw [step, himport, heffect]
          exact ingest_index session.service events
  | commit => rfl
  | hold => rfl
  | reopen => rfl

/-- One operation on an index that holds the durable and the pending writes so far. -/
theorem holds_effect {index : Index} {c p : Content} (h : index.Holds c p) (op : Operation) :
    (op.effect index).Holds
      (if op.decides = some true then op.writes.foldl Content.write p else c)
      (if op.decides = some false then c else op.writes.foldl Content.write p) := by
  have hwritten := Index.holds_foldl_write h op.writes
  rw [effect]
  cases op.decides with
  | none => simpa using hwritten
  | some decision =>
      cases decision with
      | true => simpa using Index.holds_commit hwritten
      | false => simpa using Index.holds_reopen h

/-- After any operations the committed records are those of the durable writes, and the pending ones
those of the durable and the undecided writes. -/
theorem holds_run (settings : Settings) (ops : List Operation) :
    (run settings ops).service.index.Holds (Content.replay (durable ops))
      (Content.replay (durable ops ++ undecided ops)) := by
  induction ops using List.reverseRecOn with
  | nil => exact Index.holds_empty
  | append_singleton ops op ih =>
      -- The operation decides, for all writes that are still open, or leaves that open.
      have hstep := holds_effect ih op
      rw [← step_index] at hstep
      rw [run_append, durable_concat, undecided_concat]
      cases h : op.decides with
      | none =>
          simp only [h, reduceCtorEq, if_false, ← Content.replay_append] at hstep
          simpa using hstep
      | some decision =>
          cases decision with
          | true =>
              simp only [h, if_true, ← Content.replay_append] at hstep
              simpa using hstep
          | false =>
              simp only [h, Option.some.injEq, Bool.false_eq_true, if_false, if_true] at hstep
              simpa using hstep

/-- What is shown after some operations are the durable writes. -/
theorem recordsOf_shown (settings : Settings) (ops : List Operation) (i : UInt64) :
    (shown settings ops).recordsOf i = Content.replay (durable ops) i :=
  (holds_run settings ops).committed i

/-- What is shown of an identity are the records of the last durable write to it. -/
theorem recordsOf_shown_eq_last (settings : Settings) (ops : List Operation) (i : UInt64) :
    (shown settings ops).recordsOf i =
      ((Content.lastWrite i (durable ops)).map Write.records).getD [] := by
  rw [recordsOf_shown, Content.replay_eq_last]

/-- Every record that is shown was written. -/
theorem exists_write_of_mem_records {settings : Settings} {ops : List Operation} {r : Record}
    (h : r ∈ (shown settings ops).records) : ∃ op ∈ ops, ∃ w ∈ op.writes, r ∈ w.records := by
  have hr : r ∈ (shown settings ops).recordsOf r.identity := by
    rw [Snapshot.recordsOf, List.mem_filter]
    exact ⟨h, by simp⟩
  rw [recordsOf_shown_eq_last] at hr
  cases hlast : Content.lastWrite r.identity (durable ops) with
  | none =>
      rw [hlast] at hr
      cases hr
  | some w =>
      rw [hlast] at hr
      obtain ⟨op, hop, hw⟩ := exists_of_mem_durable (Content.mem_of_lastWrite hlast)
      exact ⟨op, hop, w, hw, hr⟩

/-- What is shown of an identity stays if an operation that spares it is exchanged for another one. -/
theorem recordsOf_shown_congr (settings : Settings) {i : UInt64} {op op' : Operation}
    (hdecides : op.decides = op'.decides) (h : op.Spares i) (h' : op'.Spares i)
    (before after : List Operation) :
    (shown settings (before ++ op :: after)).recordsOf i =
      (shown settings (before ++ op' :: after)).recordsOf i := by
  rw [recordsOf_shown_eq_last, recordsOf_shown_eq_last, Content.lastWrite, Content.lastWrite,
    filter_durable_congr hdecides h h']

/-- Held snapshots stay as they are; further ones come behind them. -/
theorem held_foldl (session : Session) (ops : List Operation) :
    ∃ later, (ops.foldl step session).held = session.held ++ later := by
  induction ops generalizing session with
  | nil => exact ⟨[], (List.append_nil _).symm⟩
  | cons op rest ih =>
      obtain ⟨later, hlater⟩ := ih (session.step op)
      -- One operation adds a snapshot behind the others, or none.
      have hstep : ∃ taken, (session.step op).held = session.held ++ taken := by
        cases op with
        | hold => exact ⟨[session.service.index.snapshot], rfl⟩
        | importEvents input =>
            rw [step]
            split <;> exact ⟨[], (List.append_nil _).symm⟩
        | _ => exact ⟨[], (List.append_nil _).symm⟩
      obtain ⟨taken, htaken⟩ := hstep
      exact ⟨taken ++ later, by rw [List.foldl_cons, hlater, htaken, List.append_assoc]⟩

/-- A snapshot is held as it was taken, whatever is done afterwards. It shows the durable writes before
it, replayed to an empty store: of each identity the records of the last durable write to it, all of them
and no others. What operations write to other identities does not matter. -/
theorem held_snapshot_replays (settings : Settings) (before after : List Operation) :
    ∃ (s : Snapshot) (later : List Snapshot),
      (run settings (before ++ .hold :: after)).held = (run settings before).held ++ s :: later ∧
      (∀ i, s.recordsOf i = Content.replay (durable before) i) ∧
      (∀ i, s.recordsOf i = ((Content.lastWrite i (durable before)).map Write.records).getD []) ∧
      ∀ (i : UInt64) (first last : List Operation) (op op' : Operation),
        before = first ++ op :: last → op.decides = op'.decides → op.Spares i → op'.Spares i →
          s.recordsOf i = (shown settings (first ++ op' :: last)).recordsOf i := by
  obtain ⟨later, hlater⟩ := held_foldl ((run settings before).step .hold) after
  refine ⟨shown settings before, later, ?_, recordsOf_shown settings before,
    recordsOf_shown_eq_last settings before, ?_⟩
  · rw [run_append, List.foldl_cons, hlater, step, List.append_assoc]
    rfl
  · intro i first last op op' hbefore hdecides h h'
    rw [hbefore]
    exact recordsOf_shown_congr settings hdecides h h' first last

end Session

end EventFinder
