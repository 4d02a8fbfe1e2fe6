import EventFinder.Proofs.Import.Events
import EventFinder.Proofs.Search.Everything
import EventFinder.Proofs.Store.History

/-!
# Exporting a store

If the events of a store come from inputs alone, what is shown of an identity are the records of one event,
which is what is read from their payload (`recordsOf_of_inputs`). So the payloads that a search for
everything shows are an export of the store: read into an empty store, they give the same records of every
identity (`export_restores`).
-/

set_option autoImplicit false

namespace EventFinder

namespace Operation

/-- All records that the operation writes are those of events that it reads from an input. -/
def FromInput : Operation → Prop
  | putEvent _ _ | put _ _ | ingest _ => False
  | importEvents _ | remove _ | delete _ | commit | hold | reopen => True

theorem faithful_of_mem_imported {input : List UInt8} {e : ImportedEvent} (h : e ∈ imported input) :
    e.Faithful := by
  rw [imported, Service.readEvents] at h
  cases hread : Import.readEvents input with
  | error e' =>
      rw [hread] at h
      cases h
  | ok events =>
      rw [hread] at h
      exact Import.faithful_of_mem hread h

theorem writes_of_fromInput {op : Operation} (h : op.FromInput) {w : Write} (hw : w ∈ op.writes) :
    w.records = [] ∨ ∃ e : ImportedEvent, e.Faithful ∧ w = .ofEvent e.event e.payload := by
  cases op with
  | importEvents input =>
      obtain ⟨e, he, rfl⟩ := List.mem_map.1 hw
      exact Or.inr ⟨e, faithful_of_mem_imported he, rfl⟩
  | remove identity =>
      rw [List.mem_singleton.1 hw]
      exact Or.inl rfl
  | delete identity =>
      rw [List.mem_singleton.1 hw]
      exact Or.inl rfl
  | putEvent event payload => cases h
  | put identity records => cases h
  | ingest events => cases h
  | commit => cases hw
  | hold => cases hw
  | reopen => cases hw

end Operation

namespace Session

open Operation

/-- All that is shown of an identity are the records of an event that was read from their payload. -/
theorem recordsOf_of_inputs {settings : Settings} {ops : List Operation} (h : ∀ op ∈ ops, op.FromInput)
    (i : UInt64) :
    (shown settings ops).recordsOf i = [] ∨
      ∃ e : ImportedEvent, e.Faithful ∧ e.event.identity = i ∧
        (shown settings ops).recordsOf i = (Write.ofEvent e.event e.payload).records := by
  rw [recordsOf_shown_eq_last]
  cases hlast : Content.lastWrite i (durable ops) with
  | none => exact Or.inl rfl
  | some w =>
      obtain ⟨op, hop, hw⟩ := exists_of_mem_durable (Content.mem_of_lastWrite hlast)
      rcases writes_of_fromInput (h op hop) hw with hnil | ⟨e, he, rfl⟩
      · exact Or.inl hnil
      · exact Or.inr ⟨e, he, Content.identity_of_lastWrite hlast, rfl⟩

/-- All records of an event have its payload. -/
theorem payload_of_mem_ofEvent {event : Event} {payload : String} {r : Record}
    (h : r ∈ (Write.ofEvent event payload).records) : r.payload = payload := by
  rw [Write.records_ofEvent] at h
  obtain ⟨occurrence, rfl⟩ := Event.exists_recordAt_of_mem_records h
  rfl

/-- What is ingested into an empty store. -/
theorem recordsOf_ingest_start (settings : Settings) (events : List ImportedEvent) (i : UInt64) :
    ((start settings).service.ingest events).1.index.snapshot.recordsOf i =
      Content.replay (events.map fun e => .ofEvent e.event e.payload) i := by
  rw [ingest_index]
  exact (holds_effect Index.holds_empty (.ingest events)).committed i

section Export

variable {settings : Settings} {ops : List Operation} {request : Request}

/-- The hits that are shown of a store of events are its events, each with its own records. -/
theorem exists_events {ranked : List Hit} (h : ∀ op ∈ ops, op.FromInput)
    (hshown : ∀ hit ∈ ranked, ∃ r ∈ (shown settings ops).records,
      r.identity = hit.identity ∧ r.payload = hit.payload) :
    ∃ events : List ImportedEvent,
      (∀ e ∈ events, e.Faithful ∧
        (shown settings ops).recordsOf e.event.identity = (Write.ofEvent e.event e.payload).records) ∧
      events.map ImportedEvent.payload = ranked.map Hit.payload ∧
      (events.map fun e => e.event.identity) = ranked.map Hit.identity := by
  induction ranked with
  | nil => exact ⟨[], by simp, rfl, rfl⟩
  | cons hit rest ih =>
      rw [List.forall_mem_cons] at hshown
      obtain ⟨events, hevents, hpayloads, hidentities⟩ := ih hshown.2
      obtain ⟨r, hr, hid, hpayload⟩ := hshown.1
      have hmem : r ∈ (shown settings ops).recordsOf hit.identity := by
        rw [Snapshot.recordsOf, List.mem_filter]
        exact ⟨hr, decide_eq_true hid⟩
      -- The hit is one of a record, so its identity has records, which are those of one event.
      rcases recordsOf_of_inputs h hit.identity with hnil | ⟨e, he, heid, hrecords⟩
      · rw [hnil] at hmem
        cases hmem
      · rw [hrecords] at hmem
        refine ⟨e :: events, List.forall_mem_cons.2 ⟨⟨he, heid ▸ hrecords⟩, hevents⟩, ?_, ?_⟩
        · rw [List.map_cons, List.map_cons, hpayloads, ← hpayload, payload_of_mem_ofEvent hmem]
        · rw [List.map_cons, List.map_cons, hidentities, heid]

/-- What the answer to a search for everything exports. -/
theorem exists_exported (h : ∀ op ∈ ops, op.FromInput) (hpayload : request.includePayload = true)
    (hstart : request.startIndex = 0) {results : Results}
    (hresults : results = Results.ofHits request ((shown settings ops).hits .matchAll))
    (hlimit : results.totalMatches ≤ request.limit.toNat) :
    ∃ events : List ImportedEvent,
      results.results.filterMap Result.payload = events.map ImportedEvent.payload ∧
      results.totalMatches = events.length ∧
      (∀ e ∈ events, e.Faithful ∧
        (shown settings ops).recordsOf e.event.identity = (Write.ofEvent e.event e.payload).records) ∧
      (events.map fun e => e.event.identity).Nodup ∧
      ∀ i, i ∉ (events.map fun e => e.event.identity) → (shown settings ops).recordsOf i = [] := by
  subst hresults
  obtain ⟨ranked, hranked, htotal, hnodup, hsound, hcomplete⟩ :=
    Snapshot.exists_ranked_matchAll (shown settings ops) hstart hlimit
  obtain ⟨events, hevents, hpayloads, hidentities⟩ := exists_events h hsound
  refine ⟨events, ?_, ?_, hevents, hidentities ▸ hnodup, fun i hi => ?_⟩
  · rw [hranked, hpayload, List.filterMap_map, hpayloads]
    exact congrFun (List.filterMap_eq_map (f := Hit.payload)) ranked
  · rw [htotal, ← List.length_map Hit.identity, ← hidentities, List.length_map]
  · rw [Snapshot.recordsOf, List.filter_eq_nil_iff]
    intro r hr hid
    rw [hidentities, ← of_decide_eq_true hid] at hi
    exact hi (hcomplete r hr)

/-- What is ingested of events of different identities into an empty store: of each its own records. -/
theorem recordsOf_ingest_of_nodup (settings : Settings) {events : List ImportedEvent}
    (hnodup : (events.map fun e => e.event.identity).Nodup) (i : UInt64) :
    (∀ e ∈ events, e.event.identity = i →
      ((start settings).service.ingest events).1.index.snapshot.recordsOf i =
        (Write.ofEvent e.event e.payload).records) ∧
    (i ∉ (events.map fun e => e.event.identity) →
      ((start settings).service.ingest events).1.index.snapshot.recordsOf i = []) := by
  have hwrites : ((events.map fun e => Write.ofEvent e.event e.payload).map Write.identity) =
      events.map fun e => e.event.identity := by
    rw [List.map_map]
    rfl
  rw [recordsOf_ingest_start, Content.replay_eq_last]
  constructor
  · rintro e he rfl
    have hlast := Content.lastWrite_of_nodup (hwrites ▸ hnodup)
      (List.mem_map_of_mem (f := fun e => Write.ofEvent e.event e.payload) he)
    have hid : (Write.ofEvent e.event e.payload).identity = e.event.identity := rfl
    rw [hid] at hlast
    rw [hlast]
    rfl
  · intro hi
    rw [Content.lastWrite_eq_none]
    · rfl
    · intro w hw hid
      rw [← hwrites, ← hid] at hi
      exact hi (List.mem_map_of_mem hw)

end Export

/-- The payloads that a search for everything shows, joined with line feeds, are read into an empty store as
the same records of every identity, and the status is the same. The search has to show all matches, and all
events of the store have to come from inputs. -/
theorem export_restores (settings settings' : Settings) {ops : List Operation} (h : ∀ op ∈ ops, op.FromInput)
    (request : Request) (hquery : request.query = .matchAll) (hpayload : request.includePayload = true)
    (hstart : request.startIndex = 0) :
    ∃ results, (run settings ops).service.execute request = .ok results ∧
      (results.totalMatches ≤ request.limit.toNat →
        ∃ restored,
          (start settings').service.importEvents
            (Import.bytes ("\n".intercalate (results.results.filterMap Result.payload))) =
              .ok (restored, results.totalMatches) ∧
          (∀ i, restored.index.snapshot.recordsOf i = (shown settings ops).recordsOf i) ∧
          ∃ status, restored.status = .ok status ∧ (run settings ops).service.status = .ok status) := by
  have hexecute : (run settings ops).service.execute request =
      .ok (Results.ofHits request ((shown settings ops).hits .matchAll)) := by
    rw [Service.execute, Snapshot.search_matchAll _ hquery]
    rfl
  refine ⟨_, hexecute, fun hlimit => ?_⟩
  obtain ⟨events, hpayloads, htotal, hevents, hnodup, hrest⟩ :=
    exists_exported h hpayload hstart rfl hlimit
  have hread := Import.readEvents_joined fun e he => (hevents e he).1
  have hrecords : ∀ i, ((start settings').service.ingest events).1.index.snapshot.recordsOf i =
      (shown settings ops).recordsOf i := by
    intro i
    obtain ⟨hown, hnone⟩ := recordsOf_ingest_of_nodup settings' hnodup i
    -- An identity was exported with all of its records, or it has none in either store.
    by_cases hi : i ∈ events.map fun e => e.event.identity
    · obtain ⟨e, he, rfl⟩ := List.mem_map.1 hi
      rw [hown e he rfl, (hevents e he).2]
    · rw [hnone hi, hrest i hi]
  refine ⟨((start settings').service.ingest events).1, ?_, hrecords, ?_⟩
  · rw [hpayloads, Service.importEvents, Service.readEvents, hread, htotal]
    rfl
  · have hstatus : ((start settings').service.ingest events).1.status = (run settings ops).service.status :=
      congrArg (Except.mapError SearchError.toFailure) (Snapshot.status_congr hrecords)
    exact ⟨_, Service.status_eq _, hstatus ▸ Service.status_eq _⟩

/-- Two events are imported, and one of them is deleted. -/
def oneLeft : List Operation :=
  [.importEvents (Import.bytes "\x7b\"identity\": 7\x7d\n\n \x7b\"identity\": 8, \"tags\": [\"jazz\"]\x7d\n"),
   .delete 7]

/-- The first page of everything, with payloads. -/
def everything : Request := { Request.standard .matchAll with includePayload := true }

/-- The event that is left is exported and restored. -/
theorem export_restores_one_left :
    ∃ results, (run .standard oneLeft).service.execute everything = .ok results ∧
      ∃ restored, (start .standard).service.importEvents
          (Import.bytes ("\n".intercalate (results.results.filterMap Result.payload))) = .ok (restored, 1) ∧
        restored.index.snapshot.recordsOf 8 = (shown .standard oneLeft).recordsOf 8 := by
  have h : ∀ op ∈ oneLeft, op.FromInput := by
    intro op hop
    rcases List.mem_cons.1 hop with rfl | hop
    · exact trivial
    · rw [List.mem_singleton.1 hop]
      exact trivial
  obtain ⟨results, hexecute, hrestores⟩ := export_restores .standard .standard h everything rfl rfl rfl
  have htotal : ((run .standard oneLeft).service.execute everything).map Results.totalMatches = .ok 1 := by
    decide +kernel
  rw [hexecute, Except.map, Except.ok.injEq] at htotal
  rw [htotal] at hrestores
  obtain ⟨restored, himport, hrecords, -⟩ := hrestores (by decide)
  exact ⟨results, hexecute, restored, himport, hrecords 8⟩

end Session

end EventFinder
