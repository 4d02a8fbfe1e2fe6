import EventFinder.Proofs.Import.Lines
import EventFinder.Proofs.Store.History

/-!
# Imports in a row

To import inputs in a row is to write all of their events, in order (`importsTo_of_read`), and of the writes to an
identity the last one counts. So two inputs can be imported as one, with a line feed between them; importing an
input again changes nothing; and if no identity occurs in both inputs, their order does not matter
(`imports_compose`). What was pending before is committed along with them.
-/

set_option autoImplicit false

namespace EventFinder

namespace Service

/-- Imports some inputs, one after another. Gives the number of events of each. -/
def importAll (service : Service) : List (List UInt8) → Except Failure (Service × List Nat)
  | [] => .ok (service, [])
  | input :: rest => do
      let (next, count) ← service.importEvents input
      let (last, counts) ← next.importAll rest
      return (last, count :: counts)

/-- All of the inputs can be imported, one after another. They have so many events, and afterwards this is what is
committed. -/
def ImportsTo (service : Service) (inputs : List (List UInt8)) (counts : List Nat) (content : Content) : Prop :=
  ∃ last, service.importAll inputs = .ok (last, counts) ∧
    ∀ i, last.index.snapshot.recordsOf i = content i

/-- The writes of some events, in order. -/
def writesOf (events : List ImportedEvent) : List Write := events.map fun e => .ofEvent e.event e.payload

theorem writesOf_append (events others : List ImportedEvent) :
    writesOf (events ++ others) = writesOf events ++ writesOf others := List.map_append

/-- An import commits what was pending and, behind it, the events of its input. -/
theorem exists_importEvents {service : Service} {c p : Content} (h : service.index.Holds c p)
    {input : List UInt8} {events : List ImportedEvent} (hread : Import.readEvents input = .ok events) :
    ∃ after, service.importEvents input = .ok (after, events.length) ∧
      after.index.Holds ((writesOf events).foldl Content.write p) ((writesOf events).foldl Content.write p) := by
  refine ⟨(service.ingest events).1, ?_, ?_⟩
  · rw [importEvents, readEvents, hread]
    rfl
  · rw [Session.ingest_index]
    exact Session.holds_effect h (.ingest events)

/-- Inputs that are imported in a row are their events written in a row. -/
theorem importsTo_of_read {service : Service} {c p : Content} (h : service.index.Holds c p)
    {input : List UInt8} {events : List ImportedEvent} (hread : Import.readEvents input = .ok events)
    {inputs : List (List UInt8)} {others : List (List ImportedEvent)}
    (hothers : List.Forall₂ (fun i es => Import.readEvents i = .ok es) inputs others) :
    service.ImportsTo (input :: inputs) ((events :: others).map List.length)
      ((writesOf (events :: others).flatten).foldl Content.write p) := by
  -- After the first input the service holds one content, committed and pending, and the rest go on from there.
  obtain ⟨after, himport, hafter⟩ := exists_importEvents h hread
  induction hothers generalizing service c p input events after with
  | nil =>
      refine ⟨after, ?_, fun i => ?_⟩
      · rw [importAll, himport]
        rfl
      · rw [hafter.committed, List.flatten_cons, List.flatten_nil, List.append_nil]
  | cons hnext _ ih =>
      obtain ⟨next, himportNext, hafterNext⟩ := exists_importEvents hafter hnext
      obtain ⟨last, hall, hlast⟩ := ih hafter hnext next himportNext hafterNext
      refine ⟨last, ?_, fun i => ?_⟩
      · rw [importAll, himport]
        change (do
          let (last, counts) ← after.importAll _
          return (last, events.length :: counts)) = _
        rw [hall]
        rfl
      · rw [hlast, List.flatten_cons (l := events), writesOf_append, List.foldl_append]

end Service

namespace Session

open Operation

/-- At any time, of inputs that can be read: one input imported after another one, and both in one with a line feed
between them, lead to the same content, and the numbers of events add up. Importing an input twice leads to the same
as importing it once. Inputs without a common identity lead to the same in either order. -/
theorem imports_compose (settings : Settings) (ops : List Operation) {a b : List UInt8}
    {events others : List ImportedEvent} (ha : Import.readEvents a = .ok events)
    (hb : Import.readEvents b = .ok others) :
    (∃ content,
      (run settings ops).service.ImportsTo [a, b] [events.length, others.length] content ∧
      (run settings ops).service.ImportsTo [a ++ Import.lineFeed :: b] [events.length + others.length] content ∧
      ((∀ e ∈ events, ∀ other ∈ others, e.event.identity ≠ other.event.identity) →
        (run settings ops).service.ImportsTo [b, a] [others.length, events.length] content)) ∧
    ∃ content,
      (run settings ops).service.ImportsTo [a] [events.length] content ∧
      (run settings ops).service.ImportsTo [a, a] [events.length, events.length] content := by
  have hholds := holds_run settings ops
  have hpair : ∀ {input input' : List UInt8} {es es' : List ImportedEvent},
      Import.readEvents input = .ok es → Import.readEvents input' = .ok es' →
        (run settings ops).service.ImportsTo [input, input'] [es.length, es'.length]
          ((Service.writesOf es').foldl Content.write
            ((Service.writesOf es).foldl Content.write (Content.replay (durable ops ++ undecided ops)))) := by
    intro input input' es es' hread hread'
    have htwo := Service.importsTo_of_read hholds hread (.cons hread' .nil)
    rwa [List.flatten_cons, List.flatten_singleton, Service.writesOf_append, List.foldl_append] at htwo
  constructor
  · refine ⟨_, hpair ha hb, ?_, fun hapart => ?_⟩
    · have hjoined := Service.importsTo_of_read hholds (Import.readEvents_append ha hb) .nil
      rwa [List.flatten_singleton, Service.writesOf_append, List.foldl_append, List.map_singleton,
        List.length_append] at hjoined
    · have hwrites : ∀ w ∈ Service.writesOf events, ∀ other ∈ Service.writesOf others,
          w.identity ≠ other.identity := by
        intro w hw other hother
        obtain ⟨e, he, rfl⟩ := List.mem_map.1 hw
        obtain ⟨e', he', rfl⟩ := List.mem_map.1 hother
        exact hapart e he e' he'
      rw [Content.foldl_write_comm _ hwrites]
      exact hpair hb ha
  · refine ⟨_, Service.importsTo_of_read hholds ha .nil, ?_⟩
    have htwice := hpair ha ha
    rw [Content.foldl_write_again] at htwice
    rwa [List.flatten_singleton]

/-- Two versions of an event, on lines of which the last one has no end. -/
def versions : List UInt8 :=
  Import.bytes "\x7b\"identity\": 7, \"name\": \"Fair\"\x7d\n\r\n\x7b\"identity\": 7\x7d"

/-- An event with two shows. -/
def twoShows : List UInt8 :=
  Import.bytes "\x7b\"identity\": 8, \"shows\": [\x7b\"start\": 1\x7d, \x7b\"start\": 2\x7d]\x7d\n"

/-- While the removal of an event is pending, its import and that of another event do not depend on their order. -/
theorem imports_compose_versions :
    ∃ content,
      (run .standard [.remove 8]).service.ImportsTo [versions, twoShows] [2, 1] content ∧
      (run .standard [.remove 8]).service.ImportsTo [versions ++ Import.lineFeed :: twoShows] [3] content ∧
      (run .standard [.remove 8]).service.ImportsTo [twoShows, versions] [1, 2] content := by
  have hversions : Import.readEvents versions =
      .ok [⟨{ Event.empty with identity := 7, name := some "Fair" },
          "\x7b\"identity\": 7, \"name\": \"Fair\"\x7d"⟩,
        ⟨{ Event.empty with identity := 7 }, "\x7b\"identity\": 7\x7d"⟩] := by
    decide +kernel
  have hshows : Import.readEvents twoShows =
      .ok [⟨{ Event.empty with
            identity := 8, shows := [{ Show.empty with start := 1 }, { Show.empty with start := 2 }] },
          "\x7b\"identity\": 8, \"shows\": [\x7b\"start\": 1\x7d, \x7b\"start\": 2\x7d]\x7d"⟩] := by
    decide +kernel
  obtain ⟨⟨content, hrow, hjoined, hswapped⟩, -⟩ := imports_compose .standard [.remove 8] hversions hshows
  exact ⟨content, hrow, hjoined, hswapped (by decide)⟩

end Session

end EventFinder
