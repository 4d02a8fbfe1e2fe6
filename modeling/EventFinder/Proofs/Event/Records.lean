import EventFinder.Record

/-!
# What records keep of an event

An event has a record for each of its shows, or one without a show (`getElem?_records`, `length_records`). What is
lost of it are the parts that say nothing: a position that is no point, an address with no part, and a place with
nothing left. `Event.pruned` is the event without them.

Pruning an event does not change its records (`records_pruned`), and the pruned event can be made from them again
(`ofRecords?_records`). So events have the same records exactly if they are the same when pruned
(`records_eq_iff`).
-/

set_option autoImplicit false

namespace EventFinder

/-! ## Parts that say nothing -/

section Defaults

variable {α : Type} [DecidableEq α] (o : Option α) (default : α)

/-- A part that is as if it were missing can be left out. -/
theorem getD_filter_ne : (o.filter fun a => a ≠ default).getD default = o.getD default := by
  cases o with
  | none => rfl
  | some a =>
      rw [Option.filter_some]
      split
      · rfl
      · rename_i h
        rw [decide_eq_true_eq, Decidable.not_not] at h
        rw [h, Option.getD_none, Option.getD_some]

theorem filter_some_getD :
    ((some (o.getD default)).filter fun a => a ≠ default) = o.filter fun a => a ≠ default := by
  cases o with
  | none => simp
  | some a => rfl

end Defaults

/-- The place without an address of which nothing is known and without a position that is no point. -/
def Location.pruned (l : Location) : Location where
  name := l.name
  postalAddress := l.postalAddress.filter fun a => a ≠ PostalAddress.empty
  geo := l.geo.filter fun g => g ≠ .unsupported

namespace Event

/-- The event without those parts of its place, and without a place of which nothing is left. -/
def pruned (e : Event) : Event :=
  { e with location := (e.location.map Location.pruned).filter fun l => l ≠ Location.empty }

variable (e : Event) (payload : String)

theorem pruned_place : e.place.pruned = (e.location.map Location.pruned).getD Location.empty := by
  rw [place]
  cases e.location <;> rfl

theorem place_pruned : e.pruned.place = e.place.pruned := by
  rw [place, pruned, getD_filter_ne, pruned_place]

theorem location_pruned : e.pruned.location = (some e.place.pruned).filter fun l => l ≠ Location.empty := by
  rw [pruned_place, filter_some_getD, pruned]

theorem address_pruned : e.pruned.address = e.address := by
  rw [address, place_pruned, Location.pruned, getD_filter_ne, address]

theorem point_pruned : e.pruned.place.geo.bind GeoPosition.point? = e.place.geo.bind GeoPosition.point? := by
  rw [place_pruned, Location.pruned]
  rcases e.place.geo with _ | _ | _ <;> rfl

/-! ## One record for each show -/

/-- What is left out of an event was in none of its records. -/
theorem recordAt_pruned (occurrence : Option Show) :
    e.pruned.recordAt payload occurrence = e.recordAt payload occurrence := by
  rw [recordAt, recordAt, address_pruned, point_pruned, place_pruned]
  rfl

theorem records_pruned : e.pruned.records payload = e.records payload := by
  have hrecords : e.pruned.recordAt payload = e.recordAt payload := funext (e.recordAt_pruned payload)
  rw [records, records, hrecords]
  rfl

theorem length_records : (e.records payload).length = max 1 e.shows.length := by
  rw [records]
  split
  · rename_i h
    rw [h]
    rfl
  · rename_i shows h
    rw [List.length_map, Nat.max_eq_right]
    exact Nat.one_le_iff_ne_zero.2 fun hzero => h (List.length_eq_zero_iff.1 hzero)

/-- The records are the event at its shows, in order, or at no show. -/
theorem getElem?_records {k : Nat} {r : Record} (h : (e.records payload)[k]? = some r) :
    r = e.recordAt payload e.shows[k]? := by
  rw [records] at h
  split at h
  · rename_i hshows
    rw [List.getElem?_singleton] at h
    split at h
    · cases h
      rw [hshows, List.getElem?_nil]
    · cases h
  · rw [List.getElem?_map] at h
    obtain ⟨s, hs, rfl⟩ := Option.map_eq_some_iff.1 h
    rw [hs]

theorem records_ne_nil : e.records payload ≠ [] := by
  intro hnil
  have hlength := length_records e payload
  rw [hnil, List.length_nil] at hlength
  omega

variable {e payload}

/-- A record of an event is the event at one of its shows, or at none. -/
theorem exists_recordAt_of_mem_records {r : Record} (h : r ∈ e.records payload) :
    ∃ occurrence, r = e.recordAt payload occurrence := by
  obtain ⟨k, hk⟩ := List.getElem?_of_mem h
  exact ⟨e.shows[k]?, getElem?_records e payload hk⟩

/-! ## Making the event from its records -/

end Event

namespace Record

/-- The address that a record tells of. -/
def address? (r : Record) : Option PostalAddress :=
  (some ⟨r.addressName, r.streetAddress, r.postalCode, r.locality, r.country⟩).filter
    fun a => a ≠ PostalAddress.empty

/-- The place that a record tells of. -/
def place? (r : Record) : Option Location :=
  (some ⟨r.locationName, r.address?, r.point.map fun p => .coordinates p.latitude p.longitude⟩).filter
    fun l => l ≠ Location.empty

end Record

namespace Event

/-- The event that some records tell of: what the first one says, and the shows of all. -/
def ofRecords? : List Record → Option Event
  | [] => none
  | r :: rest => some
      { identity := r.identity
        created := r.created
        modified := r.modified
        name := r.name
        description := r.description
        tags := r.tags
        location := r.place?
        shows := (r :: rest).filterMap Record.occurrence }

variable (e : Event) (payload : String)

theorem place?_recordAt (occurrence : Option Show) :
    (e.recordAt payload occurrence).place? = e.pruned.location := by
  have haddress : (e.recordAt payload occurrence).address? = e.place.pruned.postalAddress :=
    filter_some_getD e.place.postalAddress PostalAddress.empty
  have hpoint : ((e.recordAt payload occurrence).point.map fun p => GeoPosition.coordinates p.latitude p.longitude) =
      e.place.pruned.geo := by
    rw [recordAt, Location.pruned]
    rcases e.place.geo with _ | _ | _ <;> rfl
  rw [Record.place?, haddress, hpoint, location_pruned]
  rfl

/-- From its records an event is known but for the parts that say nothing. -/
theorem ofRecords?_records : ofRecords? (e.records payload) = some e.pruned := by
  rw [records]
  split
  · -- The one record of an event without shows tells of none.
    rename_i hshows
    rw [ofRecords?, place?_recordAt, pruned, hshows]
    rfl
  · rename_i shows hshows
    cases hlist : e.shows with
    | nil => exact absurd hlist hshows
    | cons first rest =>
        have hall : ((first :: rest).map fun s => e.recordAt payload (some s)).filterMap Record.occurrence =
            first :: rest := by
          rw [List.filterMap_map]
          exact List.filterMap_some
        rw [List.map_cons] at hall ⊢
        rw [ofRecords?, hall, place?_recordAt, pruned, hlist]
        rfl

theorem records_eq_iff (e' : Event) : e.records payload = e'.records payload ↔ e.pruned = e'.pruned := by
  constructor
  · -- The records determine the pruned event, since it can be made from them.
    intro h
    rw [← Option.some.injEq, ← ofRecords?_records e payload, h, ofRecords?_records]
  · intro h
    rw [← records_pruned, h, records_pruned]

/-! ## Faithful records -/

/-- An event has as many records as shows, but at least one. The records are at its shows in order, or at no show if
it has none, and have everything else in common: the texts that are searched for parts of words are the name, the
description and the tags. Nothing of an event is lost in its records or taken for something else, but for the parts
that say nothing. -/
theorem records_faithful :
    (e.records payload).length = max 1 e.shows.length ∧
      (∀ (k : Nat) (r : Record), (e.records payload)[k]? = some r → r.occurrence = e.shows[k]?) ∧
      (∀ r ∈ e.records payload,
        r.payload = payload ∧ r.combinedText = e.name.toList ++ e.description.toList ++ e.tags ∧
          ∀ r' ∈ e.records payload, { r with occurrence := r'.occurrence } = r') ∧
      ∀ e' : Event, e.records payload = e'.records payload ↔ e.pruned = e'.pruned := by
  refine ⟨length_records e payload, fun k r hr => ?_, fun r hr => ?_, records_eq_iff e payload⟩
  · rw [getElem?_records e payload hr]
    rfl
  · -- Each record is the event at a show or at none, and so the records differ in nothing else.
    obtain ⟨occurrence, rfl⟩ := exists_recordAt_of_mem_records hr
    refine ⟨rfl, rfl, fun r' hr' => ?_⟩
    obtain ⟨occurrence', rfl⟩ := exists_recordAt_of_mem_records hr'
    rfl

/-- An event with two shows, at a place of which nothing is left. -/
def twiceNowhere : Event where
  identity := 7
  created := 1
  modified := 2
  name := none
  description := some "by night"
  tags := ["jazz", "live"]
  location := some ⟨none, some PostalAddress.empty, some .unsupported⟩
  shows := [⟨.scheduled, 100, none⟩, ⟨.cancelled, 200, some 300⟩]

/-- Its records are those of the same event without a place, and not those of the same event with an empty name. -/
theorem records_faithful_nowhere :
    (twiceNowhere.records "verbatim").length = 2 ∧
      (∃ r, (twiceNowhere.records "verbatim")[1]? = some r ∧ r.occurrence = some ⟨.cancelled, 200, some 300⟩ ∧
        r.combinedText = ["by night", "jazz", "live"]) ∧
      twiceNowhere.records "verbatim" = { twiceNowhere with location := none }.records "verbatim" ∧
      twiceNowhere.records "verbatim" ≠ { twiceNowhere with name := some "" }.records "verbatim" := by
  obtain ⟨hlength, hshow, hcommon, hsame⟩ := records_faithful twiceNowhere "verbatim"
  have hmem : twiceNowhere.recordAt "verbatim" (some ⟨.cancelled, 200, some 300⟩) ∈
      twiceNowhere.records "verbatim" := List.mem_cons_of_mem _ List.mem_cons_self
  exact ⟨hlength, ⟨_, rfl, hshow 1 _ rfl, (hcommon _ hmem).2.1⟩, (hsame _).2 (by decide),
    fun h => absurd ((hsame _).1 h) (by decide)⟩

end Event

end EventFinder
