import EventFinder.Event.Format
import EventFinder.Proofs.Json.FiniteNumbers
import EventFinder.Proofs.Json.Numbers
import EventFinder.Proofs.Json.Records

/-!
# Events are read back as they are written

The tree of what is written for an event is read as the event (`Event.read_toJson`), its text is read to that tree
(`Event.legible_toJson`), and so the event is read from its text (`Event.ofText_toJson`), as far as its numbers are.
That covers whatever event a text is: all numbers of such an event are finite (`Event.isFinite_of_ofText`).
-/

set_option autoImplicit false

namespace EventFinder

open Json (Source readMembers_part record_tree optional_tree list_tree)

/-! ## Parts of an event -/

theorem optional_text_tree (s : Option String) : Source.optional Source.text (optionalTextToJson s).tree = .ok s := by
  cases s with
  | none => rfl
  | some s => rfl

namespace Show

theorem read_toJson (s : Show) : read s.toJson.tree = .ok s := by
  obtain ⟨status, start, finish⟩ := s
  have hstatus : Source.oneOf ShowStatus.ofName? (Json.string status.name).tree = .ok status := by
    cases status <;> rfl
  have hstart : Source.signed64 (Json.number (.integer start.toInt)).tree = .ok start := Json.signed64_toInt start
  refine record_tree
    (readMembers_part status rfl rfl hstatus <| readMembers_part start rfl rfl hstart <|
      readMembers_part finish rfl rfl (optional_tree ?_ ?_) rfl) rfl
  · rintro rfl
    rfl
  · rintro t rfl
    exact ⟨Json.Source.noConfusion, Json.signed64_toInt t⟩

end Show

namespace PostalAddress

theorem read_toJson (a : PostalAddress) : read a.toJson.tree = .ok a := by
  exact record_tree
    (readMembers_part a.name rfl rfl (optional_text_tree _) <|
      readMembers_part a.streetAddress rfl rfl (optional_text_tree _) <|
      readMembers_part a.postalCode rfl rfl (optional_text_tree _) <|
      readMembers_part a.locality rfl rfl (optional_text_tree _) <|
      readMembers_part a.country rfl rfl (optional_text_tree _) rfl) rfl

end PostalAddress

namespace GeoPosition

theorem read_toJson (g : GeoPosition) : read g.toJson.tree = .ok g := by
  cases g with
  | coordinates latitude longitude => rfl
  | unsupported =>
      -- The kind that is written is none that is indexed, and so it is read as any other one.
      rfl

end GeoPosition

namespace Location

theorem read_toJson (l : Location) : read l.toJson.tree = .ok l := by
  obtain ⟨name, postalAddress, geo⟩ := l
  refine record_tree
    (readMembers_part name rfl rfl (optional_text_tree _) <|
      readMembers_part postalAddress rfl rfl (optional_tree ?_ ?_) <|
      readMembers_part geo rfl rfl (optional_tree ?_ ?_) rfl) rfl
  · rintro rfl
    rfl
  · rintro a rfl
    exact ⟨Json.Source.noConfusion, PostalAddress.read_toJson a⟩
  · rintro rfl
    rfl
  · rintro g rfl
    refine ⟨?_, GeoPosition.read_toJson g⟩
    cases g <;> exact Json.Source.noConfusion

end Location

namespace Event

/-- The tree of what is written for an event is read as the event. -/
theorem read_toJson (e : Event) : read e.toJson.tree = .ok e := by
  obtain ⟨identity, created, modified, name, description, tags, location, shows⟩ := e
  have hidentity : Source.unsigned64 (Json.number (.integer identity.toNat)).tree = .ok identity :=
    Json.unsigned64_toNat identity
  have htime : ∀ time : Int64, Source.signed64 (Json.number (.integer time.toInt)).tree = .ok time :=
    Json.signed64_toInt
  refine record_tree
    (readMembers_part identity rfl rfl hidentity <| readMembers_part created rfl rfl (htime created) <|
      readMembers_part modified rfl rfl (htime modified) <|
      readMembers_part name rfl rfl (optional_text_tree _) <|
      readMembers_part description rfl rfl (optional_text_tree _) <|
      readMembers_part tags rfl rfl (list_tree (fun _ => rfl) tags) <|
      readMembers_part location rfl rfl (optional_tree ?_ ?_) <|
      readMembers_part shows rfl rfl (list_tree Show.read_toJson shows) rfl) rfl
  · rintro rfl
    rfl
  · rintro l rfl
    exact ⟨Json.Source.noConfusion, Location.read_toJson l⟩

end Event

/-! ## The numbers of an event -/

/-- The numbers of a position. -/
def GeoPosition.numbers : GeoPosition → List Binary64
  | coordinates latitude longitude => [latitude, longitude]
  | unsupported => []

/-- The numbers of a place, if a position is known. -/
def Location.numbers (l : Location) : List Binary64 := (l.geo.map GeoPosition.numbers).getD []

/-- The numbers of an event, those of its place. -/
def Event.numbers (e : Event) : List Binary64 := (e.location.map Location.numbers).getD []

namespace GeoPosition

/-- The value is no number that is not finite. -/
def IsFiniteValue (value : Json) : Prop := ∀ x, value.real? = some x → x.isFinite = true

theorem isFinite_coordinate? {name : String} {values : List (String × Json)}
    (h : ∀ member ∈ values, IsFiniteValue member.2) {x : Binary64} (hx : coordinate? name values = some x) :
    x.isFinite = true := by
  rw [coordinate?] at hx
  split at hx
  · rename_i member value hfilter
    have hmem : (member, value) ∈ values.filter fun m => m.1 = name := hfilter ▸ List.mem_cons_self
    exact h _ (List.mem_filter.1 hmem).1 x hx
  · cases hx

theorem isFiniteValue_of_readMembers {members : List (Source × Source)} {kind kind' : Option String}
    {content values : List (String × Json)} (hmembers : ∀ member ∈ members, Source.HasFiniteNumbers member.2)
    (hcontent : ∀ member ∈ content, IsFiniteValue member.2)
    (h : readMembers members kind content = .ok (kind', values)) : ∀ member ∈ values, IsFiniteValue member.2 := by
  -- `content` has the members that were read before, the latest first.
  induction members generalizing kind content with
  | nil =>
      cases h
      exact fun member hmember => hcontent member (List.mem_reverse.1 hmember)
  | cons member rest ih =>
      obtain ⟨key, value⟩ := member
      rw [List.forall_mem_cons] at hmembers
      rw [readMembers] at h
      obtain ⟨name, -, h⟩ := bind_eq_ok_iff.1 h
      split at h
      · split at h
        · cases h
        · obtain ⟨k, -, h⟩ := bind_eq_ok_iff.1 h
          exact ih hmembers.2 hcontent h
      · obtain ⟨v, hv, h⟩ := bind_eq_ok_iff.1 h
        have hvalue : IsFiniteValue v := fun x hx => hmembers.1.isFinite_of_whole hv hx
        exact ih hmembers.2 (List.forall_mem_cons.2 ⟨hvalue, hcontent⟩) h

/-- What a position is made of is finite. -/
def Content.IsFinite : Content → Prop
  | .members values => ∀ member ∈ values, IsFiniteValue member.2
  | .items values => ∀ value ∈ values, IsFiniteValue value

theorem isFinite_of_ofContent {kind : String} {content : Content} (hcontent : content.IsFinite) {g : GeoPosition}
    (h : ofContent kind content = .ok g) : ∀ x ∈ g.numbers, x.isFinite = true := by
  have hpair : ∀ {latitude longitude : Binary64}, latitude.isFinite = true → longitude.isFinite = true →
      ∀ x ∈ (coordinates latitude longitude).numbers, x.isFinite = true := by
    intro latitude longitude hlatitude hlongitude
    simp only [numbers, List.forall_mem_cons, hlatitude, hlongitude, true_and]
    exact List.forall_mem_nil _
  rw [ofContent.eq_def] at h
  split at h
  · dsimp only at h
    split at h
    · rename_i position hfound
      cases h
      split at hfound
      · split at hfound
        · rename_i hlatitude hlongitude
          cases hfound
          exact hpair (isFinite_coordinate? hcontent hlatitude) (isFinite_coordinate? hcontent hlongitude)
        · cases hfound
      · rename_i latitude longitude
        have hitems := List.forall_mem_cons.1 hcontent
        split at hfound
        · rename_i hlatitude hlongitude
          cases hfound
          exact hpair (hitems.1 _ hlatitude) (hitems.2 _ List.mem_cons_self _ hlongitude)
        · cases hfound
      · cases hfound
    · cases h
  · -- Of any other kind nothing is kept.
    split at h
    · cases h
    · cases h
      exact List.forall_mem_nil _

/-- The position that is read from a tree of finite numbers is one of finite numbers. -/
theorem isFinite_of_read {source : Source} (hsource : source.HasFiniteNumbers) {g : GeoPosition}
    (h : read source = .ok g) : ∀ x ∈ g.numbers, x.isFinite = true := by
  rw [read.eq_def] at h
  cases hsource with
  | object each =>
      dsimp only at h
      split at h
      · cases h
      · obtain ⟨⟨kind, values⟩, hvalues, h⟩ := bind_eq_ok_iff.1 h
        obtain ⟨-, -, h⟩ := bind_eq_ok_iff.1 h
        have hcontent := isFiniteValue_of_readMembers each (List.forall_mem_nil _) hvalues
        cases kind with
        | none => cases h
        | some kind => exact @isFinite_of_ofContent kind (.members values) hcontent g h
  | array each =>
      dsimp only at h
      split at h
      · cases h
      · split at h
        · obtain ⟨-, -, h⟩ := bind_eq_ok_iff.1 h
          cases h
        · rw [List.forall_mem_cons] at each
          obtain ⟨kind, -, h⟩ := bind_eq_ok_iff.1 h
          obtain ⟨values, hvalues, h⟩ := bind_eq_ok_iff.1 h
          obtain ⟨-, -, h⟩ := bind_eq_ok_iff.1 h
          have hcontent : ∀ value ∈ values, IsFiniteValue value := by
            intro value hvalue x hx
            obtain ⟨item, hitem, hwhole⟩ := Source.exists_of_mem_wholeItems hvalues hvalue
            exact (each.2 item hitem).isFinite_of_whole hwhole hx
          exact @isFinite_of_ofContent kind (.items values) hcontent g h
  | _ => cases h

end GeoPosition

/-- The place that is read from a tree of finite numbers is one of finite numbers. -/
theorem Location.isFinite_of_read {source : Source} (hsource : source.HasFiniteNumbers) {l : Location}
    (h : read source = .ok l) : ∀ x ∈ l.numbers, x.isFinite = true := by
  refine Source.record_preserves (P := fun l => ∀ x ∈ l.numbers, x.isFinite = true) ?_ (List.forall_mem_nil _)
    hsource h
  simp only [shape, List.forall_mem_cons]
  refine ⟨Source.keeps_of_set fun _ _ _ h _ _ => h, Source.keeps_of_set fun _ _ _ h _ _ => h,
    Source.keeps_of_set ?_, List.forall_mem_nil _⟩
  -- Only the position has numbers.
  intro l value geo _ hvalue hgeo
  cases geo with
  | none => exact List.forall_mem_nil _
  | some g => exact GeoPosition.isFinite_of_read hvalue (Source.of_optional hgeo)

/-- The event that is read from a tree of finite numbers is one of finite numbers. -/
theorem Event.isFinite_of_read {source : Source} (hsource : source.HasFiniteNumbers) {e : Event}
    (h : read source = .ok e) : ∀ x ∈ e.numbers, x.isFinite = true := by
  refine Source.record_preserves (P := fun e => ∀ x ∈ e.numbers, x.isFinite = true) ?_ (List.forall_mem_nil _)
    hsource h
  simp only [shape, List.forall_mem_cons]
  refine ⟨Source.keeps_of_set fun _ _ _ h _ _ => h, Source.keeps_of_set fun _ _ _ h _ _ => h,
    Source.keeps_of_set fun _ _ _ h _ _ => h, Source.keeps_of_set fun _ _ _ h _ _ => h,
    Source.keeps_of_set fun _ _ _ h _ _ => h, Source.keeps_of_set fun _ _ _ h _ _ => h,
    Source.keeps_of_set ?_, Source.keeps_of_set fun _ _ _ h _ _ => h, List.forall_mem_nil _⟩
  -- Only the place has numbers.
  intro e value location _ hvalue hlocation
  cases location with
  | none => exact List.forall_mem_nil _
  | some l => exact Location.isFinite_of_read hvalue (Source.of_optional hlocation)

/-! ## The text of an event -/

theorem legible_optional_text (room : Nat) (s : Option String) : Json.Legible room (optionalTextToJson s) := by
  cases s with
  | none => exact .null room
  | some s => exact .string room s

theorem Show.legible_toJson (s : Show) : Json.Legible 1 s.toJson := by
  apply Json.Legible.object
  simp only [List.forall_mem_cons]
  refine ⟨.string 0 _, Json.legible_signed64 0 _, ?_, List.forall_mem_nil _⟩
  cases s.finish with
  | none => exact .null 0
  | some t => exact Json.legible_signed64 0 t

theorem PostalAddress.legible_toJson (a : PostalAddress) : Json.Legible 1 a.toJson := by
  apply Json.Legible.object
  simp only [List.forall_mem_cons]
  exact ⟨legible_optional_text 0 _, legible_optional_text 0 _, legible_optional_text 0 _, legible_optional_text 0 _,
    legible_optional_text 0 _, List.forall_mem_nil _⟩

theorem GeoPosition.legible_toJson {g : GeoPosition} (h : ∀ x ∈ g.numbers, Json.ReadsBack (.real x)) :
    Json.Legible 1 g.toJson := by
  cases g with
  | coordinates latitude longitude =>
      simp only [numbers, List.forall_mem_cons] at h
      apply Json.Legible.object
      simp only [List.forall_mem_cons]
      exact ⟨.string 0 _, .number 0 h.1, .number 0 h.2.1, List.forall_mem_nil _⟩
  | unsupported =>
      apply Json.Legible.object
      simp only [List.forall_mem_cons]
      exact ⟨.string 0 _, List.forall_mem_nil _⟩

theorem Location.legible_toJson {l : Location} (h : ∀ x ∈ l.numbers, Json.ReadsBack (.real x)) :
    Json.Legible 2 l.toJson := by
  obtain ⟨name, postalAddress, geo⟩ := l
  apply Json.Legible.object
  simp only [List.forall_mem_cons]
  refine ⟨legible_optional_text 1 _, ?_, ?_, List.forall_mem_nil _⟩
  · cases postalAddress with
    | none => exact .null 1
    | some a => exact a.legible_toJson
  · cases geo with
    | none => exact .null 1
    | some g => exact GeoPosition.legible_toJson h

namespace Event

variable {e : Event}

theorem legible_toJson (h : ∀ x ∈ e.numbers, Json.ReadsBack (.real x)) : Json.Legible 3 e.toJson := by
  obtain ⟨identity, created, modified, name, description, tags, location, shows⟩ := e
  apply Json.Legible.object
  simp only [List.forall_mem_cons]
  refine ⟨Json.legible_unsigned64 2 identity, Json.legible_signed64 2 _, Json.legible_signed64 2 _,
    legible_optional_text 2 _, legible_optional_text 2 _, .array ?_, ?_, .array ?_, List.forall_mem_nil _⟩
  · simp only [List.forall_mem_map]
    exact fun tag _ => .string 1 tag
  · cases location with
    | none => exact .null 2
    | some l => exact Location.legible_toJson h
  · simp only [List.forall_mem_map]
    exact fun s _ => s.legible_toJson

/-- An event whose numbers are read back is read from the text that is written for it. -/
theorem ofText_toJson_of_readsBack (h : ∀ x ∈ e.numbers, Json.ReadsBack (.real x)) :
    ofText e.toJson.text.toList = .ok e := by
  rw [ofText, Source.readText, Json.text, String.toList_ofList, Json.source_chars (legible_toJson h) (by decide)]
  dsimp only
  rw [read_toJson]
  rfl

/-- The numbers of an event that a text is are finite. -/
theorem isFinite_of_ofText {text : List Char} (h : ofText text = .ok e) : ∀ x ∈ e.numbers, x.isFinite = true := by
  rw [ofText, Source.readText] at h
  have hsource := Source.hasFiniteNumbers_ofText text
  generalize Source.ofText text = outcome at h hsource
  obtain ⟨e', hread, h⟩ := bind_eq_ok_iff.1 h
  split at h
  · cases h
  · cases h
    exact isFinite_of_read hsource hread

/-- If the finite numbers of an event are read from their own texts, then the event is read from its text: one whose
numbers are finite, and so whatever event a text is. -/
theorem ofText_toJson (restored : ∀ x ∈ e.numbers, x.isFinite = true → Json.Restored x) :
    ((∀ x ∈ e.numbers, x.isFinite = true) → ofText e.toJson.text.toList = .ok e) ∧
      ∀ text, ofText text = .ok e → ofText e.toJson.text.toList = .ok e := by
  have hfinite : (∀ x ∈ e.numbers, x.isFinite = true) → ofText e.toJson.text.toList = .ok e := fun h =>
    ofText_toJson_of_readsBack fun x hx => Json.readsBack_of_restored (h x hx) (restored x hx (h x hx))
  exact ⟨hfinite, fun text htext => hfinite (isFinite_of_ofText htext)⟩

/-- An event with the last identity, the first and the last time, and texts that are escaped where they are written. -/
def faraway : Event where
  identity := 18446744073709551615
  created := -9223372036854775808
  modified := 9223372036854775807
  name := some "Bay \"of\" quiet\n\u0001 ☀ 😀"
  description := none
  tags := ["", "a\\b"]
  location := some
    ⟨none, some PostalAddress.empty,
      some (.coordinates (Binary.ofRatio false 5605 100) (Binary.ofRatio true 1269 100))⟩
  shows := [⟨.cancelled, -1, none⟩, ⟨.rescheduled, 5, some 4⟩]

/-- Another text of the event: arrays in the place of objects, other escapes, and a member that is not known. -/
def farawayText : List Char :=
  "[18446744073709551615, -9223372036854775808, 9223372036854775807, ".toList ++
    "\"Bay \\u0022of\\u0022 quiet\\n\\u0001 ☀ \\ud83d\\ude00\", null, [\"\", \"a\\\\b\"], ".toList ++
    "\x7b\"postalAddress\": \x7b\"county\": [1]\x7d, ".toList ++
    "\"geo\": [\"coordinates\", 5605e-2, -12.690]\x7d, ".toList ++
    "[\x7b\"start\": -1, \"status\": \x7b\"cancelled\": null\x7d\x7d, ".toList ++ "[\"rescheduled\", 5, 4]]]".toList

theorem ofText_toJson_faraway :
    (∀ x ∈ faraway.numbers, x.isFinite = true ∧ Json.Restored x) ∧ ofText faraway.toJson.text.toList = .ok faraway ∧
      ∃ text, ofText text = .ok faraway ∧ ofText faraway.toJson.text.toList = .ok faraway := by
  have hnumbers : ∀ x ∈ faraway.numbers, x.isFinite = true ∧ Json.Restored x := by decide +kernel
  have htext : ofText farawayText = .ok faraway := by decide +kernel
  obtain ⟨hfinite, hagain⟩ := @ofText_toJson faraway fun x hx _ => (hnumbers x hx).2
  exact ⟨hnumbers, hfinite fun x hx => (hnumbers x hx).1, farawayText, htext, hagain farawayText htext⟩

end Event

end EventFinder
