import EventFinder.Proofs.Agreement
import EventFinder.Proofs.Query.Grammar

/-!
# Which members decide

A reader looks at a few members of a node and at nothing else. `LeafKind.keys` names those of each kind that
contains no other nodes. Nodes that have these members alike are read alike, to the same query or to an error
(`agree_leaf`).
-/

set_option autoImplicit false

namespace EventFinder

namespace Query

/-- The members that a check looks at. -/
def Check.keys : Check → List String
  | text key | list key | texts key | number key | given key | distance key | integer key | fits _ key => [key]
  | flag bound key => [bound, key]

/-- The members that a node of the kind is read from, but for its factor. -/
def LeafKind.keys (kind : LeafKind) : List String := kind.checks.flatMap Check.keys

/-- What clauses and factors are called is no member of any other use. -/
theorem LeafKind.notMem_keys (kind : LeafKind) : "boost" ∉ kind.keys ∧ "clauses" ∉ kind.keys := by
  cases kind with
  | integerRange width => cases width <;> decide
  | realRange width => cases width <;> decide
  | _ => decide

/-- The members that both kinds of ranges are read from. -/
def rangeKeys : List String := ["field", "minimum", "includeMinimum", "maximum", "includeMaximum"]

theorem rangeKeys_subset (width : Width) :
    rangeKeys ⊆ (LeafKind.integerRange width).keys ∧ rangeKeys ⊆ (LeafKind.realRange width).keys := by
  cases width <;> decide

namespace Node

variable {node node' : Node}

/-- Nodes that have some members alike. -/
def AgreeOn (node node' : Node) (keys : List String) : Prop := ∀ key ∈ keys, node.get? key = node'.get? key

theorem AgreeOn.subset {keys keys' : List String} (h : node.AgreeOn node' keys) (hkeys : keys' ⊆ keys) :
    node.AgreeOn node' keys' :=
  fun key hkey => h key (hkeys hkey)

/-! ## Single members -/

section Views

variable {α : Type} {key : String} {view : Json → Option α} {what : Expected}

theorem agree_required (h : node.get? key = node'.get? key) :
    Agree Eq (node.required key view what) (node'.required key view what) := by
  rw [required, required, h]
  cases (node'.get? key).bind view with
  | some a => exact Agree.values rfl
  | none => exact Agree.errors _ _

theorem agree_optional (h : node.get? key = node'.get? key) :
    Agree Eq (node.optional key view what) (node'.optional key view what) := by
  rw [optional, optional, h]
  cases node'.get? key with
  | none => exact Agree.values rfl
  | some v =>
      dsimp only
      cases view v with
      | some a => exact Agree.values rfl
      | none => exact Agree.errors _ _

end Views

section Members

variable {key : String} (h : node.get? key = node'.get? key)
include h

theorem agree_text : Agree Eq (node.text key) (node'.text key) := by
  rw [text_eq, text_eq]
  exact agree_required h

theorem agree_list : Agree Eq (node.list key) (node'.list key) := by
  rw [list_eq, list_eq]
  exact agree_required h

theorem agree_number? : Agree Eq (node.number? key) (node'.number? key) := by
  rw [number?_eq, number?_eq]
  exact agree_optional h

theorem agree_number : Agree Eq (node.number key) (node'.number key) := by
  apply (agree_number? h).bind_same
  intro x
  cases x with
  | some x => exact Agree.values rfl
  | none => exact Agree.errors _ _

theorem agree_integer? : Agree Eq (node.integer? key) (node'.integer? key) := by
  rw [integer?_eq, integer?_eq]
  exact agree_optional h

theorem agree_booleanOr (default : Bool) :
    Agree Eq (node.booleanOr key default) (node'.booleanOr key default) := by
  rw [booleanOr_eq, booleanOr_eq]
  exact (agree_optional h).map_same _

omit h in
theorem agree_factor (h : node.get? "boost" = node'.get? "boost") : Agree Eq node.factor node'.factor := by
  apply (agree_number? h).bind_same
  intro x
  cases x with
  | some x => exact Agree.values rfl
  | none => exact Agree.values rfl

variable {inclusiveKey : String} (hflag : node.get? inclusiveKey = node'.get? inclusiveKey)
include hflag

theorem agree_integerBound (width : Width) :
    Agree Eq (node.integerBound width key inclusiveKey) (node'.integerBound width key inclusiveKey) := by
  apply (agree_integer? h).bind_same
  intro n
  cases n with
  | none => exact Agree.values rfl
  | some n =>
      dsimp only
      split
      · exact Agree.errors _ _
      · exact (agree_booleanOr hflag true).map_same _

theorem agree_realBound (width : Width) :
    Agree Eq (node.realBound width key inclusiveKey) (node'.realBound width key inclusiveKey) := by
  apply (agree_number? h).bind_same
  intro x
  cases x with
  | none => exact Agree.values rfl
  | some x => exact (agree_booleanOr hflag true).map_same _

end Members

/-! ## Kinds of nodes -/

theorem agree_box (h : node.AgreeOn node' LeafKind.locationBox.keys) : Agree Eq node.box node'.box := by
  apply (agree_number (h "southLatitude" (by decide))).bind_same
  intro south
  apply (agree_number (h "westLongitude" (by decide))).bind_same
  intro west
  apply (agree_number (h "northLatitude" (by decide))).bind_same
  intro north
  exact (agree_number (h "eastLongitude" (by decide))).map_same _

theorem agree_circle (h : node.AgreeOn node' LeafKind.locationCircle.keys)
    (latitudeField longitudeField : String) :
    Agree Eq (node.circle latitudeField longitudeField) (node'.circle latitudeField longitudeField) := by
  apply (agree_number (h "centroidLatitude" (by decide))).bind_same
  intro latitude
  apply (agree_number (h "centroidLongitude" (by decide))).bind_same
  intro longitude
  apply (agree_number (h "radiusKilometers" (by decide))).bind_same
  intro radius
  exact Agree.refl _

theorem agree_hasTag (node node' : Node) (item : Json) : Agree Eq (node.hasTag item) (node'.hasTag item) := by
  rw [hasTag, hasTag]
  cases item.string? with
  | some tag => exact Agree.values rfl
  | none => exact Agree.errors _ _

/-- Nodes of one kind that have the members alike that it is read from are read alike. -/
theorem agree_leaf (context : Context) (kind : LeafKind) (h : node.AgreeOn node' kind.keys) :
    Agree Eq (node.leaf context kind) (node'.leaf context kind) := by
  cases kind with
  | matchAll => exact Agree.refl _
  | term =>
      apply (agree_text (h "field" (by decide))).bind_same
      intro field
      exact (agree_text (h "value" (by decide))).map_same _
  | integerRange width =>
      replace h := h.subset (rangeKeys_subset width).1
      apply (agree_text (h "field" (by decide))).bind_same
      intro field
      apply (agree_integerBound (h "minimum" (by decide)) (h "includeMinimum" (by decide)) width).bind_same
      intro lower
      exact (agree_integerBound (h "maximum" (by decide)) (h "includeMaximum" (by decide)) width).map_same _
  | realRange width =>
      replace h := h.subset (rangeKeys_subset width).2
      apply (agree_text (h "field" (by decide))).bind_same
      intro field
      apply (agree_realBound (h "minimum" (by decide)) (h "includeMinimum" (by decide)) width).bind_same
      intro lower
      exact (agree_realBound (h "maximum" (by decide)) (h "includeMaximum" (by decide)) width).map_same _
  | box =>
      apply (agree_text (h "latitudeField" (by decide))).bind_same
      intro latitudeField
      apply (agree_text (h "longitudeField" (by decide))).bind_same
      intro longitudeField
      exact (agree_box (h.subset (by decide))).map_same _
  | circle =>
      apply (agree_text (h "latitudeField" (by decide))).bind_same
      intro latitudeField
      apply (agree_text (h "longitudeField" (by decide))).bind_same
      intro longitudeField
      exact agree_circle (h.subset (by decide)) _ _
  | freeText => exact (agree_text (h "text" (by decide))).map_same _
  | tags =>
      apply (agree_list (h "values" (by decide))).bind_same
      intro values
      have heach : Agree Eq (values.mapM node.hasTag) (values.mapM node'.hasTag) :=
        Agree.mapM_same values fun item _ => agree_hasTag node node' item
      exact heach.map_same _
  | future => exact Agree.refl _
  | past => exact Agree.refl _
  | locationBox => exact (agree_box h).map_same _
  | locationCircle => exact agree_circle h _ _

end Node

/-! ## Clauses -/

section Clauses

variable {members members' : List (String × Json)}

/-- The part that the word of a clause names, if there is such a word. -/
def part? (members : List (String × Json)) : Option Occur :=
  ((Json.lookup "occur" members).bind Json.string?).bind occur?

theorem Node.clauseOccur_cases (node : Node) (members : List (String × Json)) :
    (∃ occur, node.clauseOccur members = .ok occur ∧ part? members = some occur) ∨
      ∃ e, node.clauseOccur members = .error e ∧ part? members = none := by
  rw [clauseOccur, part?]
  cases (Json.lookup "occur" members).bind Json.string? with
  | none => exact Or.inr ⟨_, rfl, rfl⟩
  | some word =>
      rw [Option.bind_some]
      dsimp only
      cases occur? word with
      | some occur => exact Or.inl ⟨occur, rfl, rfl⟩
      | none => exact Or.inr ⟨_, rfl, rfl⟩

/-- Clauses whose words name one part, or no part, take this part or are both refused. -/
theorem agree_clauseOccur (node node' : Node) (h : part? members = part? members') :
    Agree Eq (node.clauseOccur members) (node'.clauseOccur members') := by
  rcases node.clauseOccur_cases members with ⟨occur, heq, hpart⟩ | ⟨e, heq, hpart⟩
  · rcases node'.clauseOccur_cases members' with ⟨occur', heq', hpart'⟩ | ⟨e', -, hpart'⟩
    · rw [heq, heq']
      rw [hpart, hpart'] at h
      exact Agree.values (Option.some.inj h)
    · rw [hpart, hpart'] at h
      cases h
  · rcases node'.clauseOccur_cases members' with ⟨occur', -, hpart'⟩ | ⟨e', heq', hpart'⟩
    · rw [hpart, hpart'] at h
      cases h
    · rw [heq, heq']
      exact Agree.errors e e'

/-- Clauses that take one part are read alike if their queries are. -/
theorem agree_clauseOfJson {context context' : Context} {r : Query → Query → Prop} (node node' : Node)
    {value value' : Json} (hpart : part? members = part? members')
    (hquery : Json.lookup "query" members = some value) (hquery' : Json.lookup "query" members' = some value')
    (h : Agree r (ofJson context value) (ofJson context' value')) :
    Agree (fun clause clause' => clause.1 = clause'.1 ∧ r clause.2 clause'.2)
      (clauseOfJson context node (.object members)) (clauseOfJson context' node' (.object members')) := by
  apply (agree_clauseOccur node node' hpart).bind_same
  intro occur
  rw [hquery, hquery']
  apply h.map
  exact fun _ _ hr => ⟨rfl, hr⟩

end Clauses

end Query

end EventFinder
