import EventFinder.Proofs.Query.Exchange
import EventFinder.Proofs.Query.Members

/-!
# Members of the wrong type

Each kind of node has members of its own, and each of them has a type (`Kind.memberTypes`). If a member of some node in
a query has another type, the whole query is refused, at whatever depth the node is, with one exception: a flag that
says whether the end of a range is included is not looked at if the range has no such end (`Node.IsIdle`). Whatever
such a flag is, it changes nothing (`mistyped_refused_unless_idle`).
-/

set_option autoImplicit false

namespace EventFinder

namespace Query

/-! ## The types of members -/

/-- The types of the members of nodes. -/
inductive MemberType where
  | text
  | number
  /-- A whole number of 64 bits. -/
  | integer
  | boolean
  /-- A list of texts. -/
  | texts
  /-- A list of objects whose `occur` is a text and whose `query` is an object. -/
  | clauses
deriving DecidableEq, Repr

/-- Is the value of the type? -/
def MemberType.Admits : MemberType → Json → Prop
  | text, v => ∃ s, v = .string s
  | number, v => ∃ n, v = .number n
  | integer, v => ∃ n : Int64, v = .number (.integer n.toInt)
  | boolean, v => ∃ b, v = .bool b
  | texts, v => ∃ items, v = .array items ∧ ∀ item ∈ items, ∃ s, item = .string s
  | clauses, v => ∃ items, v = .array items ∧ ∀ item ∈ items, ∃ members, item = .object members ∧
      (∀ occur, Json.lookup "occur" members = some occur → ∃ s, occur = .string s) ∧
      ∀ query, Json.lookup "query" members = some query → ∃ inner, query = .object inner

/-- The members of a range whose ends are of the type. -/
def rangeTypes (type : MemberType) : List (String × MemberType) :=
  [("field", .text), ("minimum", type), ("maximum", type), ("includeMinimum", .boolean), ("includeMaximum", .boolean)]

/-- The members that name the fields of a point. -/
def pointTypes : List (String × MemberType) := [("latitudeField", .text), ("longitudeField", .text)]

/-- The members of a box. -/
def boxTypes : List (String × MemberType) :=
  [("southLatitude", .number), ("westLongitude", .number), ("northLatitude", .number), ("eastLongitude", .number)]

/-- The members of a circle. -/
def circleTypes : List (String × MemberType) :=
  [("centroidLatitude", .number), ("centroidLongitude", .number), ("radiusKilometers", .number)]

/-- The members of the kinds of nodes that contain no others. -/
def LeafKind.memberTypes : LeafKind → List (String × MemberType)
  | .matchAll | .future | .past => []
  | .term => [("field", .text), ("value", .text)]
  | .integerRange _ => rangeTypes .integer
  | .realRange _ => rangeTypes .number
  | .box => pointTypes ++ boxTypes
  | .circle => pointTypes ++ circleTypes
  | .freeText => [("text", .text)]
  | .tags => [("values", .texts)]
  | .locationBox => boxTypes
  | .locationCircle => circleTypes

/-- The members of the kinds of nodes. -/
def Kind.memberTypes : Kind → List (String × MemberType)
  | .boolean => [("clauses", .clauses), ("boost", .number)]
  | .leaf kind => kind.memberTypes ++ [("boost", .number)]

/-- The flags of ranges, and the ends that they are about. -/
def flagEnds : List (String × String) := [("includeMinimum", "minimum"), ("includeMaximum", "maximum")]

/-- The member is the flag of an end that is not there. -/
def Node.IsIdle (node : Node) (key : String) : Prop :=
  ∃ bound, flagEnds.lookup key = some bound ∧ node.get? bound = none

/-! ## Types and checks -/

/-- The checks that ask for the type of a member. -/
def MemberType.checks (key : String) : MemberType → List Check
  | text => [.text key]
  | number => [.number key]
  | integer => [.integer key]
  | boolean => (flagEnds.lookup key).toList.map fun bound => .flag bound key
  | texts => [.list key, .texts key]
  | clauses => [.list key]

/-- Each kind of node asks for the types of its members, and truth values are flags. -/
theorem LeafKind.checks_of_memberTypes (kind : LeafKind) :
    ∀ member ∈ kind.memberTypes, member.2.checks member.1 ⊆ kind.checks ∧ member.2 ≠ .clauses ∧
      (member.2 = .boolean → flagEnds.lookup member.1 ≠ none) := by
  cases kind with
  | integerRange width => cases width <;> decide
  | realRange width => cases width <;> decide
  | _ => decide

/-- No other members are looked at. -/
theorem LeafKind.keys_subset_memberTypes (kind : LeafKind) : kind.keys ⊆ kind.memberTypes.map Prod.fst := by
  cases kind with
  | integerRange width => cases width <;> decide
  | realRange width => cases width <;> decide
  | _ => decide

/-- Only ranges have flags. -/
theorem LeafKind.isRange_or_noFlag (kind : LeafKind) :
    (∃ width, kind = .integerRange width ∨ kind = .realRange width) ∨
      ∀ member ∈ kind.memberTypes, flagEnds.lookup member.1 = none := by
  cases kind with
  | integerRange width => exact Or.inl ⟨width, Or.inl rfl⟩
  | realRange width => exact Or.inl ⟨width, Or.inr rfl⟩
  | _ => exact Or.inr (by decide)

section Members

variable {node : Node} {key : String} {type : MemberType} {v : Json}

/-- A member that meets the checks of its type is of that type, if it is no flag that is not looked at. -/
theorem MemberType.admits_of_met (met : ∀ check ∈ type.checks key, check.Met node) (there : node.get? key = some v)
    (noClauses : type ≠ .clauses) (flag : type = .boolean → flagEnds.lookup key ≠ none)
    (notIdle : ¬ node.IsIdle key) : type.Admits v := by
  cases type with
  | text =>
      obtain ⟨s, hs⟩ := met _ List.mem_cons_self
      rw [there] at hs
      exact ⟨s, Option.some.inj hs⟩
  | number => exact met _ List.mem_cons_self v there
  | integer => exact met _ List.mem_cons_self v there
  | boolean =>
      obtain ⟨bound, hend⟩ := Option.ne_none_iff_exists'.1 (flag rfl)
      have hcheck : Check.flag bound key ∈ MemberType.boolean.checks key := by
        rw [MemberType.checks, hend]
        exact List.mem_cons_self
      exact met _ hcheck (fun hbound => notIdle ⟨bound, hend, hbound⟩) v there
  | texts =>
      obtain ⟨items, hitems⟩ := met _ List.mem_cons_self
      have htexts := met _ (List.mem_cons_of_mem _ List.mem_cons_self) items hitems
      rw [there] at hitems
      exact ⟨items, Option.some.inj hitems, htexts⟩
  | clauses => exact absurd rfl noClauses

/-- What is well formed is an object. -/
theorem WellFormed.exists_object {value : Json} (h : WellFormed value) : ∃ members, value = .object members := by
  cases h with
  | leaf isOf => exact ⟨_, isOf.isObject⟩
  | boolean isOf => exact ⟨_, isOf.isObject⟩

theorem WellFormedClause.exists_members {item : Json} (h : WellFormedClause item) :
    ∃ members, item = .object members ∧
      (∀ occur, Json.lookup "occur" members = some occur → ∃ s, occur = .string s) ∧
      ∀ query, Json.lookup "query" members = some query → ∃ inner, query = .object inner := by
  cases h with
  | clause occur _ query wellFormed =>
      refine ⟨_, rfl, fun occur' hoccur => ?_, fun query' hquery => ?_⟩
      · rw [occur] at hoccur
        exact ⟨_, (Option.some.inj hoccur).symm⟩
      · rw [query] at hquery
        cases hquery
        exact wellFormed.exists_object

/-- The members of a query are of their types, but for flags that are not looked at. -/
theorem WellFormed.admits {value : Json} (h : WellFormed value) {kind : Kind} (isOf : node.IsOf value kind)
    (member : (key, type) ∈ kind.memberTypes) (there : node.get? key = some v) (notIdle : ¬ node.IsIdle key) :
    type.Admits v := by
  have hrules := (wellFormed_iff isOf).1 h
  cases kind with
  | leaf kind =>
      rcases List.mem_append.1 member with hmem | hmem
      · obtain ⟨hchecks, noClauses, flag⟩ := kind.checks_of_memberTypes _ hmem
        refine MemberType.admits_of_met (fun check hcheck => ?_) there noClauses flag notIdle
        exact hrules check (List.mem_append_left _ (hchecks hcheck))
      · cases List.mem_singleton.1 hmem
        exact hrules (.number "boost") (List.mem_append_right _ List.mem_cons_self) v there
  | boolean =>
      obtain ⟨items, clauses, each, boost⟩ := hrules
      rcases List.mem_cons.1 member with hmem | hmem
      · cases hmem
        rw [there] at clauses
        exact ⟨items, Option.some.inj clauses, fun item hitem => (each item hitem).exists_members⟩
      · cases List.mem_singleton.1 hmem
        exact boost (.number "boost") List.mem_cons_self v there

end Members

/-! ## Flags that are not looked at -/

section Idle

variable {node node' : Node} {key : String} (same : ∀ other, other ≠ key → node'.get? other = node.get? other)
  (idle : node.IsIdle key)
include same idle

/-- The flag of an end that is there is another one. -/
theorem Node.get?_flag_eq {flag bound : String} (hend : flagEnds.lookup flag = some bound)
    (hbound : node.get? bound ≠ none) : node'.get? flag = node.get? flag := by
  apply same
  rintro rfl
  obtain ⟨bound', hend', hnone⟩ := idle
  rw [hend] at hend'
  cases hend'
  exact hbound hnone

/-- What is no flag is another member. -/
theorem Node.get?_eq_of_noFlag {name : String} (h : flagEnds.lookup name = none) :
    node'.get? name = node.get? name := by
  apply same
  rintro rfl
  obtain ⟨bound, hend, -⟩ := idle
  rw [h] at hend
  cases hend

variable (type : node'.type = node.type)
include type

theorem Node.integerRange_of_isIdle (width : Width) : node'.integerRange width = node.integerRange width := by
  rw [integerRange, integerRange, text_congr type (get?_eq_of_noFlag same idle rfl),
    integerBound_congr type (get?_eq_of_noFlag same idle rfl) (get?_flag_eq same idle rfl),
    integerBound_congr type (get?_eq_of_noFlag same idle rfl) (get?_flag_eq same idle rfl)]

theorem Node.realRange_of_isIdle (width : Width) : node'.realRange width = node.realRange width := by
  rw [realRange, realRange, text_congr type (get?_eq_of_noFlag same idle rfl),
    realBound_congr type (get?_eq_of_noFlag same idle rfl) (get?_flag_eq same idle rfl),
    realBound_congr type (get?_eq_of_noFlag same idle rfl) (get?_flag_eq same idle rfl)]

/-- Nodes that differ only in such a flag are read alike. -/
theorem ofJson_of_isIdle {context : Context} {part part' : Json} {kind : Kind} {memberType : MemberType}
    (isOf : node.IsOf part kind) (isOf' : node'.IsOf part' kind) (member : (key, memberType) ∈ kind.memberTypes) :
    ofJson context part' = ofJson context part := by
  obtain ⟨bound, hend, -⟩ := id idle
  have hboost : node'.get? "boost" = node.get? "boost" := Node.get?_eq_of_noFlag same idle rfl
  have hleaf : ∃ leaf, kind = .leaf leaf ∧ node'.leaf context leaf = node.leaf context leaf := by
    cases kind with
    | boolean =>
        -- Neither of its members is a flag.
        rcases List.mem_cons.1 member with hmem | hmem
        · cases hmem
          cases hend
        · cases List.mem_singleton.1 hmem
          cases hend
    | leaf leaf =>
        refine ⟨leaf, rfl, ?_⟩
        rcases leaf.isRange_or_noFlag with ⟨width, rfl | rfl⟩ | hnone
        · exact Node.integerRange_of_isIdle same idle type width
        · exact Node.realRange_of_isIdle same idle type width
        · rcases List.mem_append.1 member with hmem | hmem
          · rw [hnone _ hmem] at hend
            cases hend
          · cases List.mem_singleton.1 hmem
            cases hend
  obtain ⟨leaf, rfl, hleaf⟩ := hleaf
  rw [isOf.ofJson_leaf context, isOf'.ofJson_leaf context, hleaf, funext (Node.weighted_congr type hboost)]

end Idle

/-! ## The rule and its exception -/

/-- If a member that is defined for the kind of a node is there and is not of its type, the query that contains the
node, at whatever depth, is refused whenever and with whatever weights it is read, unless the member is the flag of an
end that is not there. Such a flag changes nothing: whatever takes its place, or if nothing does, the query has the same
outcome. -/
theorem mistyped_refused_unless_idle {part value : Json} (partOf : PartOf part value) {node : Node} {kind : Kind}
    (isOf : node.IsOf part kind) {key : String} {type : MemberType} (member : (key, type) ∈ kind.memberTypes)
    {v : Json} (there : node.get? key = some v) (mistyped : ¬ type.Admits v) :
    (¬ node.IsIdle key → ∀ context, ∃ e, ofJson context value = .error e) ∧
      (node.IsIdle key → ∀ (part' : Json) (node' : Node), node'.IsOf part' kind → node'.type = node.type →
        (∀ other, other ≠ key → node'.get? other = node.get? other) →
          (∃ value', Exchanged part part' value value') ∧
            ∀ value', Exchanged part part' value value' →
              ∀ context, ofJson context value' = ofJson context value) := by
  constructor
  · intro notIdle context
    apply partOf.exists_error
    intro hpart
    exact mistyped (hpart.admits isOf member there notIdle)
  · intro idle part' node' isOf' type' same
    refine ⟨partOf.exists_exchanged part', fun value' hexchanged context => ?_⟩
    exact hexchanged.ofJson_eq (ofJson_of_isIdle same idle type' isOf isOf' member)

/-- A range without ends. -/
def endlessNode : Node := ⟨"Long Range", [("type", .string "Long Range"), ("field", .string "created")]⟩

theorem endlessNode_isOf : endlessNode.IsOf (.object endlessNode.members) (.leaf (.integerRange .wide)) :=
  ⟨rfl, rfl, by decide +kernel⟩

theorem endlessNode_wellFormed : WellFormed (.object endlessNode.members) := by
  refine WellFormed.leaf endlessNode_isOf ?_
  simp [LeafKind.checks, Node.integerBoundChecks, Check.Met, Node.get?, Json.lookup, endlessNode, Json.isNull]

/-- The same range with a flag that is no truth value. -/
def idleFlagNode : Node := endlessNode.including "includeMinimum" (.string "yes")

/-- The same range with the end that the flag is about, too. -/
def flaggedNode : Node := idleFlagNode.including "minimum" (.number (.integer 1))

/-- A boolean query with a value for the query of its one clause. -/
def wrappedNode (value : Json) : Node :=
  ⟨"boolean query",
    [("type", .string "boolean query"),
      ("clauses", .array [.object [("occur", .string "must"), ("query", value)]])]⟩

theorem wrappedNode_isOf (value : Json) : (wrappedNode value).IsOf (.object (wrappedNode value).members) .boolean :=
  ⟨rfl, rfl, (by decide +kernel : (lowerCase "boolean query", Kind.boolean) ∈ kinds)⟩

theorem wrappedNode_wellFormed {value : Json} (h : WellFormed value) :
    WellFormed (.object (wrappedNode value).members) := by
  have hclause : WellFormedClause (.object [("occur", .string "must"), ("query", value)]) :=
    WellFormedClause.clause rfl (by decide +kernel : lowerCase "must" ∈ occurWords) rfl h
  exact WellFormed.boolean (wrappedNode_isOf value) rfl (List.forall_mem_singleton.2 hclause) nofun

theorem partOf_wrappedNode (value : Json) : PartOf value (.object (wrappedNode value).members) :=
  PartOf.clause (wrappedNode_isOf value) rfl List.mem_cons_self rfl PartOf.self

theorem exchanged_wrappedNode (value value' : Json) :
    Exchanged value value' (.object (wrappedNode value).members) (.object (wrappedNode value').members) := by
  have clauses : ∀ query, (wrappedNode query).get? "clauses" =
      some (.array ([] ++ .object [("occur", .string "must"), ("query", query)] :: [])) := fun _ => rfl
  exact Exchanged.clause (wrappedNode_isOf value) (wrappedNode_isOf value') rfl rfl (clauses value) (clauses value')
    rfl rfl rfl Exchanged.self

/-- A flag that is no truth value is refused within another query, if the end that it is about is there. Without that
end the query is read as if there were no flag. -/
theorem mistyped_refused_unless_idle_wrapped :
    (∀ context, ∃ e, ofJson context (.object (wrappedNode (.object flaggedNode.members)).members) = .error e) ∧
      ∀ context, ∃ query,
        ofJson context (.object (wrappedNode (.object idleFlagNode.members)).members) = .ok query := by
  have member : ("includeMinimum", MemberType.boolean) ∈ (Kind.leaf (.integerRange .wide)).memberTypes := by decide
  have mistyped : ¬ MemberType.boolean.Admits (.string "yes") := nofun
  have isOf : idleFlagNode.IsOf (.object idleFlagNode.members) (.leaf (.integerRange .wide)) :=
    endlessNode_isOf.including (by decide)
  constructor
  · have notIdle : ¬ flaggedNode.IsIdle "includeMinimum" := by
      rintro ⟨bound, hend, hnone⟩
      cases hend
      cases hnone
    have isOf' : flaggedNode.IsOf (.object flaggedNode.members) (.leaf (.integerRange .wide)) :=
      isOf.including (by decide)
    exact (mistyped_refused_unless_idle (partOf_wrappedNode _) isOf' member rfl mistyped).1 notIdle
  · intro context
    have same : ∀ other, other ≠ "includeMinimum" → endlessNode.get? other = idleFlagNode.get? other :=
      fun other hother => (Node.get?_including_of_ne hother).symm
    obtain ⟨-, heq⟩ := (mistyped_refused_unless_idle (partOf_wrappedNode _) isOf member rfl mistyped).2
      ⟨"minimum", rfl, rfl⟩ _ _ endlessNode_isOf rfl same
    rw [← heq _ (exchanged_wrappedNode _ _) context]
    exact (decides_ofJson context _).ok_iff.2 (wrappedNode_wellFormed endlessNode_wellFormed)

end Query

end EventFinder
