import EventFinder.Proofs.Query.Parts

/-!
# Which part of a query is blamed

The refusal of a query comes from one of its parts: of the parts that are reached, one with a fault of its own
(`FirstFault.exists_part`). What is named in the error is the type of this part as it is written, or `query` if the part
has no type. Only a radius that is no distance is reported in the name of another type, whichever of the two kinds of
circles the part is (`invalid_names_part`).
-/

set_option autoImplicit false

namespace EventFinder

namespace Query

/-! ## Defects and names -/

/-- What is wrong with a node that does not meet the check. -/
def Check.defect (node : Node) : Check → Defect
  | text key => .missing .text key
  | list key => .missing .list key
  | texts _ => .valueNotText
  | number key => .mistyped key .number
  | given key => .missing .number key
  | distance key => .badRadius (((node.get? key).bind Json.real?).getD .zero)
  | integer key => .mistyped key .integer
  | fits _ key => .outOfRange key
  | flag _ key => .mistyped key .boolean

/-- The type in whose name a defect of the node is reported. -/
def Node.blamed (node : Node) : Defect → String
  | .badRadius _ => "coordinate circle envelope"
  | _ => node.type

/-- The error for a defect of the node. -/
def Node.blame (node : Node) (defect : Defect) : QueryError := .invalid (node.blamed defect) defect

theorem Check.refusal_eq_blame (node : Node) (check : Check) :
    check.refusal node = node.blame (check.defect node) := by
  cases check <;> rfl

/-! ## Faults of a part's own -/

/-- The value is no object, or one without a text for its type. -/
inductive Untyped : Json → Defect → Prop where
  | notAnObject {value : Json} (other : ∀ members, value ≠ .object members) : Untyped value .notAnObject
  | untyped {members : List (String × Json)} (other : ∀ type, Json.lookup "type" members ≠ some (.string type)) :
      Untyped (.object members) (.missing .text "type")

/-- What is wrong with a clause before its query is looked at. -/
inductive ClauseFault : Json → Defect → Prop where
  | notAnObject {item : Json} (other : ∀ members, item ≠ .object members) : ClauseFault item .clauseNotAnObject
  | withoutOccur {members : List (String × Json)}
      (other : ∀ word, Json.lookup "occur" members ≠ some (.string word)) :
      ClauseFault (.object members) .clauseWithoutOccur
  | unknownOccur {members : List (String × Json)} {word : String}
      (occur : Json.lookup "occur" members = some (.string word)) (unknown : lowerCase word ∉ occurWords) :
      ClauseFault (.object members) (.unknownOccur word)
  | withoutQuery {members : List (String × Json)} (takesPart : TakesPart members)
      (missing : Json.lookup "query" members = none) : ClauseFault (.object members) .clauseWithoutQuery

/-- What is wrong with a node first, in a member or a clause of its own. -/
inductive OwnFault (node : Node) : Kind → Defect → Prop where
  | member {kind : LeafKind} {before after : List Check} {check : Check}
      (checks : kind.checks ++ [.number "boost"] = before ++ check :: after)
      (earlier : ∀ other ∈ before, other.Met node) (unmet : ¬ check.Met node) :
      OwnFault node (.leaf kind) (check.defect node)
  | withoutClauses (other : ∀ items, node.get? "clauses" ≠ some (.array items)) :
      OwnFault node .boolean (.missing .list "clauses")
  | clause {before after : List Json} {item : Json} {defect : Defect}
      (clauses : node.get? "clauses" = some (.array (before ++ item :: after)))
      (earlier : ∀ other ∈ before, WellFormedClause other) (fault : ClauseFault item defect) :
      OwnFault node .boolean defect
  | boost {items : List Json} (clauses : node.get? "clauses" = some (.array items))
      (each : ∀ item ∈ items, WellFormedClause item) (unmet : ¬ (Check.number "boost").Met node) :
      OwnFault node .boolean (.mistyped "boost" .number)

section Faults

variable {value part item : Json} {node : Node} {kind : Kind} {defect : Defect} {e : QueryError}

theorem ClauseFault.faultInClause (h : ClauseFault item defect) : FaultInClause node item (node.blame defect) := by
  cases h with
  | notAnObject other => exact FaultInClause.notAnObject other
  | withoutOccur other => exact FaultInClause.withoutOccur other
  | unknownOccur occur unknown => exact FaultInClause.unknownOccur occur unknown
  | withoutQuery takesPart missing =>
      obtain ⟨word, occur, known⟩ := takesPart
      exact FaultInClause.withoutQuery occur known missing

/-- A fault of a node's own comes before those of the queries in it that are not reached. -/
theorem OwnFault.firstFault (isOf : node.IsOf value kind) (h : OwnFault node kind defect) :
    FirstFault value (node.blame defect) := by
  cases h with
  | @member kind before after check checks earlier unmet =>
      refine FirstFault.leaf isOf ?_
      rw [← Check.refusal_eq_blame, checks]
      exact ⟨before, check, after, rfl, earlier, unmet, rfl⟩
  | withoutClauses other => exact FirstFault.withoutClauses isOf other
  | clause clauses earlier fault => exact FirstFault.clause isOf clauses earlier fault.faultInClause
  | boost clauses each unmet => exact FirstFault.boost isOf clauses each unmet

end Faults

/-! ## The part with the first fault -/

/-- A part that is reached has the fault for its own. -/
def InPart (value : Json) (e : QueryError) : Prop :=
  ∃ part, ReadUpTo part value ∧
    (HeadFault part e ∨ ∃ node kind defect, node.IsOf part kind ∧ OwnFault node kind defect ∧ e = node.blame defect)

mutual

/-- The first fault of a value is one of a part that is reached. -/
theorem FirstFault.inPart : ∀ {value : Json} {e : QueryError}, FirstFault value e → InPart value e
  | value, _, .head fault => ⟨value, ReadUpTo.self, Or.inl fault⟩
  | value, _, .leaf isOf fault => by
      obtain ⟨before, check, after, checks, earlier, unmet, rfl⟩ := fault
      rw [Check.refusal_eq_blame]
      exact ⟨value, ReadUpTo.self, Or.inr ⟨_, _, _, isOf, OwnFault.member checks earlier unmet, rfl⟩⟩
  | value, _, .withoutClauses isOf other =>
      ⟨value, ReadUpTo.self, Or.inr ⟨_, _, _, isOf, OwnFault.withoutClauses other, rfl⟩⟩
  | value, _, .clause isOf clauses earlier fault => by
      rcases fault.ownOrInPart with ⟨defect, hown, rfl⟩ | ⟨members, inner, rfl, takesPart, query, hinner⟩
      · exact ⟨value, ReadUpTo.self, Or.inr ⟨_, _, _, isOf, OwnFault.clause clauses earlier hown, rfl⟩⟩
      · obtain ⟨part, hreached, hpart⟩ := hinner
        exact ⟨part, ReadUpTo.clause isOf clauses earlier takesPart query hreached, hpart⟩
  | value, _, .boost isOf clauses each unmet =>
      ⟨value, ReadUpTo.self, Or.inr ⟨_, _, _, isOf, OwnFault.boost clauses each unmet, rfl⟩⟩

/-- The first fault of a clause is one of its own or one of a part of its query. -/
theorem FaultInClause.ownOrInPart : ∀ {node : Node} {item : Json} {e : QueryError}, FaultInClause node item e →
    (∃ defect, ClauseFault item defect ∧ e = node.blame defect) ∨
      ∃ members inner, item = .object members ∧ TakesPart members ∧ Json.lookup "query" members = some inner ∧
        InPart inner e
  | _, _, _, .notAnObject other => Or.inl ⟨_, ClauseFault.notAnObject other, rfl⟩
  | _, _, _, .withoutOccur other => Or.inl ⟨_, ClauseFault.withoutOccur other, rfl⟩
  | _, _, _, .unknownOccur occur unknown => Or.inl ⟨_, ClauseFault.unknownOccur occur unknown, rfl⟩
  | _, _, _, .withoutQuery occur known missing =>
      Or.inl ⟨_, ClauseFault.withoutQuery ⟨_, occur, known⟩ missing, rfl⟩
  | _, _, _, .query occur known query fault => Or.inr ⟨_, _, rfl, ⟨_, occur, known⟩, query, fault.inPart⟩

end

/-! ## The name in the error -/

theorem LeafKind.isCircle_of_distance {kind : LeafKind} {key : String} (h : Check.distance key ∈ kind.checks) :
    kind = .circle ∨ kind = .locationCircle := by
  cases kind with
  | circle => exact Or.inl rfl
  | locationCircle => exact Or.inr rfl
  | _ =>
      simp [checks, Node.integerBoundChecks, Node.realBoundChecks, Node.boxChecks, Node.numberChecks] at h

theorem Check.exists_distance {node : Node} {check : Check} {x : Binary64} (h : check.defect node = .badRadius x) :
    ∃ key, check = .distance key := by
  cases check with
  | distance key => exact ⟨key, rfl⟩
  | _ => cases h

section Names

variable {value : Json} {node : Node} {kind : Kind} {defect : Defect} {name : String}

/-- Only circles have a radius. -/
theorem OwnFault.isCircle (h : OwnFault node kind defect) {x : Binary64} (hbad : defect = .badRadius x) :
    kind = .leaf .circle ∨ kind = .leaf .locationCircle := by
  cases h with
  | @member leaf before after check checks _ _ =>
      obtain ⟨key, rfl⟩ := Check.exists_distance hbad
      have hmem : Check.distance key ∈ leaf.checks ++ [.number "boost"] := by
        rw [checks]
        exact List.mem_append_right _ List.mem_cons_self
      rcases List.mem_append.1 hmem with hmem | hmem
      · exact (LeafKind.isCircle_of_distance hmem).imp (congrArg Kind.leaf) (congrArg Kind.leaf)
      · cases List.mem_singleton.1 hmem
  | withoutClauses => cases hbad
  | clause clauses earlier fault =>
      subst hbad
      cases fault
  | boost => cases hbad

/-- A fault of a node's own is reported in the name of its type, but for that of a radius. -/
theorem OwnFault.name_eq_blamed_iff (h : OwnFault node kind defect) :
    name = node.blamed defect ↔
      (∀ x, defect ≠ .badRadius x) ∧ name = node.type ∨
        (kind = .leaf .circle ∨ kind = .leaf .locationCircle) ∧ (∃ x, defect = .badRadius x) ∧
          name = "coordinate circle envelope" := by
  by_cases hbad : ∃ x, defect = .badRadius x
  · obtain ⟨x, rfl⟩ := hbad
    simp [Node.blamed, h.isCircle rfl]
  · have hblamed : node.blamed defect = node.type := by
      rw [Node.blamed]
      rintro x rfl
      exact hbad ⟨x, rfl⟩
    rw [hblamed, and_iff_right (not_exists.1 hbad), or_iff_left fun hradius => hbad hradius.2.1]

theorem headFault_invalid_iff : HeadFault value (.invalid name defect) ↔ name = "query" ∧ Untyped value defect := by
  constructor
  · intro h
    cases h with
    | notAnObject other => exact ⟨rfl, Untyped.notAnObject other⟩
    | untyped other => exact ⟨rfl, Untyped.untyped other⟩
  · rintro ⟨rfl, ⟨other⟩ | ⟨other⟩⟩
    · exact HeadFault.notAnObject other
    · exact HeadFault.untyped other

end Names

theorem firstFault_iff_inPart {value : Json} {e : QueryError} : FirstFault value e ↔ InPart value e := by
  constructor
  · exact FirstFault.inPart
  · rintro ⟨part, hreached, fault | ⟨node, kind, defect, isOf, fault, rfl⟩⟩
    · exact hreached.firstFault (FirstFault.head fault)
    · exact hreached.firstFault (fault.firstFault isOf)

/-- A value is refused as invalid, whenever and with whatever weights it is read, exactly for a part of it that is
reached and has the defect for its own. The error names the type of this part as it is written, or `query` if it has no
type. Of a circle whose radius is no distance it names the type of one of the two kinds of circles, in small letters,
whatever the type of the part is. -/
theorem invalid_names_part (context : Context) (value : Json) (name : String) (defect : Defect) :
    ofJson context value = .error (.invalid name defect) ↔
      ∃ part, ReadUpTo part value ∧
        (name = "query" ∧ Untyped part defect ∨
          ∃ node kind, node.IsOf part kind ∧ OwnFault node kind defect ∧
            ((∀ x, defect ≠ .badRadius x) ∧ name = node.type ∨
              (kind = .leaf .circle ∨ kind = .leaf .locationCircle) ∧ (∃ x, defect = .badRadius x) ∧
                name = "coordinate circle envelope")) := by
  rw [(decides_ofJson context value).error_iff, firstFault_iff_inPart, InPart]
  refine exists_congr fun part => and_congr_right fun _ => or_congr headFault_invalid_iff ?_
  constructor
  · rintro ⟨node, kind, defect', isOf, fault, heq⟩
    cases heq
    exact ⟨node, kind, isOf, fault, fault.name_eq_blamed_iff.1 rfl⟩
  · rintro ⟨node, kind, isOf, fault, hname⟩
    refine ⟨node, kind, defect, isOf, fault, ?_⟩
    rw [Node.blame, fault.name_eq_blamed_iff.2 hname]

/-- A circle around the location of events with a radius below zero. -/
def negativeCircleNode : Node :=
  ⟨"event location coordinate circle envelope",
    [("type", .string "event location coordinate circle envelope"),
      ("centroidLatitude", .number (.integer 0)), ("centroidLongitude", .number (.integer 0)),
      ("radiusKilometers", .number (.integer (-1)))]⟩

/-- The error for it names the other kind of circle. -/
theorem invalid_names_part_circle (context : Context) :
    ofJson context (.object negativeCircleNode.members) =
      .error (.invalid "coordinate circle envelope" (.badRadius (JsonNumber.integer (-1)).toBinary64)) := by
  rw [invalid_names_part]
  have isOf : negativeCircleNode.IsOf (.object negativeCircleNode.members) (.leaf .locationCircle) :=
    ⟨rfl, rfl, by decide +kernel⟩
  have checks : LeafKind.locationCircle.checks ++ [.number "boost"] =
      ["centroidLatitude", "centroidLongitude", "radiusKilometers"].flatMap Node.numberChecks ++
        .distance "radiusKilometers" :: [.number "boost"] := rfl
  have earlier : ∀ check ∈ ["centroidLatitude", "centroidLongitude", "radiusKilometers"].flatMap Node.numberChecks,
      check.Met negativeCircleNode := by
    simp [Node.numberChecks, Check.Met, Node.get?, negativeCircleNode, Json.lookup, Json.isNull]
  have unmet : ¬ (Check.distance "radiusKilometers").Met negativeCircleNode := by
    intro h
    have hsign : Binary.zero.le (JsonNumber.integer (-1)).toBinary64 = false := by decide +kernel
    rw [(h (.integer (-1)) rfl).2] at hsign
    cases hsign
  exact ⟨_, ReadUpTo.self, Or.inr ⟨_, _, isOf, OwnFault.member checks earlier unmet,
    Or.inr ⟨Or.inr rfl, ⟨_, rfl⟩, rfl⟩⟩⟩

end Query

end EventFinder
