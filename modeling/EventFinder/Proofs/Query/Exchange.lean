import EventFinder.Proofs.Query.Parts

/-!
# Exchanging a part of a query

Readers of a node depend on its type, for their errors, and on the members that they read. So a part of a query may be
exchanged for another value at any depth (`Exchanged`): if the one is read as the other, so are the queries that they
are in (`Exchanged.ofJson_eq`).
-/

set_option autoImplicit false

namespace EventFinder

/-- Of two members of one name the later one counts. -/
theorem Json.lookup_concat (key name : String) (members : List (String × Json)) (v : Json) :
    lookup key (members ++ [(name, v)]) = if name = key then some v else lookup key members := by
  induction members with
  | nil => rfl
  | cons first rest ih =>
      rw [List.cons_append, lookup, lookup, ih]
      by_cases h : name = key
      · simp only [if_pos h]
      · simp only [if_neg h]

namespace Query

namespace Node

/-! ## Further members -/

/-- The node with a further member, which counts instead of others of its name. -/
def including (node : Node) (key : String) (v : Json) : Node := ⟨node.type, node.members ++ [(key, v)]⟩

section Including

variable {node : Node} {key other : String} {v : Json}

theorem get?_including (h : v.isNull = false) : (node.including key v).get? key = some v := by
  rw [get?, including, Json.lookup_concat, if_pos rfl, Option.filter_some, h]
  rfl

@[simp] theorem get?_including_of_ne (h : other ≠ key) : (node.including key v).get? other = node.get? other := by
  rw [get?, get?, including, Json.lookup_concat, if_neg h.symm]

theorem IsOf.including {value : Json} {kind : Kind} (isOf : node.IsOf value kind) (h : key ≠ "type") :
    (node.including key v).IsOf (.object (node.including key v).members) kind where
  isObject := rfl
  hasType := by
    rw [Node.including, Json.lookup_concat, if_neg h]
    exact isOf.hasType
  named := isOf.named

end Including

/-! ## Nodes of one type -/

section SameType

variable {node node' : Node} (type : node'.type = node.type)
include type

theorem refuse_congr {α : Type} (defect : Defect) :
    (node'.refuse defect : Except QueryError α) = node.refuse defect := by
  rw [refuse, refuse, type]

theorem clauseOccur_congr {members members' : List (String × Json)}
    (occur : Json.lookup "occur" members' = Json.lookup "occur" members) :
    node'.clauseOccur members' = node.clauseOccur members := by
  simp only [clauseOccur, occur, refuse_congr type]

section Members

variable {key : String} (same : node'.get? key = node.get? key)
include same

theorem required_congr {α : Type} (view : Json → Option α) (what : Expected) :
    node'.required key view what = node.required key view what := by
  rw [required, required, same, refuse_congr type]

theorem optional_congr {α : Type} (view : Json → Option α) (what : Expected) :
    node'.optional key view what = node.optional key view what := by
  rw [optional, optional, same, refuse_congr type]

theorem text_congr : node'.text key = node.text key := by
  rw [text_eq, text_eq, required_congr type same]

theorem number?_congr : node'.number? key = node.number? key := by
  rw [number?_eq, number?_eq, optional_congr type same]

theorem integer?_congr : node'.integer? key = node.integer? key := by
  rw [integer?_eq, integer?_eq, optional_congr type same]

theorem booleanOr_congr (default : Bool) : node'.booleanOr key default = node.booleanOr key default := by
  rw [booleanOr_eq, booleanOr_eq, optional_congr type same]

/-- What is said of an end of a range matters only where there is an end. -/
theorem integerBound_congr {flag : String} (hflag : node.get? key ≠ none → node'.get? flag = node.get? flag)
    (width : Width) : node'.integerBound width key flag = node.integerBound width key flag := by
  rw [integerBound, integerBound, integer?_congr type same, integer?_eq]
  cases hoptional : node.optional key Json.int64? .integer with
  | error e => rfl
  | ok n =>
      cases n with
      | none => rfl
      | some n =>
          obtain ⟨v, hv, -⟩ := get?_of_optional_some hoptional
          have hbound : node.get? key ≠ none := by
            rw [hv]
            exact Option.some_ne_none v
          change (if _ then _ else _) = if _ then _ else _
          rw [booleanOr_congr type (hflag hbound), refuse_congr type]

theorem realBound_congr {flag : String} (hflag : node.get? key ≠ none → node'.get? flag = node.get? flag)
    (width : Width) : node'.realBound width key flag = node.realBound width key flag := by
  rw [realBound, realBound, number?_congr type same, number?_eq]
  cases hoptional : node.optional key Json.real? .number with
  | error e => rfl
  | ok x =>
      cases x with
      | none => rfl
      | some x =>
          obtain ⟨v, hv, -⟩ := get?_of_optional_some hoptional
          have hbound : node.get? key ≠ none := by
            rw [hv]
            exact Option.some_ne_none v
          change node'.booleanOr flag true >>= _ = node.booleanOr flag true >>= _
          rw [booleanOr_congr type (hflag hbound)]

end Members

theorem weighted_congr (boost : node'.get? "boost" = node.get? "boost") (query : Query) :
    node'.weighted query = node.weighted query := by
  rw [weighted, weighted, factor, factor, number?_congr type boost]

end SameType

end Node

/-! ## Exchanging a part -/

/-- Two values that differ in one part: the parts themselves, or boolean queries of one type and with the same factor,
in which the query of one clause differs in that part. -/
inductive Exchanged (part part' : Json) : Json → Json → Prop where
  | self : Exchanged part part' part part'
  | clause {value value' : Json} {node node' : Node} {before after : List Json}
      {members members' : List (String × Json)} {inner inner' : Json}
      (isOf : node.IsOf value .boolean) (isOf' : node'.IsOf value' .boolean) (type : node'.type = node.type)
      (boost : node'.get? "boost" = node.get? "boost")
      (clauses : node.get? "clauses" = some (.array (before ++ .object members :: after)))
      (clauses' : node'.get? "clauses" = some (.array (before ++ .object members' :: after)))
      (occur : Json.lookup "occur" members' = Json.lookup "occur" members)
      (query : Json.lookup "query" members = some inner) (query' : Json.lookup "query" members' = some inner')
      (exchanged : Exchanged part part' inner inner') : Exchanged part part' value value'

section Exchange

variable {context : Context} {node node' : Node}

theorem ofJson_of_boolean {value : Json} {items : List Json} (isOf : node.IsOf value .boolean)
    (clauses : node.get? "clauses" = some (.array items)) :
    ofJson context value =
      items.mapM (clauseOfJson context node) >>= fun clauses => node.weighted (.boolean clauses) := by
  rw [isOf.ofJson_boolean context, Node.list_of_get? clauses]
  rfl

theorem clauseOfJson_object {members : List (String × Json)} {inner : Json}
    (query : Json.lookup "query" members = some inner) :
    clauseOfJson context node (.object members) =
      node.clauseOccur members >>= fun occur => return (occur, ← ofJson context inner) := by
  rw [clauseOfJson]
  simp only [query]

/-- The node matters to a clause only by its type. -/
theorem clauseOfJson_congr (type : node'.type = node.type) :
    clauseOfJson context node' = clauseOfJson context node := by
  funext item
  cases item with
  | object members =>
      simp only [clauseOfJson, Node.clauseOccur_congr type rfl, Node.refuse_congr type]
  | _ => exact Node.refuse_congr type _

/-- If a part is read as the one that it is exchanged for, the whole is read as before. -/
theorem Exchanged.ofJson_eq {part part' value value' : Json} (h : Exchanged part part' value value')
    (same : ofJson context part' = ofJson context part) : ofJson context value' = ofJson context value := by
  induction h with
  | self => exact same
  | clause isOf isOf' type boost clauses clauses' occur query query' _ ih =>
      rw [ofJson_of_boolean isOf clauses, ofJson_of_boolean isOf' clauses', clauseOfJson_congr type,
        List.mapM_append, List.mapM_append, List.mapM_cons, List.mapM_cons, clauseOfJson_object query,
        clauseOfJson_object query', ih, Node.clauseOccur_congr rfl occur]
      simp only [Node.weighted_congr type boost]

theorem Exchanged.partOf {part part' value value' : Json} (h : Exchanged part part' value value') :
    PartOf part value ∧ PartOf part' value' := by
  induction h with
  | self => exact ⟨PartOf.self, PartOf.self⟩
  | clause isOf isOf' _ _ clauses clauses' _ query query' _ ih =>
      exact ⟨PartOf.clause isOf clauses (List.mem_append_right _ List.mem_cons_self) query ih.1,
        PartOf.clause isOf' clauses' (List.mem_append_right _ List.mem_cons_self) query' ih.2⟩

/-- In every query each part can be exchanged for any value. -/
theorem PartOf.exists_exchanged {part value : Json} (h : PartOf part value) (part' : Json) :
    ∃ value', Exchanged part part' value value' := by
  induction h with
  | self => exact ⟨part', Exchanged.self⟩
  | @clause value node items members inner isOf clauses mem query _ ih =>
      obtain ⟨inner', hinner⟩ := ih
      obtain ⟨before, after, rfl⟩ := List.append_of_mem mem
      -- The new query and the new clauses are written behind the other members, where they count.
      have occur : Json.lookup "occur" (members ++ [("query", inner')]) = Json.lookup "occur" members := by
        rw [Json.lookup_concat, if_neg (by decide)]
      have query' : Json.lookup "query" (members ++ [("query", inner')]) = some inner' := by
        rw [Json.lookup_concat, if_pos rfl]
      exact ⟨_, Exchanged.clause isOf (isOf.including (by decide)) rfl (Node.get?_including_of_ne (by decide)) clauses
        (Node.get?_including rfl) occur query query' hinner⟩

end Exchange

end Query

end EventFinder
