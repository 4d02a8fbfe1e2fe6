import EventFinder.Proofs.Query.Mistyped

/-!
# Spelling

The same query can be spelled in several ways: types and the words of clauses in any letter case, members that
nothing reads, and members that are `null` instead of missing (`SpelledAlike`). Queries that are spelled alike are
both refused, or both read to the same query (`spelling_keeps_query`).
-/

set_option autoImplicit false

namespace EventFinder

namespace Query

/-- The members that a node of the kind is read from. -/
def Kind.keys : Kind → List String
  | .boolean => ["clauses", "boost"]
  | .leaf kind => kind.keys ++ ["boost"]

/-! ## The relation -/

/-- Two values of the member that is the word of a clause: one word in any letter case, or two values that name no
part. -/
inductive SameWord : Option Json → Option Json → Prop where
  | word {s s' : String} (same : lowerCase s = lowerCase s') : SameWord (some (.string s)) (some (.string s'))
  | unknown {v v' : Option Json} (noWord : ∀ s, v = some (.string s) → lowerCase s ∉ occurWords)
      (noWord' : ∀ s, v' = some (.string s) → lowerCase s ∉ occurWords) : SameWord v v'

/-- The value is a node of no kind, so that nothing is read from it but its type. -/
def IsNoNode (value : Json) : Prop := ∀ (node : Node) (kind : Kind), ¬ node.IsOf value kind

/-- No query is among the members of a clause. -/
def HasNoQuery (members : List (String × Json)) : Prop :=
  ∀ v, Json.lookup "query" members = some v → v.isNull = true

mutual

/-- Two values are the same query in two spellings, or are no queries for the same reason. Types in two letter cases
name one kind, or none: of a node of a kind only the members of this kind are compared, where `null` counts as missing,
and of what is no node nothing is read. -/
inductive SpelledAlike : Json → Json → Prop where
  | same (value : Json) : SpelledAlike value value
  | noNodes {value value' : Json} (noNode : IsNoNode value) (noNode' : IsNoNode value') : SpelledAlike value value'
  | members {value value' : Json} {node node' : Node} {kind : Kind} (isOf : node.IsOf value kind)
      (isOf' : node'.IsOf value' kind) (same : node.AgreeOn node' kind.keys) : SpelledAlike value value'
  | clauses {value value' : Json} {node node' : Node} {items items' : List Json} (isOf : node.IsOf value .boolean)
      (isOf' : node'.IsOf value' .boolean) (boost : node.get? "boost" = node'.get? "boost")
      (clauses : node.get? "clauses" = some (.array items)) (clauses' : node'.get? "clauses" = some (.array items'))
      (length : items.length = items'.length)
      (each : ∀ pair ∈ items.zip items', ClauseSpelledAlike pair.1 pair.2) : SpelledAlike value value'

/-- Two values are the same clause in two spellings, or are no clauses for the same reason. Only their words and their
queries are compared. -/
inductive ClauseSpelledAlike : Json → Json → Prop where
  | same (item : Json) : ClauseSpelledAlike item item
  | noQueries {members members' : List (String × Json)} (noQuery : HasNoQuery members)
      (noQuery' : HasNoQuery members') : ClauseSpelledAlike (.object members) (.object members')
  | query {members members' : List (String × Json)} {value value' : Json}
      (occur : SameWord (Json.lookup "occur" members) (Json.lookup "occur" members'))
      (query : Json.lookup "query" members = some value) (query' : Json.lookup "query" members' = some value')
      (alike : SpelledAlike value value') : ClauseSpelledAlike (.object members) (.object members')

end

/-! ## What is no query -/

theorem occur?_eq_none_iff {word : String} : occur? word = none ↔ lowerCase word ∉ occurWords := by
  rw [← exists_occur?_iff, Option.eq_none_iff_forall_ne_some, not_exists]

/-- Two spellings of a word name the same part. -/
theorem SameWord.part?_eq {members members' : List (String × Json)}
    (h : SameWord (Json.lookup "occur" members) (Json.lookup "occur" members')) :
    part? members = part? members' := by
  have hunknown : ∀ v : Option Json, (∀ s, v = some (.string s) → lowerCase s ∉ occurWords) →
      (v.bind Json.string?).bind occur? = none := by
    intro v hv
    rw [Option.bind_eq_none_iff]
    intro s hs
    obtain ⟨w, hw, hstring⟩ := Option.bind_eq_some_iff.1 hs
    rw [Json.string?_eq_some_iff] at hstring
    exact occur?_eq_none_iff.2 (hv s (hstring ▸ hw))
  rw [part?, part?]
  generalize Json.lookup "occur" members = v at h
  generalize Json.lookup "occur" members' = v' at h
  cases h with
  | @word s s' same =>
      change occur? s = occur? s'
      rw [occur?, occur?, same]
  | unknown noWord noWord' => rw [hunknown v noWord, hunknown v' noWord']

section Refused

variable {context : Context} {value : Json} {node : Node} {members : List (String × Json)}

/-- What is no node of any kind is refused. -/
theorem IsNoNode.exists_error (h : IsNoNode value) : ∃ e, ofJson context value = .error e := by
  rcases isOf_or_headFault value with ⟨node, kind, isOf⟩ | ⟨e, hfault⟩
  · exact absurd isOf (h node kind)
  · exact ⟨e, ofJson_of_headFault context hfault⟩

theorem isNoNode_null : IsNoNode .null := fun _ _ isOf => nomatch isOf.isObject

/-- A clause without a query is refused, whether its query is missing or `null`. -/
theorem HasNoQuery.exists_error (h : HasNoQuery members) :
    ∃ e, clauseOfJson context node (.object members) = .error e := by
  apply (decides_clause node fun _ value _ _ => decides_ofJson context value).exists_error
  rw [wellFormedClause_iff]
  rintro ⟨-, value, hquery, hvalue⟩
  -- `null` is not skipped here as it is among the members of a node, but it is no node either.
  cases value with
  | null =>
      cases hvalue with
      | leaf isOf => exact isNoNode_null _ _ isOf
      | boolean isOf => exact isNoNode_null _ _ isOf
  | _ => cases h _ hquery

end Refused

/-! ## What is read -/

section Reading

variable {context : Context} {value value' : Json} {node node' : Node}

theorem agree_weighted_same (boost : node.get? "boost" = node'.get? "boost") (query : Query) :
    Agree Eq (node.weighted query) (node'.weighted query) :=
  (Node.agree_factor boost).map_same query.boosted

/-- Readings of clauses that agree in the part and in the query give the same clause. -/
theorem agree_eq_of_parts {outcome outcome' : Except QueryError (Occur × Query)}
    (h : Agree (fun clause clause' => clause.1 = clause'.1 ∧ clause.2 = clause'.2) outcome outcome') :
    Agree Eq outcome outcome' :=
  h.mono fun _ _ hparts => Prod.ext hparts.1 hparts.2

/-- What node a clause is in matters only to its errors. -/
theorem agree_clauseOfJson_self (node node' : Node) (item : Json) :
    Agree Eq (clauseOfJson context node item) (clauseOfJson context node' item) := by
  cases item with
  | object members =>
      cases hquery : Json.lookup "query" members with
      | some value => exact agree_eq_of_parts (agree_clauseOfJson node node' rfl hquery hquery (Agree.refl _))
      | none =>
          apply (agree_clauseOccur node node' rfl).bind_same
          intro occur
          rw [hquery]
          exact Agree.errors _ _
  | _ => exact Agree.errors _ _

/-- Nodes of one kind that have the members alike that it is read from are read alike, factors included. -/
theorem agree_ofJson_of_members {kind : Kind} (isOf : node.IsOf value kind) (isOf' : node'.IsOf value' kind)
    (same : node.AgreeOn node' kind.keys) : Agree Eq (ofJson context value) (ofJson context value') := by
  cases kind with
  | leaf kind =>
      have boost := same "boost" (List.mem_append_right _ List.mem_cons_self)
      rw [isOf.ofJson_leaf context, isOf'.ofJson_leaf context]
      apply (Node.agree_leaf context kind (same.subset (List.subset_append_left _ _))).bind_same
      exact agree_weighted_same boost
  | boolean =>
      have boost := same "boost" (by decide)
      rw [isOf.ofJson_boolean context, isOf'.ofJson_boolean context]
      -- The clauses are the same, but their errors name the types of two nodes.
      apply (Node.agree_list (same "clauses" (by decide))).bind_same
      intro items
      apply (Agree.mapM_same items fun item _ => agree_clauseOfJson_self node node' item).bind_same
      exact fun clauses => agree_weighted_same boost (.boolean clauses)

/-- Boolean queries with clauses that are read alike are read alike. -/
theorem agree_ofJson_of_clauses {items items' : List Json} (isOf : node.IsOf value .boolean)
    (isOf' : node'.IsOf value' .boolean) (boost : node.get? "boost" = node'.get? "boost")
    (clauses : node.get? "clauses" = some (.array items)) (clauses' : node'.get? "clauses" = some (.array items'))
    (length : items.length = items'.length)
    (each : ∀ pair ∈ items.zip items',
      Agree Eq (clauseOfJson context node pair.1) (clauseOfJson context node' pair.2)) :
    Agree Eq (ofJson context value) (ofJson context value') := by
  have hitems : Agree Eq (items.mapM (clauseOfJson context node)) (items'.mapM (clauseOfJson context node')) := by
    have hpairs : List.Forall₂
        (fun item item' => Agree Eq (clauseOfJson context node item) (clauseOfJson context node' item'))
        items items' :=
      List.forall₂_iff_zip.2 ⟨length, fun {item item'} hpair => each (item, item') hpair⟩
    exact (Agree.mapM hpairs).mono fun _ _ hclauses => by rwa [List.forall₂_eq_eq_eq] at hclauses
  rw [ofJson_of_boolean isOf clauses, ofJson_of_boolean isOf' clauses']
  exact hitems.bind_same fun read => agree_weighted_same boost (.boolean read)

theorem agree_of_errors {ε α : Type} {outcome outcome' : Except ε α} (h : ∃ e, outcome = .error e)
    (h' : ∃ e, outcome' = .error e) : Agree Eq outcome outcome' := by
  obtain ⟨e, rfl⟩ := h
  obtain ⟨e', rfl⟩ := h'
  exact Agree.errors e e'

mutual

/-- What is spelled alike is read alike. -/
theorem SpelledAlike.agree : ∀ {value value' : Json}, SpelledAlike value value' →
    Agree Eq (ofJson context value) (ofJson context value')
  | _, _, .same value => Agree.refl _
  | _, _, .noNodes noNode noNode' => agree_of_errors noNode.exists_error noNode'.exists_error
  | _, _, .members isOf isOf' same => agree_ofJson_of_members isOf isOf' same
  | _, _, .clauses isOf isOf' hboost hclauses hclauses' hlength each =>
      agree_ofJson_of_clauses isOf isOf' hboost hclauses hclauses' hlength fun pair hpair =>
        (each pair hpair).agree _ _

theorem ClauseSpelledAlike.agree : ∀ {item item' : Json}, ClauseSpelledAlike item item' → ∀ node node' : Node,
    Agree Eq (clauseOfJson context node item) (clauseOfJson context node' item')
  | _, _, .same item, node, node' => agree_clauseOfJson_self node node' item
  | _, _, .noQueries noQuery noQuery', _, _ => agree_of_errors noQuery.exists_error noQuery'.exists_error
  | _, _, .query occur query query' alike, node, node' =>
      agree_eq_of_parts (agree_clauseOfJson node node' occur.part?_eq query query' alike.agree)

end

end Reading

/-- Two spellings are read to one query, or both are refused, whenever and with whatever weights they are read. -/
theorem spelling_keeps_query {value value' : Json} (alike : SpelledAlike value value') (context : Context) :
    (∃ query, ofJson context value = .ok query ∧ ofJson context value' = .ok query) ∨
      (∃ e, ofJson context value = .error e) ∧ ∃ e, ofJson context value' = .error e := by
  -- Runs that agree are both values, and then the same, or both errors.
  have hagree : Agree Eq (ofJson context value) (ofJson context value') := alike.agree
  cases hvalue : ofJson context value with
  | ok query =>
      obtain ⟨query', hquery'⟩ := hagree.exists_ok_iff.1 ⟨query, hvalue⟩
      exact Or.inl ⟨query, rfl, hagree.related hvalue hquery' ▸ hquery'⟩
  | error e =>
      refine Or.inr ⟨⟨e, rfl⟩, ?_⟩
      cases hvalue' : ofJson context value' with
      | error e' => exact ⟨e', rfl⟩
      | ok query' =>
          obtain ⟨query, hquery⟩ := hagree.exists_ok_iff.2 ⟨query', hvalue'⟩
          rw [hvalue] at hquery
          cases hquery

/-- Another spelling of `endlessNode`, with an end that is `null` and a member that nothing reads. -/
def respelledRange : Node :=
  ⟨"LONG range",
    [("type", .string "LONG range"), ("field", .string "created"), ("minimum", .null), ("step", .number (.integer 1))]⟩

/-- Another spelling of the query that `wrappedNode` makes of it. -/
def respelledNode : Node :=
  ⟨"Boolean QUERY",
    [("type", .string "Boolean QUERY"), ("boost", .null), ("name", .string "all"),
      ("clauses", .array [.object
        [("query", .object respelledRange.members), ("occur", .string "MUST"), ("name", .null)]])]⟩

/-- Both spellings are read to the same query. -/
theorem spelling_keeps_query_wrapped :
    ∃ query, ofJson ⟨0, .standard⟩ (.object (wrappedNode (.object endlessNode.members)).members) = .ok query ∧
      ofJson ⟨0, .standard⟩ (.object respelledNode.members) = .ok query := by
  have isOf : respelledNode.IsOf (.object respelledNode.members) .boolean :=
    ⟨rfl, rfl, (by decide +kernel : (lowerCase "Boolean QUERY", Kind.boolean) ∈ kinds)⟩
  have range : SpelledAlike (.object endlessNode.members) (.object respelledRange.members) := by
    have isOf' : respelledRange.IsOf (.object respelledRange.members) (.leaf (.integerRange .wide)) :=
      ⟨rfl, rfl, (by decide +kernel : (lowerCase "LONG range", Kind.leaf (.integerRange .wide)) ∈ kinds)⟩
    refine SpelledAlike.members endlessNode_isOf isOf' ?_
    have hnull : Json.null.isNull = true := rfl
    simp [Node.AgreeOn, Kind.keys, LeafKind.keys, LeafKind.checks, Node.integerBoundChecks, Check.keys,
      Option.filter_some, hnull, Node.get?, Json.lookup, endlessNode, respelledRange]
  have clause : ClauseSpelledAlike (.object [("occur", .string "must"), ("query", .object endlessNode.members)])
      (.object [("query", .object respelledRange.members), ("occur", .string "MUST"), ("name", .null)]) :=
    ClauseSpelledAlike.query (.word (by decide +kernel : lowerCase "must" = lowerCase "MUST")) rfl rfl range
  have alike : SpelledAlike (.object (wrappedNode (.object endlessNode.members)).members)
      (.object respelledNode.members) :=
    SpelledAlike.clauses (wrappedNode_isOf _) isOf rfl rfl rfl rfl (List.forall_mem_singleton.2 clause)
  rcases spelling_keeps_query alike ⟨0, .standard⟩ with hread | ⟨⟨e, herror⟩, -⟩
  · exact hread
  · obtain ⟨query, hquery⟩ := (decides_ofJson ⟨0, .standard⟩ _).ok_iff.2 (wrappedNode_wellFormed endlessNode_wellFormed)
    rw [herror] at hquery
    cases hquery

end Query

end EventFinder
