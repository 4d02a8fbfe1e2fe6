import EventFinder.Proofs.Query.Members
import EventFinder.Proofs.Query.Unweighted

/-!
# Queries that differ in factors

`FactorsApart` relates two JSON values that are the same but for the factors of nodes, at any depth: a factor
may be missing in one of them, or be another number. Both are refused, or both are read, whatever the weights
of free texts are, to queries that are the same without their factors (`agree_ofJson`).
-/

set_option autoImplicit false

namespace EventFinder

namespace Query

/-! ## The relation -/

/-- The factor that some members say is a number, if it is there. -/
def FactorIsNumber (members : List (String × Json)) : Prop :=
  ∀ v, Json.lookup "boost" members = some v → v.isNull = true ∨ ∃ n, v = .number n

mutual

/-- Two values are the same but for factors. -/
inductive FactorsApart : Json → Json → Prop where
  | same (value : Json) : FactorsApart value value
  | node {members members' : List (String × Json)}
      (boost : Json.lookup "boost" members = Json.lookup "boost" members' ∨
        FactorIsNumber members ∧ FactorIsNumber members')
      (clauses : ClausesApart (Json.lookup "clauses" members) (Json.lookup "clauses" members'))
      (others : ∀ key, key ≠ "boost" → key ≠ "clauses" → Json.lookup key members = Json.lookup key members') :
      FactorsApart (.object members) (.object members')

/-- Two members are the same but for factors of the clauses in them. -/
inductive ClausesApart : Option Json → Option Json → Prop where
  | same (clauses : Option Json) : ClausesApart clauses clauses
  | lists {items items' : List Json} (each : EachApart items items') :
      ClausesApart (some (.array items)) (some (.array items'))

/-- As many clauses are the same but for factors. -/
inductive EachApart : List Json → List Json → Prop where
  | nil : EachApart [] []
  | cons {item item' : Json} {rest rest' : List Json} (first : ClauseApart item item')
      (others : EachApart rest rest') : EachApart (item :: rest) (item' :: rest')

/-- Two clauses are the same but for factors of their queries. -/
inductive ClauseApart : Json → Json → Prop where
  | same (item : Json) : ClauseApart item item
  | clause {members members' : List (String × Json)} {value value' : Json}
      (query : Json.lookup "query" members = some value) (query' : Json.lookup "query" members' = some value')
      (apart : FactorsApart value value')
      (others : ∀ key, key ≠ "query" → Json.lookup key members = Json.lookup key members') :
      ClauseApart (.object members) (.object members')

end

theorem EachApart.refl (items : List Json) : EachApart items items := by
  induction items with
  | nil => exact nil
  | cons item rest ih => exact cons (.same item) ih

theorem ClausesApart.lists_or_not {clauses clauses' : Option Json} (h : ClausesApart clauses clauses') :
    (∃ items items', clauses = some (.array items) ∧ clauses' = some (.array items') ∧
        EachApart items items') ∨
      (∀ items, clauses ≠ some (.array items)) ∧ ∀ items, clauses' ≠ some (.array items) := by
  cases h with
  | same =>
      by_cases hlist : ∃ items, clauses = some (.array items)
      · obtain ⟨items, rfl⟩ := hlist
        exact Or.inl ⟨items, items, rfl, rfl, .refl items⟩
      · rw [not_exists] at hlist
        exact Or.inr ⟨hlist, hlist⟩
  | lists each => exact Or.inl ⟨_, _, rfl, rfl, each⟩

/-! ## Queries that are read -/

/-- Two queries are the same without their factors. -/
def SameUnweighted (query query' : Query) : Prop := query.unweighted = query'.unweighted

/-- Two clauses take the same part with queries that are the same without their factors. -/
def SameClause (clause clause' : Occur × Query) : Prop :=
  clause.1 = clause'.1 ∧ SameUnweighted clause.2 clause'.2

theorem sameUnweighted_boolean {clauses clauses' : List (Occur × Query)}
    (h : List.Forall₂ SameClause clauses clauses') : SameUnweighted (boolean clauses) (boolean clauses') := by
  have hclauses : unweightedClauses clauses = unweightedClauses clauses' := by
    rw [unweightedClauses_eq_map, unweightedClauses_eq_map]
    induction h with
    | nil => rfl
    | cons hfirst _ ih => rw [List.map_cons, List.map_cons, ih, hfirst.1, hfirst.2]
  rw [SameUnweighted, unweighted, unweighted, hclauses]

theorem map_unweighted_anyValue (field : Field) (values : List String) (weight : Binary32) :
    (anyValue field values weight).map unweighted = values.map (term field.label) := by
  rw [anyValue, List.map_map]
  apply List.map_congr_left
  intro value _
  rw [Function.comp_apply, unweighted_boosted, unweighted]

theorem map_unweighted_wordsOrAll (field : Field) (words : List String) (weight : Binary32) :
    (wordsOrAll field words weight).map unweighted =
      words.map (term field.label) ++ if 2 ≤ words.length then [allTerms field.label words] else [] := by
  rw [wordsOrAll, List.map_append, map_unweighted_anyValue]
  split
  · rw [List.map_singleton, unweighted_boosted, unweighted]
  · rfl

/-- Weights are all in factors and in the tie breaker. -/
theorem sameUnweighted_freeText (weights weights' : TextWeights) (text : String) :
    SameUnweighted (freeText weights text) (freeText weights' text) := by
  rw [SameUnweighted, freeText, freeText, unweighted, unweighted, unweightedAll_eq_map, unweightedAll_eq_map]
  simp only [freeTextDisjuncts, List.map_append, map_unweighted_anyValue, map_unweighted_wordsOrAll]

section Reading

variable (now : Int64) (weights weights' : TextWeights)

/-- Of the kinds that contain no other nodes only free texts have weights. -/
theorem agree_leaf_weights (node : Node) (kind : LeafKind) :
    Agree SameUnweighted (node.leaf ⟨now, weights⟩ kind) (node.leaf ⟨now, weights'⟩ kind) := by
  cases kind with
  | freeText =>
      apply (Agree.refl (node.text "text")).map
      rintro text _ rfl
      exact sameUnweighted_freeText weights weights' text
  | _ => exact (Agree.refl _).mono fun _ _ h => congrArg unweighted h

theorem agree_weighted {node node' : Node} {query query' : Query}
    (hfactor : Agree (fun _ _ => True) node.factor node'.factor) (h : SameUnweighted query query') :
    Agree SameUnweighted (node.weighted query) (node'.weighted query') := by
  apply hfactor.map
  intro factor factor' _
  rw [SameUnweighted, unweighted_boosted, unweighted_boosted, h]

/-- A factor that is a number is read. -/
theorem exists_factor {members : List (String × Json)} (h : FactorIsNumber members) (type : String) :
    ∃ factor, Node.factor ⟨type, members⟩ = .ok factor := by
  refine Node.obeys_factor.ok_iff.2 (List.forall_mem_singleton.2 ?_)
  intro v hv
  obtain ⟨hlookup, hnull⟩ := Option.filter_eq_some_iff.1 hv
  rcases h v hlookup with hv | hv
  · rw [hv] at hnull
    cases hnull
  · exact hv

/-- Members without a type make no node. -/
theorem ofJson_eq_error {members : List (String × Json)}
    (h : ∀ type, Json.lookup "type" members ≠ some (.string type)) :
    ∃ e, Node.ofJson (.object members) = .error e := by
  cases hnode : Node.ofJson (.object members) with
  | error e => exact ⟨e, rfl⟩
  | ok node =>
      obtain ⟨hmembers, htype⟩ := Node.ofJson_eq_ok_iff.1 hnode
      cases hmembers
      exact absurd htype (h node.type)

/-- A member that is no list is refused. -/
theorem list_eq_error {members : List (String × Json)} {key : String}
    (h : ∀ items, Json.lookup key members ≠ some (.array items)) (type : String) :
    ∃ e, Node.list ⟨type, members⟩ key = .error e := by
  cases hlist : Node.list ⟨type, members⟩ key with
  | error e => exact ⟨e, rfl⟩
  | ok items => exact absurd (Option.filter_eq_some_iff.1 (Node.get?_of_list hlist)).1 (h items)

section Members

variable {members members' : List (String × Json)}
  (boost : Json.lookup "boost" members = Json.lookup "boost" members' ∨
    FactorIsNumber members ∧ FactorIsNumber members')
  (clauses : ClausesApart (Json.lookup "clauses" members) (Json.lookup "clauses" members'))
  (others : ∀ key, key ≠ "boost" → key ≠ "clauses" → Json.lookup key members = Json.lookup key members')

include boost in
/-- Factors that are alike, or are numbers, are both refused or both read. -/
theorem agree_factor (type : String) :
    Agree (fun _ _ => True) (Node.factor ⟨type, members⟩) (Node.factor ⟨type, members'⟩) := by
  rcases boost with hsame | ⟨hnumber, hnumber'⟩
  · have hget : Node.get? ⟨type, members⟩ "boost" = Node.get? ⟨type, members'⟩ "boost" := by
      rw [Node.get?, Node.get?, hsame]
    exact (Node.agree_factor hget).mono fun _ _ _ => trivial
  · obtain ⟨factor, hfactor⟩ := exists_factor hnumber type
    obtain ⟨factor', hfactor'⟩ := exists_factor hnumber' type
    rw [hfactor, hfactor']
    exact Agree.values trivial

include others in
/-- Nodes that have all other members alike have those alike that a leaf is read from. -/
theorem agreeOn_keys (type : String) (kind : LeafKind) :
    Node.AgreeOn ⟨type, members⟩ ⟨type, members'⟩ kind.keys := by
  intro key hkey
  have hboost : key ≠ "boost" := fun h => kind.notMem_keys.1 (h ▸ hkey)
  have hclauses : key ≠ "clauses" := fun h => kind.notMem_keys.2 (h ▸ hkey)
  rw [Node.get?, Node.get?, others key hboost hclauses]

include clauses in
/-- Lists of clauses agree if clauses do that are the same but for factors. -/
theorem agree_list (type : String) :
    Agree (fun items items' => Json.lookup "clauses" members = some (.array items) ∧ EachApart items items')
      (Node.list ⟨type, members⟩ "clauses") (Node.list ⟨type, members'⟩ "clauses") := by
  rcases clauses.lists_or_not with ⟨items, items', hitems, hitems', each⟩ | ⟨hother, hother'⟩
  · have hlist : Node.list ⟨type, members⟩ "clauses" = .ok items := by
      rw [Node.list, Node.get?, hitems]
      rfl
    have hlist' : Node.list ⟨type, members'⟩ "clauses" = .ok items' := by
      rw [Node.list, Node.get?, hitems']
      rfl
    rw [hlist, hlist']
    exact Agree.values ⟨hitems, each⟩
  · obtain ⟨e, he⟩ := list_eq_error hother type
    obtain ⟨e', he'⟩ := list_eq_error hother' type
    rw [he, he']
    exact Agree.errors e e'

include boost clauses others in
/-- Nodes that are the same but for factors are read alike, if what is in lists of clauses is. -/
theorem agree_members
    (h : ∀ (node node' : Node) (items items' : List Json),
      Json.lookup "clauses" members = some (.array items) → EachApart items items' →
        Agree (List.Forall₂ SameClause) (items.mapM (clauseOfJson ⟨now, weights⟩ node))
          (items'.mapM (clauseOfJson ⟨now, weights'⟩ node'))) :
    Agree SameUnweighted (ofJson ⟨now, weights⟩ (.object members))
      (ofJson ⟨now, weights'⟩ (.object members')) := by
  have hsame := others "type" (by decide) (by decide)
  by_cases htype : ∃ type, Json.lookup "type" members = some (.string type)
  · obtain ⟨type, htype⟩ := htype
    have hnode : Node.ofJson (.object members) = .ok ⟨type, members⟩ :=
      Node.ofJson_eq_ok_iff.2 ⟨rfl, htype⟩
    have hnode' : Node.ofJson (.object members') = .ok ⟨type, members'⟩ :=
      Node.ofJson_eq_ok_iff.2 ⟨rfl, hsame ▸ htype⟩
    have hkinds : Node.kind? ⟨type, members'⟩ = Node.kind? ⟨type, members⟩ := rfl
    rw [ofJson_of_node hnode, ofJson_of_node hnode', hkinds]
    cases Node.kind? ⟨type, members⟩ with
    | none => exact Agree.errors _ _
    | some kind =>
        cases kind with
        | leaf kind =>
            have hleaf := (Node.agree_leaf ⟨now, weights⟩ kind (agreeOn_keys others type kind)).of_same
              (agree_leaf_weights now weights weights' ⟨type, members'⟩ kind)
            exact hleaf.bind fun _ _ hquery => agree_weighted (agree_factor boost type) hquery
        | boolean =>
            apply (agree_list clauses type).bind
            rintro items items' ⟨hitems, each⟩
            rw [clausesOfJson_eq_mapM, clausesOfJson_eq_mapM]
            apply (h _ _ items items' hitems each).bind
            exact fun _ _ hclauses => agree_weighted (agree_factor boost type) (sameUnweighted_boolean hclauses)
  · rw [not_exists] at htype
    obtain ⟨e, he⟩ := ofJson_eq_error htype
    obtain ⟨e', he'⟩ := ofJson_eq_error fun type => hsame ▸ htype type
    rw [ofJson_of_error he, ofJson_of_error he']
    exact Agree.errors e e'

end Members

variable {now weights weights'}

/-! ## The recursion -/

mutual

/-- Values that are the same but for factors are both refused, or are read to queries that are the same without
their factors. -/
theorem agree_ofJson {value value' : Json} (apart : FactorsApart value value') :
    Agree SameUnweighted (ofJson ⟨now, weights⟩ value) (ofJson ⟨now, weights'⟩ value') := by
  cases apart with
  | same =>
      cases hvalue : value with
      | object members =>
          apply agree_members now weights weights' (Or.inl rfl) (.same _) fun _ _ _ => rfl
          intro node node' items items' hitems each
          exact agree_each node node' each
      | _ =>
          rw [ofJson_of_error rfl, ofJson_of_error rfl]
          exact Agree.errors _ _
  | node boost clauses others =>
      apply agree_members now weights weights' boost clauses others
      intro node node' items items' hitems each
      exact agree_each node node' each
termination_by sizeOf value
decreasing_by
  · have hclauses := Json.sizeOf_lookup hitems
    subst_vars
    simp only [Json.object.sizeOf_spec, Json.array.sizeOf_spec] at hclauses ⊢
    omega
  · have hclauses := Json.sizeOf_lookup hitems
    simp only [Json.object.sizeOf_spec, Json.array.sizeOf_spec] at hclauses ⊢
    omega

theorem agree_each (node node' : Node) {items items' : List Json} (each : EachApart items items') :
    Agree (List.Forall₂ SameClause) (items.mapM (clauseOfJson ⟨now, weights⟩ node))
      (items'.mapM (clauseOfJson ⟨now, weights'⟩ node')) := by
  cases each with
  | nil => exact Agree.values .nil
  | cons first others =>
      rw [List.mapM_cons, List.mapM_cons]
      apply (agree_clause node node' first).bind
      intro clause clause' hclause
      apply (agree_each node node' others).map
      exact fun _ _ hrest => .cons hclause hrest
termination_by sizeOf items

/-- Clauses that are the same but for factors take the same part, or both are refused. -/
theorem agree_clause (node node' : Node) {item item' : Json} (apart : ClauseApart item item') :
    Agree SameClause (clauseOfJson ⟨now, weights⟩ node item) (clauseOfJson ⟨now, weights'⟩ node' item') := by
  cases apart with
  | same =>
      cases hitem : item with
      | object members =>
          cases hquery : Json.lookup "query" members with
          | some value => exact agree_clauseOfJson node node' rfl hquery hquery (agree_ofJson (.same value))
          | none =>
              apply (agree_clauseOccur node node' rfl).bind_same
              intro occur
              rw [hquery]
              exact Agree.errors _ _
      | _ => exact Agree.errors _ _
  | clause query query' apart others =>
      have hpart : part? _ = part? _ := congrArg (fun word => (word.bind Json.string?).bind occur?)
        (others "occur" (by decide))
      exact agree_clauseOfJson node node' hpart query query' (agree_ofJson apart)
termination_by sizeOf item
decreasing_by
  · have hvalue := Json.sizeOf_lookup hquery
    subst_vars
    simp only [Json.object.sizeOf_spec]
    omega
  · have hvalue := Json.sizeOf_lookup query
    simp only [Json.object.sizeOf_spec]
    omega

end

end Reading

end Query

end EventFinder
