import EventFinder.Proofs.Query.Grammar
import EventFinder.Proofs.Search.FreeText
import EventFinder.Service

/-!
# Queries that look in fixed fields

Some kinds of nodes let a query name the fields to look in, and a name may be unknown or a field may hold
other values than the query is about. The other kinds look in fields of their own. A query of nodes of
those kinds alone (`HasFixedFields`) has a plan once it is read, and every search for it has an answer
(`execute_of_fixedFields`): each kind looks for texts where texts are, and for numbers where numbers of its
type are.
-/

set_option autoImplicit false

namespace EventFinder

namespace Query

/-- Does a kind of node look in fields of its own? -/
def LeafKind.hasFixedFields : LeafKind → Bool
  | .matchAll | .freeText | .tags | .future | .past | .locationBox | .locationCircle => true
  | .term | .integerRange _ | .realRange _ | .box | .circle => false

/-- No node of the query, at any depth, names a field. -/
inductive HasFixedFields : Json → Prop where
  | leaf {value : Json} {node : Node} {kind : LeafKind} (isOf : node.IsOf value (.leaf kind))
      (fixed : kind.hasFixedFields = true) : HasFixedFields value
  | boolean {value : Json} {node : Node} (isOf : node.IsOf value .boolean)
      (clauses : ∀ items members query, node.get? "clauses" = some (.array items) → .object members ∈ items →
        Json.lookup "query" members = some query → HasFixedFields query) : HasFixedFields value

/-! ## The queries of such nodes -/

/-- Latitudes and longitudes are binary numbers, as the ends of a box are. -/
theorem runnable_inBox (box : BoundingBox Binary64) :
    (inBox Field.latitude.label Field.longitude.label box).Runnable := by
  refine ⟨_, finds_allOf fun query hquery => ?_⟩
  rcases List.mem_cons.1 hquery with rfl | hquery
  · exact ⟨_, finds_range rfl⟩
  · rw [List.mem_singleton.1 hquery]
    exact ⟨_, finds_range rfl⟩

section Nodes

variable {context : Context} {node : Node} {query : Query}

/-- What is read as a circle is a box. -/
theorem exists_box_of_circle {latitudeField longitudeField : String}
    (h : node.circle latitudeField longitudeField = .ok query) :
    ∃ box, query = inBox latitudeField longitudeField box := by
  obtain ⟨latitude, -, h⟩ := bind_eq_ok_iff.1 h
  obtain ⟨longitude, -, h⟩ := bind_eq_ok_iff.1 h
  obtain ⟨radius, -, h⟩ := bind_eq_ok_iff.1 h
  rw [inCircle] at h
  split at h
  · cases h
  · cases h
    exact ⟨_, rfl⟩

theorem runnable_hasTag {item : Json} (h : node.hasTag item = .ok query) : query.Runnable := by
  rw [Node.hasTag] at h
  split at h
  · cases h
    exact ⟨_, finds_term rfl _⟩
  · cases h

/-- A node of a kind with fields of its own is read as a query that can be run. -/
theorem runnable_leaf {kind : LeafKind} (fixed : kind.hasFixedFields = true)
    (h : node.leaf context kind = .ok query) : query.Runnable := by
  cases kind with
  | matchAll =>
      cases h
      exact ⟨_, finds_matchAll⟩
  | freeText =>
      obtain ⟨text, -, h⟩ := bind_eq_ok_iff.1 h
      cases h
      exact ⟨_, finds_freeText context.weights text⟩
  | tags =>
      obtain ⟨values, -, h⟩ := bind_eq_ok_iff.1 h
      obtain ⟨queries, hqueries, h⟩ := bind_eq_ok_iff.1 h
      cases h
      refine ⟨_, finds_allOf fun query hquery => ?_⟩
      obtain ⟨item, -, hitem⟩ := exists_of_mem_mapM hqueries hquery
      exact runnable_hasTag hitem
  | future =>
      cases h
      exact ⟨_, finds_range rfl⟩
  | past =>
      cases h
      exact ⟨_, finds_range rfl⟩
  | locationBox =>
      obtain ⟨box, -, h⟩ := bind_eq_ok_iff.1 h
      cases h
      exact runnable_inBox box
  | locationCircle =>
      obtain ⟨box, rfl⟩ := exists_box_of_circle h
      exact runnable_inBox box
  | term => cases fixed
  | integerRange => cases fixed
  | realRange => cases fixed
  | box => cases fixed
  | circle => cases fixed

theorem exists_boosted_of_weighted {query' : Query} (h : node.weighted query' = .ok query) :
    ∃ factor, query = query'.boosted factor := by
  obtain ⟨factor, -, h⟩ := bind_eq_ok_iff.1 h
  cases h
  exact ⟨factor, rfl⟩

/-- A clause is read from an object, and its query from the member that is called so. -/
theorem exists_query_of_clause {item : Json} {clause : Occur × Query}
    (h : clauseOfJson context node item = .ok clause) :
    ∃ members value, item = .object members ∧ Json.lookup "query" members = some value ∧
      ofJson context value = .ok clause.2 := by
  cases item with
  | object members =>
      obtain ⟨occur, -, h⟩ := bind_eq_ok_iff.1 h
      split at h
      · cases h
      · rename_i value hvalue
        obtain ⟨query', hquery', h⟩ := bind_eq_ok_iff.1 h
        cases h
        exact ⟨members, value, rfl, hvalue, hquery'⟩
  | _ => cases h

end Nodes

/-! ## Whole queries -/

/-- What is read from a query that names no field can be run. -/
theorem runnable_of_fixedFields {context : Context} {value : Json} {query : Query}
    (fixed : HasFixedFields value) (read : ofJson context value = .ok query) : query.Runnable := by
  induction fixed generalizing query with
  | leaf isOf fixed =>
      rw [isOf.ofJson_leaf context] at read
      obtain ⟨query', hleaf, hweighted⟩ := bind_eq_ok_iff.1 read
      obtain ⟨factor, rfl⟩ := exists_boosted_of_weighted hweighted
      exact (runnable_leaf fixed hleaf).boosted factor
  | boolean isOf clauses ih =>
      rw [isOf.ofJson_boolean context] at read
      obtain ⟨items, hitems, read⟩ := bind_eq_ok_iff.1 read
      obtain ⟨found, hfound, hweighted⟩ := bind_eq_ok_iff.1 read
      obtain ⟨factor, rfl⟩ := exists_boosted_of_weighted hweighted
      refine Runnable.boosted ⟨_, finds_boolean fun clause hclause => ?_⟩ factor
      -- Each clause was read from an item, whose query is one of those below this node.
      obtain ⟨item, hitem, hclause⟩ := exists_of_mem_mapM hfound hclause
      obtain ⟨members, below, rfl, hbelow, hread⟩ := exists_query_of_clause hclause
      exact ih items members below (Node.get?_of_list hitems) hitem hbelow hread

/-- A query that names no field has, once it is read, a plan. Every search for it, of whatever window and with
whatever wishes, has an answer on every index: the one that the hits of the plan give. -/
theorem execute_of_fixedFields {context : Context} {value : Json} {query : Query}
    (fixed : HasFixedFields value) (read : ofJson context value = .ok query) :
    ∃ plan, query.resolve = .ok plan ∧
      ∀ (service : Service) (request : Request), request.query = query →
        service.execute request = .ok (Results.ofHits request (service.index.snapshot.hits plan)) := by
  obtain ⟨P, plan, hplan, hfields, -⟩ := runnable_of_fixedFields fixed read
  refine ⟨plan, hplan, fun service request hquery => ?_⟩
  have hrequest : Snapshot.plan request.query = .ok plan := hquery ▸ plan_of_resolve hplan hfields
  rw [Service.execute, Snapshot.search_of_plan hrequest]
  rfl

/-- Past events, with a factor. -/
def pastNode : Node := ⟨"past events", [("type", .string "past events"), ("boost", .number (.integer 2))]⟩

/-- Events that are not past. -/
def notPastNode : Node :=
  ⟨"Boolean query",
    [("type", .string "Boolean query"),
     ("clauses", .array [.object [("occur", .string "must not"), ("query", .object pastNode.members)]])]⟩

/-- What is not past is searched for in an index without records. -/
theorem execute_not_past :
    ∃ query, ofJson ⟨0, .standard⟩ (.object notPastNode.members) = .ok query ∧
      ∃ results, Service.execute ⟨.standard, .empty⟩ (.standard query) = .ok results := by
  have hpast : pastNode.IsOf (.object pastNode.members) (.leaf .past) := ⟨rfl, rfl, by decide +kernel⟩
  have hnotPast : notPastNode.IsOf (.object notPastNode.members) .boolean := ⟨rfl, rfl, by decide +kernel⟩
  have fixed := HasFixedFields.boolean hnotPast fun items members query hitems hitem hquery => by
    cases hitems
    cases List.mem_singleton.1 hitem
    cases hquery
    exact HasFixedFields.leaf hpast rfl
  have hboost : (Check.number "boost").Met pastNode := fun v hv => by
    cases hv
    exact ⟨_, rfl⟩
  have hknown : lowerCase "must not" ∈ occurWords := by decide +kernel
  have hclause : WellFormedClause
      (.object [("occur", .string "must not"), ("query", .object pastNode.members)]) :=
    .clause rfl hknown rfl (.leaf hpast (List.forall_mem_singleton.2 hboost))
  have wellFormed := WellFormed.boolean hnotPast rfl (List.forall_mem_singleton.2 hclause)
    fun v hv => nomatch hv
  obtain ⟨query, read⟩ := (decides_ofJson ⟨0, .standard⟩ _).ok_iff.2 wellFormed
  obtain ⟨plan, -, hexecute⟩ := execute_of_fixedFields fixed read
  exact ⟨query, read, _, hexecute ⟨.standard, .empty⟩ (.standard query) rfl⟩

end Query

end EventFinder
