import EventFinder.Proofs.Query.Reading

/-!
# The grammar of queries

Which JSON values are queries is said without reading them: `WellFormed` is the grammar, and `FirstFault`
says of every other value which fault comes first in the order of reading. In that order a node's own members
come before its factor, a clause's part before its query, and clauses come from left to right, each with all
that is in it.

Reading gives a query exactly for the values of the grammar, and otherwise the first fault, whatever the
present time and the weights are (`ofJson_ok_iff_wellFormed`).
-/

set_option autoImplicit false

namespace EventFinder

namespace Query

/-! ## The checks of each kind of node -/

/-- The checks of a kind of node that contains no others, in order. -/
def LeafKind.checks : LeafKind → List Check
  | .matchAll | .future | .past => []
  | .term => [.text "field", .text "value"]
  | .integerRange width =>
      .text "field" :: (Node.integerBoundChecks width "minimum" "includeMinimum" ++
        Node.integerBoundChecks width "maximum" "includeMaximum")
  | .realRange _ =>
      .text "field" :: (Node.realBoundChecks "minimum" "includeMinimum" ++
        Node.realBoundChecks "maximum" "includeMaximum")
  | .box => [.text "latitudeField", .text "longitudeField"] ++ Node.boxChecks
  | .circle => [.text "latitudeField", .text "longitudeField"] ++ Node.circleChecks
  | .freeText => [.text "text"]
  | .tags => [.list "values", .texts "values"]
  | .locationBox => Node.boxChecks
  | .locationCircle => Node.circleChecks

open Node in
theorem Node.obeys_leaf (context : Context) (node : Node) (kind : LeafKind) :
    node.Obeys (node.leaf context kind) kind.checks := by
  cases kind with
  | matchAll => exact Obeys.nil node _
  | term => exact obeys_text.bind fun _ _ => obeys_text.map
  | integerRange width =>
      exact obeys_text.bind fun _ _ => (obeys_integerBound width _).bind fun _ _ =>
        (obeys_integerBound width _).map
  | realRange width =>
      exact obeys_text.bind fun _ _ => (obeys_realBound width _).bind fun _ _ => (obeys_realBound width _).map
  | box => exact obeys_text.bind fun _ _ => obeys_text.bind fun _ _ => obeys_box.map
  | circle => exact obeys_text.bind fun _ _ => obeys_text.bind fun _ _ => obeys_circle _ _
  | freeText => exact obeys_text.map
  | tags => exact obeys_tags
  | future => exact Obeys.nil node _
  | past => exact Obeys.nil node _
  | locationBox => exact obeys_box.map
  | locationCircle => exact obeys_circle _ _

/-! ## The grammar -/

/-- The words for the part that a clause takes, in lower case. -/
def occurWords : List String := ["must", "should", "must not"]

/-- The value is an object whose type names the kind, in any letter case. -/
structure Node.IsOf (node : Node) (value : Json) (kind : Kind) : Prop where
  isObject : value = .object node.members
  hasType : Json.lookup "type" node.members = some (.string node.type)
  named : (lowerCase node.type, kind) ∈ kinds

mutual

/-- The values that are queries. -/
inductive WellFormed : Json → Prop where
  | leaf {value : Json} {node : Node} {kind : LeafKind} (isOf : node.IsOf value (.leaf kind))
      (met : ∀ check ∈ kind.checks ++ [.number "boost"], check.Met node) : WellFormed value
  | boolean {value : Json} {node : Node} {items : List Json} (isOf : node.IsOf value .boolean)
      (clauses : node.get? "clauses" = some (.array items)) (each : ∀ item ∈ items, WellFormedClause item)
      (boost : (Check.number "boost").Met node) : WellFormed value

/-- The values that are clauses. -/
inductive WellFormedClause : Json → Prop where
  | clause {members : List (String × Json)} {word : String} {value : Json}
      (occur : Json.lookup "occur" members = some (.string word)) (known : lowerCase word ∈ occurWords)
      (query : Json.lookup "query" members = some value) (wellFormed : WellFormed value) :
      WellFormedClause (.object members)

end

/-- What is wrong with a value that is no node of any kind. -/
inductive HeadFault : Json → QueryError → Prop where
  | notAnObject {value : Json} (other : ∀ members, value ≠ .object members) :
      HeadFault value (.invalid "query" .notAnObject)
  | untyped {members : List (String × Json)}
      (other : ∀ type, Json.lookup "type" members ≠ some (.string type)) :
      HeadFault (.object members) (.invalid "query" (.missing .text "type"))
  | unknown {node : Node} (hasType : Json.lookup "type" node.members = some (.string node.type))
      (unnamed : ∀ kind, (lowerCase node.type, kind) ∉ kinds) :
      HeadFault (.object node.members) (.unsupportedType node.type)

mutual

/-- The fault of a value that comes first. -/
inductive FirstFault : Json → QueryError → Prop where
  | head {value : Json} {e : QueryError} (fault : HeadFault value e) : FirstFault value e
  | leaf {value : Json} {node : Node} {kind : LeafKind} {e : QueryError} (isOf : node.IsOf value (.leaf kind))
      (fault : node.FirstUnmet (kind.checks ++ [.number "boost"]) e) : FirstFault value e
  | withoutClauses {value : Json} {node : Node} (isOf : node.IsOf value .boolean)
      (other : ∀ items, node.get? "clauses" ≠ some (.array items)) :
      FirstFault value (.invalid node.type (.missing .list "clauses"))
  | clause {value : Json} {node : Node} {before after : List Json} {item : Json} {e : QueryError}
      (isOf : node.IsOf value .boolean)
      (clauses : node.get? "clauses" = some (.array (before ++ item :: after)))
      (earlier : ∀ other ∈ before, WellFormedClause other) (fault : FaultInClause node item e) :
      FirstFault value e
  | boost {value : Json} {node : Node} {items : List Json} (isOf : node.IsOf value .boolean)
      (clauses : node.get? "clauses" = some (.array items)) (each : ∀ item ∈ items, WellFormedClause item)
      (unmet : ¬ (Check.number "boost").Met node) :
      FirstFault value (.invalid node.type (.mistyped "boost" .number))

/-- The fault of a clause of a node that comes first. -/
inductive FaultInClause : Node → Json → QueryError → Prop where
  | notAnObject {node : Node} {item : Json} (other : ∀ members, item ≠ .object members) :
      FaultInClause node item (.invalid node.type .clauseNotAnObject)
  | withoutOccur {node : Node} {members : List (String × Json)}
      (other : ∀ word, Json.lookup "occur" members ≠ some (.string word)) :
      FaultInClause node (.object members) (.invalid node.type .clauseWithoutOccur)
  | unknownOccur {node : Node} {members : List (String × Json)} {word : String}
      (occur : Json.lookup "occur" members = some (.string word)) (unknown : lowerCase word ∉ occurWords) :
      FaultInClause node (.object members) (.invalid node.type (.unknownOccur word))
  | withoutQuery {node : Node} {members : List (String × Json)} {word : String}
      (occur : Json.lookup "occur" members = some (.string word)) (known : lowerCase word ∈ occurWords)
      (missing : Json.lookup "query" members = none) :
      FaultInClause node (.object members) (.invalid node.type .clauseWithoutQuery)
  | query {node : Node} {members : List (String × Json)} {word : String} {value : Json} {e : QueryError}
      (occur : Json.lookup "occur" members = some (.string word)) (known : lowerCase word ∈ occurWords)
      (query : Json.lookup "query" members = some value) (fault : FirstFault value e) :
      FaultInClause node (.object members) e

end

/-! ## Nodes and their kinds -/

theorem lookup_eq_some_iff_mem {α β : Type} [BEq α] [LawfulBEq α] {table : List (α × β)}
    (h : (table.map Prod.fst).Nodup) {a : α} {b : β} : table.lookup a = some b ↔ (a, b) ∈ table := by
  induction table with
  | nil => simp
  | cons row rest ih =>
      obtain ⟨a', b'⟩ := row
      rw [List.map_cons, List.nodup_cons] at h
      rw [List.lookup_cons, List.mem_cons, Prod.mk.injEq]
      by_cases ha : a = a'
      · have hrest : (a, b) ∉ rest := fun hmem => h.1 (List.mem_map.2 ⟨(a, b), hmem, ha⟩)
        simp [ha ▸ hrest, ha, eq_comm]
      · simp [beq_eq_false_iff_ne.2 ha, ha, ih h.2]

section Nodes

variable {value : Json} {node node' : Node} {kind kind' : Kind} {e : QueryError}

theorem Node.kind?_eq_some_iff : node.kind? = some kind ↔ (lowerCase node.type, kind) ∈ kinds :=
  lookup_eq_some_iff_mem (by decide)

theorem Node.ofJson_eq_ok_iff :
    Node.ofJson value = .ok node ↔
      value = .object node.members ∧ Json.lookup "type" node.members = some (.string node.type) := by
  constructor
  · intro h
    unfold Node.ofJson at h
    split at h
    · split at h
      · rename_i hlookup
        cases h
        exact ⟨rfl, hlookup⟩
      · cases h
    · cases h
  · rintro ⟨rfl, hlookup⟩
    rw [Node.ofJson]
    simp only [hlookup]

theorem Node.isOf_iff : node.IsOf value kind ↔ Node.ofJson value = .ok node ∧ node.kind? = some kind := by
  rw [Node.ofJson_eq_ok_iff, Node.kind?_eq_some_iff]
  exact ⟨fun h => ⟨⟨h.isObject, h.hasType⟩, h.named⟩, fun h => ⟨h.1.1, h.1.2, h.2⟩⟩

/-- A node that contains no others is read by its kind, and then gets its factor. -/
theorem Node.IsOf.ofJson_leaf (context : Context) {kind : LeafKind} (isOf : node.IsOf value (.leaf kind)) :
    Query.ofJson context value = node.leaf context kind >>= node.weighted := by
  obtain ⟨hnode, hkind⟩ := Node.isOf_iff.1 isOf
  rw [ofJson_of_node hnode, hkind]

/-- A boolean query is read clause by clause, and then gets its factor. -/
theorem Node.IsOf.ofJson_boolean (context : Context) (isOf : node.IsOf value .boolean) :
    Query.ofJson context value = (do
      let items ← node.list "clauses"
      let clauses ← items.mapM (clauseOfJson context node)
      node.weighted (.boolean clauses)) := by
  obtain ⟨hnode, hkind⟩ := Node.isOf_iff.1 isOf
  rw [ofJson_of_node hnode, hkind]
  simp only [clausesOfJson_eq_mapM]

/-- A value is one node, of one kind. -/
theorem Node.IsOf.unique (h : node.IsOf value kind) (h' : node'.IsOf value kind') :
    node = node' ∧ kind = kind' := by
  rw [Node.isOf_iff] at h h'
  have hnode : node = node' := by
    rw [← Except.ok.injEq (ε := QueryError), ← h.1, h'.1]
  subst hnode
  exact ⟨rfl, Option.some.inj (h.2.symm.trans h'.2)⟩

theorem headFault_of_ofJson (h : Node.ofJson value = .error e) : HeadFault value e := by
  cases value with
  | object members =>
      rw [Node.ofJson] at h
      split at h
      · cases h
      · rename_i hother
        cases h
        exact HeadFault.untyped fun type htype => hother type htype
  | _ =>
      cases h
      exact HeadFault.notAnObject fun _ hobject => nomatch hobject

/-- A value is a node of some kind, or it has a fault that says why not. -/
theorem isOf_or_headFault (value : Json) :
    (∃ (node : Node) (kind : Kind), node.IsOf value kind) ∨ ∃ e, HeadFault value e := by
  cases hnode : Node.ofJson value with
  | error e => exact Or.inr ⟨e, headFault_of_ofJson hnode⟩
  | ok node =>
      cases hkind : node.kind? with
      | some kind => exact Or.inl ⟨node, kind, Node.isOf_iff.2 ⟨hnode, hkind⟩⟩
      | none =>
          obtain ⟨rfl, htype⟩ := Node.ofJson_eq_ok_iff.1 hnode
          refine Or.inr ⟨_, HeadFault.unknown htype fun kind hmem => ?_⟩
          rw [Node.kind?_eq_some_iff.2 hmem] at hkind
          cases hkind

/-- What has such a fault is refused for it. -/
theorem ofJson_of_headFault (context : Context) (h : HeadFault value e) :
    ofJson context value = .error e := by
  cases h with
  | notAnObject other =>
      apply ofJson_of_error
      cases value with
      | object members => exact absurd rfl (other members)
      | _ => rfl
  | @untyped members other =>
      apply ofJson_of_error
      rw [Node.ofJson]
      split
      · rename_i type htype
        exact absurd htype (other type)
      · rfl
  | @unknown node hasType unnamed =>
      have hkind : node.kind? = none := by
        rw [Option.eq_none_iff_forall_ne_some]
        exact fun kind hkind => unnamed kind (Node.kind?_eq_some_iff.1 hkind)
      rw [ofJson_of_node (Node.ofJson_eq_ok_iff.2 ⟨rfl, hasType⟩), hkind]

theorem HeadFault.not_isOf (h : HeadFault value e) : ¬ node.IsOf value kind := by
  intro isOf
  cases h with
  | notAnObject other => exact other _ isOf.isObject
  | untyped other =>
      cases isOf.isObject
      exact other _ isOf.hasType
  | @unknown node' hasType unnamed =>
      obtain ⟨hnode, hkind⟩ := Node.isOf_iff.1 isOf
      rw [Node.ofJson_eq_ok_iff.2 ⟨rfl, hasType⟩] at hnode
      cases hnode
      exact unnamed kind isOf.named

end Nodes

/-! ## What the grammar says of a node

A value that is a node of some kind is judged by the rules for that kind alone. -/

section Inversion

variable {value : Json} {node : Node} {kind : Kind} {e : QueryError}

theorem wellFormed_iff (isOf : node.IsOf value kind) :
    WellFormed value ↔
      match kind with
      | .leaf kind => ∀ check ∈ kind.checks ++ [.number "boost"], check.Met node
      | .boolean => ∃ items, node.get? "clauses" = some (.array items) ∧
          (∀ item ∈ items, WellFormedClause item) ∧ ∀ check ∈ [Check.number "boost"], check.Met node := by
  constructor
  · intro h
    cases h with
    | leaf isOf' met =>
        obtain ⟨rfl, rfl⟩ := isOf.unique isOf'
        exact met
    | boolean isOf' clauses each boost =>
        obtain ⟨rfl, rfl⟩ := isOf.unique isOf'
        exact ⟨_, clauses, each, List.forall_mem_singleton.2 boost⟩
  · intro h
    cases kind with
    | leaf kind => exact WellFormed.leaf isOf h
    | boolean =>
        obtain ⟨items, clauses, each, boost⟩ := h
        exact WellFormed.boolean isOf clauses each (List.forall_mem_singleton.1 boost)

theorem firstFault_iff (isOf : node.IsOf value kind) :
    FirstFault value e ↔
      match kind with
      | .leaf kind => node.FirstUnmet (kind.checks ++ [.number "boost"]) e
      | .boolean =>
          (∀ items, node.get? "clauses" ≠ some (.array items)) ∧
              e = .invalid node.type (.missing .list "clauses") ∨
            ∃ items, node.get? "clauses" = some (.array items) ∧
              (FirstRefused WellFormedClause (FaultInClause node) items e ∨
                (∀ item ∈ items, WellFormedClause item) ∧ node.FirstUnmet [.number "boost"] e) := by
  constructor
  · intro h
    cases h with
    | head fault => exact absurd isOf fault.not_isOf
    | leaf isOf' fault =>
        obtain ⟨rfl, rfl⟩ := isOf.unique isOf'
        exact fault
    | withoutClauses isOf' other =>
        obtain ⟨rfl, rfl⟩ := isOf.unique isOf'
        exact Or.inl ⟨other, rfl⟩
    | clause isOf' clauses earlier fault =>
        obtain ⟨rfl, rfl⟩ := isOf.unique isOf'
        exact Or.inr ⟨_, clauses, Or.inl ⟨_, _, _, rfl, earlier, fault⟩⟩
    | boost isOf' clauses each unmet =>
        obtain ⟨rfl, rfl⟩ := isOf.unique isOf'
        exact Or.inr ⟨_, clauses, Or.inr ⟨each, Node.firstUnmet_singleton_iff.2 ⟨unmet, rfl⟩⟩⟩
  · intro h
    cases kind with
    | leaf kind => exact FirstFault.leaf isOf h
    | boolean =>
        rcases h with ⟨other, rfl⟩ |
          ⟨items, clauses, ⟨before, item, after, rfl, earlier, fault⟩ | ⟨each, boost⟩⟩
        · exact FirstFault.withoutClauses isOf other
        · exact FirstFault.clause isOf clauses earlier fault
        · obtain ⟨unmet, rfl⟩ := Node.firstUnmet_singleton_iff.1 boost
          exact FirstFault.boost isOf clauses each unmet

/-- A value that is no node of any kind has the one fault that says so. -/
theorem decides_of_headFault (context : Context) (h : HeadFault value e) :
    Decides (ofJson context value) (WellFormed value) (FirstFault value) := by
  rw [ofJson_of_headFault context h]
  apply Decides.of_error
  · intro hwell
    cases hwell with
    | leaf isOf => exact h.not_isOf isOf
    | boolean isOf => exact h.not_isOf isOf
  · intro e'
    constructor
    · intro hfault
      cases hfault with
      | head fault =>
          have herror := (ofJson_of_headFault context fault).symm.trans (ofJson_of_headFault context h)
          exact Except.error.inj herror
      | leaf isOf => exact absurd isOf h.not_isOf
      | withoutClauses isOf => exact absurd isOf h.not_isOf
      | clause isOf => exact absurd isOf h.not_isOf
      | boost isOf => exact absurd isOf h.not_isOf
    · rintro rfl
      exact FirstFault.head h

end Inversion

/-! ## Reading decides by the grammar -/

theorem exists_occur?_iff {word : String} :
    (∃ occur, occur? word = some occur) ↔ lowerCase word ∈ occurWords := by
  rw [occur?]
  split
  · rename_i h
    simp [occurWords, h]
  · rename_i h
    simp [occurWords, h]
  · rename_i h
    simp [occurWords, h]
  · rename_i hmust hshould hnot
    simp only [occurWords, List.mem_cons, List.not_mem_nil, or_false]
    exact iff_of_false (fun ⟨_, h⟩ => nomatch h) fun h => h.elim hmust fun h => h.elim hshould hnot

section Clauses

variable {context : Context} {node : Node} {members : List (String × Json)} {e : QueryError}

/-- The clause takes a part. -/
def TakesPart (members : List (String × Json)) : Prop :=
  ∃ word, Json.lookup "occur" members = some (.string word) ∧ lowerCase word ∈ occurWords

theorem decides_clauseOccur (node : Node) (members : List (String × Json)) :
    Decides (node.clauseOccur members) (TakesPart members) fun e =>
      (∀ word, Json.lookup "occur" members ≠ some (.string word)) ∧
          e = .invalid node.type .clauseWithoutOccur ∨
        ∃ word, Json.lookup "occur" members = some (.string word) ∧ lowerCase word ∉ occurWords ∧
          e = .invalid node.type (.unknownOccur word) := by
  have hview : ∀ word, (Json.lookup "occur" members).bind Json.string? = some word ↔
      Json.lookup "occur" members = some (.string word) := fun word => by
    rw [Option.bind_eq_some_iff]
    simp only [Json.string?_eq_some_iff, exists_eq_right]
  rw [Node.clauseOccur]
  cases hword : (Json.lookup "occur" members).bind Json.string? with
  | none =>
      have hother : ∀ word, Json.lookup "occur" members ≠ some (.string word) := fun word h => by
        rw [(hview word).2 h] at hword
        cases hword
      apply Decides.of_error _ fun ⟨word, h, _⟩ => hother word h
      exact fun e => (or_iff_left fun ⟨word, h, _⟩ => hother word h).trans (and_iff_right hother)
  | some word =>
      have hlookup := (hview word).1 hword
      dsimp only
      cases hoccur : occur? word with
      | some occur =>
          have hknown := exists_occur?_iff.1 ⟨occur, hoccur⟩
          apply Decides.of_ok occur ⟨word, hlookup, hknown⟩
          simp [hlookup, hknown]
      | none =>
          have hunknown : lowerCase word ∉ occurWords := fun hknown => by
            obtain ⟨occur, h⟩ := exists_occur?_iff.2 hknown
            rw [hoccur] at h
            cases h
          apply Decides.of_error
          · simp [TakesPart, hlookup, hunknown]
          · simp [hlookup, hunknown]

theorem wellFormedClause_iff :
    WellFormedClause (.object members) ↔
      TakesPart members ∧ ∃ value, Json.lookup "query" members = some value ∧ WellFormed value := by
  constructor
  · rintro ⟨occur, known, query, wellFormed⟩
    exact ⟨⟨_, occur, known⟩, _, query, wellFormed⟩
  · rintro ⟨⟨_, occur, known⟩, _, query, wellFormed⟩
    exact WellFormedClause.clause occur known query wellFormed

theorem faultInClause_iff :
    FaultInClause node (.object members) e ↔
      ((∀ word, Json.lookup "occur" members ≠ some (.string word)) ∧
          e = .invalid node.type .clauseWithoutOccur ∨
        ∃ word, Json.lookup "occur" members = some (.string word) ∧ lowerCase word ∉ occurWords ∧
          e = .invalid node.type (.unknownOccur word)) ∨
      TakesPart members ∧
        (Json.lookup "query" members = none ∧ e = .invalid node.type .clauseWithoutQuery ∨
          ∃ value, Json.lookup "query" members = some value ∧ FirstFault value e) := by
  constructor
  · intro h
    cases h with
    | notAnObject other => exact absurd rfl (other members)
    | withoutOccur other => exact Or.inl (Or.inl ⟨other, rfl⟩)
    | unknownOccur occur unknown => exact Or.inl (Or.inr ⟨_, occur, unknown, rfl⟩)
    | withoutQuery occur known missing => exact Or.inr ⟨⟨_, occur, known⟩, Or.inl ⟨missing, rfl⟩⟩
    | query occur known query fault => exact Or.inr ⟨⟨_, occur, known⟩, Or.inr ⟨_, query, fault⟩⟩
  · rintro ((⟨other, rfl⟩ | ⟨_, occur, unknown, rfl⟩) |
      ⟨⟨_, occur, known⟩, ⟨missing, rfl⟩ | ⟨_, query, fault⟩⟩)
    · exact FaultInClause.withoutOccur other
    · exact FaultInClause.unknownOccur occur unknown
    · exact FaultInClause.withoutQuery occur known missing
    · exact FaultInClause.query occur known query fault

/-- A clause is decided by its part and then by its query. -/
theorem decides_clause (node : Node) {item : Json}
    (h : ∀ members value, item = .object members → Json.lookup "query" members = some value →
      Decides (ofJson context value) (WellFormed value) (FirstFault value)) :
    Decides (clauseOfJson context node item) (WellFormedClause item) (FaultInClause node item) := by
  cases item with
  | object members =>
      apply ((decides_clauseOccur node members).bind fun occur _ => ?_).congr wellFormedClause_iff.symm
        fun _ => faultInClause_iff.symm
      cases hquery : Json.lookup "query" members with
      | none =>
          apply Decides.of_error _ fun ⟨_, h, _⟩ => nomatch h
          exact fun e => (or_iff_left fun ⟨_, h, _⟩ => nomatch h).trans (and_iff_right rfl)
      | some value =>
          apply (h members value rfl hquery).map.congr
          · simp
          · simp
  | _ =>
      apply Decides.of_error _ fun h => nomatch h
      intro e
      constructor
      · intro h
        cases h
        rfl
      · rintro rfl
        exact FaultInClause.notAnObject fun _ h => nomatch h

end Clauses

/-- A boolean query is decided by its clauses, from left to right, and then by its factor. -/
theorem decides_boolean {context : Context} {value : Json} {node : Node} (isOf : node.IsOf value .boolean)
    (h : ∀ items members query, node.get? "clauses" = some (.array items) → .object members ∈ items →
      Json.lookup "query" members = some query →
        Decides (ofJson context query) (WellFormed query) (FirstFault query)) :
    Decides (ofJson context value) (WellFormed value) (FirstFault value) := by
  rw [isOf.ofJson_boolean context]
  -- Without a list nothing else is read; with one, the clauses in it come before the factor.
  by_cases hlist : (Check.list "clauses").Met node
  · obtain ⟨items, hlist⟩ := Node.obeys_list.ok_iff.2 (List.forall_mem_singleton.2 hlist)
    have hitems := Node.get?_of_list hlist
    have hclauses : Decides (items.mapM (clauseOfJson context node)) (∀ item ∈ items, WellFormedClause item)
        (FirstRefused WellFormedClause (FaultInClause node) items) := by
      apply Decides.mapM
      intro item hitem
      apply decides_clause
      rintro members query rfl hquery
      exact h items members query hitems hitem hquery
    rw [hlist]
    apply (hclauses.bind fun clauses _ => node.obeys_weighted (.boolean clauses)).congr
    · rw [wellFormed_iff isOf]
      simp [hitems]
    · intro e
      rw [firstFault_iff isOf]
      simp [hitems]
  · have hother : ∀ items, node.get? "clauses" ≠ some (.array items) := fun items hitems =>
      hlist ⟨items, hitems⟩
    rw [(Node.obeys_list.error_iff _).2 (Node.firstUnmet_singleton_iff.2 ⟨hlist, rfl⟩)]
    apply Decides.of_error
    · rw [wellFormed_iff isOf]
      simp [hother]
    · intro e
      rw [firstFault_iff isOf]
      simp [hother, Check.refusal]

theorem decides_ofJson (context : Context) (value : Json) :
    Decides (ofJson context value) (WellFormed value) (FirstFault value) := by
  rcases isOf_or_headFault value with ⟨node, kind, isOf⟩ | ⟨e, hfault⟩
  · cases kind with
    | leaf kind =>
        rw [isOf.ofJson_leaf context]
        have hleaf := (Node.obeys_leaf context node kind).bind fun query _ => node.obeys_weighted query
        exact Decides.congr hleaf (wellFormed_iff isOf).symm fun _ => (firstFault_iff isOf).symm
    | boolean =>
        apply decides_boolean isOf
        intro items members query hitems hmem hquery
        exact decides_ofJson context query
  · exact decides_of_headFault context hfault
termination_by sizeOf value
decreasing_by
  -- The query of a clause is part of the clause, which is part of the members of the node.
  have hmembers := Node.sizeOf_members (Node.isOf_iff.1 isOf).1
  have hclauses := Node.sizeOf_get? hitems
  have hclause := List.sizeOf_lt_of_mem hmem
  have hvalue := Json.sizeOf_lookup hquery
  simp only [Json.array.sizeOf_spec, Json.object.sizeOf_spec] at hclauses hclause
  omega

/-- A value is read exactly if it is a query of the grammar, and of any other one the first fault is the
error, whenever and with whatever weights it is read. -/
theorem ofJson_ok_iff_wellFormed (context : Context) (value : Json) :
    ((∃ query, ofJson context value = .ok query) ↔ WellFormed value) ∧
      ∀ e, ofJson context value = .error e ↔ FirstFault value e :=
  ⟨(decides_ofJson context value).ok_iff, (decides_ofJson context value).error_iff⟩

end Query

end EventFinder
