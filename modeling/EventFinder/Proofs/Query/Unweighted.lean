import EventFinder.Search

/-!
# Queries without factors

Factors and tie breakers make scores and have no part in what matches. `Query.unweighted` takes them out of a
query, and `Plan.unweighted` out of a plan. A query has a plan exactly if it has one without its factors, which is
then the plan without its factors (`resolve_unweighted`). That plan looks for terms in the same fields and matches
the same records (`termFields_unweighted`, `accepts_unweighted`). So queries that are equal without their factors
are refused for the same reason, or match the same records (`plan_cases_of_unweighted_eq`).
-/

set_option autoImplicit false

namespace EventFinder

/-! ## Taking factors out -/

namespace Query

mutual

/-- The query without its factors, and with no tie breakers but zero. -/
def unweighted : Query → Query
  | boolean clauses => boolean (unweightedClauses clauses)
  | matchAll => matchAll
  | term field value => term field value
  | allTerms field values => allTerms field values
  | range field numbers => range field numbers
  | disjunctionMax disjuncts _ => disjunctionMax (unweightedAll disjuncts) .zero
  | boost query _ => query.unweighted

/-- The queries without their factors. -/
def unweightedAll : List Query → List Query
  | [] => []
  | query :: rest => query.unweighted :: unweightedAll rest

/-- The clauses without their factors. -/
def unweightedClauses : List (Occur × Query) → List (Occur × Query)
  | [] => []
  | (occur, query) :: rest => (occur, query.unweighted) :: unweightedClauses rest

end

theorem unweightedAll_eq_map (queries : List Query) : unweightedAll queries = queries.map unweighted := by
  induction queries with
  | nil => rfl
  | cons query rest ih => rw [unweightedAll, ih, List.map_cons]

theorem unweightedClauses_eq_map (clauses : List (Occur × Query)) :
    unweightedClauses clauses = clauses.map fun c => (c.1, c.2.unweighted) := by
  induction clauses with
  | nil => rfl
  | cons clause rest ih => rw [unweightedClauses, ih, List.map_cons]

@[simp]
theorem unweighted_boosted (query : Query) (factor : Binary32) :
    (query.boosted factor).unweighted = query.unweighted := by
  rw [boosted]
  split
  · rfl
  · rfl

end Query

namespace Plan

variable {ν : Type}

mutual

/-- The plan without its factors, and with no tie breakers but zero. -/
def unweighted : Plan ν → Plan ν
  | boolean clauses => boolean (unweightedClauses clauses)
  | matchAll => matchAll
  | term field t note => term field t note
  | range field numbers => range field numbers
  | disjunctionMax disjuncts _ => disjunctionMax (unweightedAll disjuncts) .zero
  | boost plan _ => plan.unweighted

/-- The plans without their factors. -/
def unweightedAll : List (Plan ν) → List (Plan ν)
  | [] => []
  | plan :: rest => plan.unweighted :: unweightedAll rest

/-- The clauses without their factors. -/
def unweightedClauses : List (Occur × Plan ν) → List (Occur × Plan ν)
  | [] => []
  | (occur, plan) :: rest => (occur, plan.unweighted) :: unweightedClauses rest

end

/-- Clauses that look for terms are without factors. -/
theorem unweightedClauses_terms (field : Field) (terms : List Term) (note : ν) :
    unweightedClauses (terms.map fun t => (Occur.must, term field t note)) =
      terms.map fun t => (.must, term field t note) := by
  induction terms with
  | nil => rfl
  | cons t rest ih => rw [List.map_cons, unweightedClauses, unweighted, ih]

/-! ## What factors have no part in -/

mutual

theorem accepts_unweighted (plan : Plan ν) (r : Record) : plan.unweighted.accepts r = plan.accepts r := by
  cases plan with
  | boolean clauses => rw [unweighted, accepts, accepts, clausesAccept_unweighted clauses r]
  | matchAll => rfl
  | term field t note => rfl
  | range field numbers => rfl
  | disjunctionMax disjuncts tieBreaker => rw [unweighted, accepts, accepts, anyAccepts_unweighted disjuncts r]
  | boost plan factor => rw [unweighted, accepts, accepts_unweighted plan r]

theorem anyAccepts_unweighted (plans : List (Plan ν)) (r : Record) :
    anyAccepts (unweightedAll plans) r = anyAccepts plans r := by
  cases plans with
  | nil => rfl
  | cons plan rest =>
      rw [unweightedAll, anyAccepts, anyAccepts, accepts_unweighted plan r, anyAccepts_unweighted rest r]

theorem clausesAccept_unweighted (clauses : List (Occur × Plan ν)) (r : Record) :
    clausesAccept (unweightedClauses clauses) r = clausesAccept clauses r := by
  cases clauses with
  | nil => rfl
  | cons clause rest =>
      obtain ⟨occur, plan⟩ := clause
      rw [unweightedClauses, clausesAccept, clausesAccept, accepts_unweighted plan r,
        clausesAccept_unweighted rest r]

end

mutual

theorem termFields_unweighted (plan : Plan ν) : plan.unweighted.termFields = plan.termFields := by
  cases plan with
  | boolean clauses => rw [unweighted, termFields, termFields, termFieldsOfClauses_unweighted clauses]
  | matchAll => rfl
  | term field t note => rfl
  | range field numbers => rfl
  | disjunctionMax disjuncts tieBreaker =>
      rw [unweighted, termFields, termFields, termFieldsOfAll_unweighted disjuncts]
  | boost plan factor => rw [unweighted, termFields, termFields_unweighted plan]

theorem termFieldsOfAll_unweighted (plans : List (Plan ν)) :
    termFieldsOfAll (unweightedAll plans) = termFieldsOfAll plans := by
  cases plans with
  | nil => rfl
  | cons plan rest =>
      rw [unweightedAll, termFieldsOfAll, termFieldsOfAll, termFields_unweighted plan,
        termFieldsOfAll_unweighted rest]

theorem termFieldsOfClauses_unweighted (clauses : List (Occur × Plan ν)) :
    termFieldsOfClauses (unweightedClauses clauses) = termFieldsOfClauses clauses := by
  cases clauses with
  | nil => rfl
  | cons clause rest =>
      obtain ⟨occur, plan⟩ := clause
      rw [unweightedClauses, termFieldsOfClauses, termFieldsOfClauses, termFields_unweighted plan,
        termFieldsOfClauses_unweighted rest]

end

end Plan

/-! ## Resolving -/

namespace Query

mutual

/-- A query is resolved without its factors as it is with them. -/
theorem resolve_unweighted (query : Query) :
    query.unweighted.resolve = query.resolve.map Plan.unweighted := by
  cases query with
  | boolean clauses =>
      rw [unweighted, resolve, resolve, resolveClauses_unweighted clauses]
      cases resolveClauses clauses <;> rfl
  | matchAll => rfl
  | term label value =>
      rw [unweighted, resolve]
      cases Field.named label with
      | error e => rfl
      | ok field =>
          change (field.termOf value >>= fun t => pure (Plan.term field t ())) =
            (field.termOf value >>= fun t => pure (Plan.term field t ())).map Plan.unweighted
          cases field.termOf value <;> rfl
  | allTerms label values =>
      rw [unweighted, resolve]
      cases Field.named label with
      | error e => rfl
      | ok field =>
          let allOf (terms : List Term) : Plan Unit :=
            .boolean (terms.map fun t => (.must, .term field t ()))
          change (values.mapM field.termOf >>= fun terms => pure (allOf terms)) =
            (values.mapM field.termOf >>= fun terms => pure (allOf terms)).map Plan.unweighted
          cases values.mapM field.termOf with
          | error e => rfl
          | ok terms =>
              change Except.ok (Plan.boolean _) = Except.ok (Plan.boolean _)
              rw [Plan.unweightedClauses_terms]
  | range label numbers =>
      rw [unweighted, resolve]
      cases Field.named label with
      | error e => rfl
      | ok field =>
          dsimp only [bind, Except.bind]
          cases numbers.forKind field.kind <;> rfl
  | disjunctionMax disjuncts tieBreaker =>
      rw [unweighted, resolve, resolve, resolveAll_unweighted disjuncts]
      cases resolveAll disjuncts <;> rfl
  | boost query factor =>
      rw [unweighted, resolve, resolve_unweighted query]
      cases query.resolve <;> rfl

theorem resolveAll_unweighted (queries : List Query) :
    resolveAll (unweightedAll queries) = (resolveAll queries).map Plan.unweightedAll := by
  cases queries with
  | nil => rfl
  | cons query rest =>
      rw [unweightedAll, resolveAll, resolveAll, resolve_unweighted query, resolveAll_unweighted rest]
      cases query.resolve <;> cases resolveAll rest <;> rfl

theorem resolveClauses_unweighted (clauses : List (Occur × Query)) :
    resolveClauses (unweightedClauses clauses) = (resolveClauses clauses).map Plan.unweightedClauses := by
  cases clauses with
  | nil => rfl
  | cons clause rest =>
      obtain ⟨occur, query⟩ := clause
      rw [unweightedClauses, resolveClauses, resolveClauses, resolve_unweighted query,
        resolveClauses_unweighted rest]
      cases query.resolve <;> cases resolveClauses rest <;> rfl

end

end Query

namespace Snapshot

/-- A query has a plan for the search exactly if it has one without its factors. -/
theorem plan_unweighted (query : Query) : plan query.unweighted = (plan query).map Plan.unweighted := by
  rw [plan, plan, Query.resolve_unweighted]
  cases query.resolve with
  | error e => rfl
  | ok resolved =>
      dsimp only [Except.map, bind, Except.bind]
      rw [Plan.termFields_unweighted]
      cases resolved.termFields.find? Field.isStored <;> rfl

/-- Queries that are equal without their factors are refused for the same reason, or match the same
records. -/
theorem plan_cases_of_unweighted_eq {query query' : Query} (h : query.unweighted = query'.unweighted) :
    (∃ e, plan query = .error e ∧ plan query' = .error e) ∨
      ∃ resolved resolved', plan query = .ok resolved ∧ plan query' = .ok resolved' ∧
        ∀ r, resolved.accepts r = resolved'.accepts r := by
  have hplan : (plan query).map Plan.unweighted = (plan query').map Plan.unweighted := by
    rw [← plan_unweighted, h, plan_unweighted]
  cases hq : plan query with
  | error e =>
      cases hq' : plan query' with
      | error e' =>
          rw [hq, hq'] at hplan
          cases hplan
          exact Or.inl ⟨e, rfl, rfl⟩
      | ok resolved' =>
          rw [hq, hq'] at hplan
          cases hplan
  | ok resolved =>
      cases hq' : plan query' with
      | error e' =>
          rw [hq, hq'] at hplan
          cases hplan
      | ok resolved' =>
          rw [hq, hq'] at hplan
          have hresolved : resolved.unweighted = resolved'.unweighted := Except.ok.inj hplan
          refine Or.inr ⟨resolved, resolved', rfl, rfl, fun r => ?_⟩
          -- Both match what the one plan without factors matches.
          rw [← Plan.accepts_unweighted, hresolved, Plan.accepts_unweighted]

end Snapshot

end EventFinder
