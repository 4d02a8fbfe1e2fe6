import EventFinder.Proofs.Outcome
import EventFinder.Search

/-!
# What a query finds

`Query.Finds query P` says that a query can be run and that the records of which `P` is true match. It is
put together along the query: see `finds_matchAll`, `finds_term`, `finds_allTerms`, `finds_range`,
`Finds.boosted`, `finds_disjunctionMax`, `finds_boolean` and `finds_allOf`.

A record has a score exactly if it matches, whatever the ratings and factors are (`isSome_score`).
-/

set_option autoImplicit false

namespace EventFinder

/-! ## Matching is having a score -/

theorem isEmpty_additionOrder (xs : List Binary32) : (additionOrder xs).isEmpty = xs.isEmpty := by
  cases xs with
  | nil => rfl
  | cons x rest => rfl

theorem isEmpty_filterMap_id (ways : List (Option Binary32)) :
    (ways.filterMap id).isEmpty = !ways.any Option.isSome := by
  induction ways with
  | nil => rfl
  | cons way rest ih =>
      cases way with
      | none => exact ih
      | some x => rfl

/-- Of several ways to match one is enough. -/
theorem isSome_bestScore (tieBreaker : Binary32) (ways : List (Option Binary32)) :
    (bestScore tieBreaker ways).isSome = ways.any Option.isSome := by
  unfold bestScore
  split
  · rw [List.any_cons, List.any_nil, Bool.or_false]
  · dsimp only
    rw [isEmpty_additionOrder, isEmpty_filterMap_id]
    cases ways.any Option.isSome with
    | true => rfl
    | false => rfl

theorem Occur.isSome_combine (clauses : List (Occur × Option Binary32)) :
    (Occur.combine clauses).isSome = Occur.accept (clauses.map fun c => (c.1, c.2.isSome)) := by
  rw [Occur.combine]
  split
  · rename_i h
    rw [h]
    rfl
  · rename_i h
    rw [Bool.not_eq_true] at h
    rw [h]
    rfl

namespace Plan

variable {ν : Type} (f : Field → Term → Rating) (d : Document)

mutual

/-- A document has a score exactly if its record matches. -/
theorem isSome_score (plan : Plan ν) (factor : Binary32) :
    ((plan.annotate f).score factor d).isSome = plan.accepts d.record := by
  cases plan with
  | boolean clauses =>
      rw [annotate, score, accepts, Occur.isSome_combine, map_clauseScores clauses factor]
  | matchAll => rfl
  | term field t note =>
      rw [annotate, score, accepts, Document.terms_eq]
      by_cases h : t ∈ d.record.terms field
      · simp [h]
      · simp [h]
  | range field numbers =>
      rw [annotate, score, accepts, Document.terms_eq]
      cases (d.record.terms field).any numbers.contains with
      | true => rfl
      | false => rfl
  | disjunctionMax disjuncts tieBreaker =>
      rw [annotate, score, accepts, isSome_bestScore, any_scores disjuncts factor]
  | boost plan factor' =>
      rw [annotate, score, accepts, isSome_score plan]

theorem any_scores (plans : List (Plan ν)) (factor : Binary32) :
    (scores (annotateAll f plans) factor d).any Option.isSome = anyAccepts plans d.record := by
  cases plans with
  | nil => rfl
  | cons plan rest =>
      rw [annotateAll, scores, List.any_cons, anyAccepts, isSome_score plan, any_scores rest]

theorem map_clauseScores (clauses : List (Occur × Plan ν)) (factor : Binary32) :
    ((clauseScores (annotateClauses f clauses) factor d).map fun c => (c.1, c.2.isSome)) =
      clausesAccept clauses d.record := by
  cases clauses with
  | nil => rfl
  | cons clause rest =>
      obtain ⟨occur, plan⟩ := clause
      rw [annotateClauses, clauseScores, List.map_cons, clausesAccept, isSome_score plan,
        map_clauseScores rest]

end

end Plan

theorem Occur.accept_must (found : List Bool) :
    Occur.accept (found.map fun b => (.must, b)) = (!found.isEmpty && found.all id) := by
  have hfilter : ∀ occur : Occur, (((found.map fun b => (Occur.must, b)).filter fun c => c.1 = occur).map
      Prod.snd) = if occur = .must then found else [] := by
    intro occur
    cases occur <;> simp [List.filter_map, Function.comp_def]
  rw [Occur.accept]
  simp only [hfilter]
  cases found with
  | nil => rfl
  | cons b rest => simp

/-! ## What is found

Plans of alternatives and of clauses are lists of plans, and what holds of them is said in terms of the
plans in them. -/

namespace Plan

variable {ν : Type}

theorem clausesAccept_eq_map (clauses : List (Occur × Plan ν)) (r : Record) :
    clausesAccept clauses r = clauses.map fun c => (c.1, c.2.accepts r) := by
  induction clauses with
  | nil => rfl
  | cons clause rest ih => rw [clausesAccept, ih, List.map_cons]

theorem termFieldsOfClauses_eq_flatMap (clauses : List (Occur × Plan ν)) :
    termFieldsOfClauses clauses = clauses.flatMap fun c => c.2.termFields := by
  induction clauses with
  | nil => rfl
  | cons clause rest ih => rw [termFieldsOfClauses, ih, List.flatMap_cons]

theorem termFieldsOfAll_eq_flatMap (plans : List (Plan ν)) :
    termFieldsOfAll plans = plans.flatMap termFields := by
  induction plans with
  | nil => rfl
  | cons plan rest ih => rw [termFieldsOfAll, ih, List.flatMap_cons]

theorem anyAccepts_eq_any (plans : List (Plan ν)) (r : Record) :
    anyAccepts plans r = plans.any fun plan => plan.accepts r := by
  induction plans with
  | nil => rfl
  | cons plan rest ih => rw [anyAccepts, ih, List.any_cons]

end Plan

/-- Are the values of a field texts that can be looked for? -/
def Field.holdsTexts (field : Field) : Bool :=
  match field.kind with
  | .analyzed _ | .whole => true
  | _ => false

namespace Query

variable {P Q : Record → Prop}

/-- The query can be run, and the records of which `P` is true match. -/
def Finds (query : Query) (P : Record → Prop) : Prop :=
  ∃ plan : Plan Unit, query.resolve = .ok plan ∧ (∀ field ∈ plan.termFields, field.isStored = false) ∧
    ∀ r, plan.accepts r = true ↔ P r

/-- The queries can be run, and the records of which `P` is true match one of them. -/
def FindAny (queries : List Query) (P : Record → Prop) : Prop :=
  ∃ plans : List (Plan Unit), resolveAll queries = .ok plans ∧
    (∀ field ∈ Plan.termFieldsOfAll plans, field.isStored = false) ∧
    ∀ r, Plan.anyAccepts plans r = true ↔ P r

theorem Finds.congr {query : Query} (h : query.Finds P) (hPQ : ∀ r, P r ↔ Q r) : query.Finds Q := by
  obtain ⟨plan, hplan, hfields, haccepts⟩ := h
  exact ⟨plan, hplan, hfields, fun r => (haccepts r).trans (hPQ r)⟩

/-- A plan that looks for terms only where there are some can be run. -/
theorem plan_of_resolve {query : Query} {plan : Plan Unit} (hplan : query.resolve = .ok plan)
    (hfields : ∀ field ∈ plan.termFields, field.isStored = false) : Snapshot.plan query = .ok plan := by
  have hnone : plan.termFields.find? Field.isStored = none := by
    rw [List.find?_eq_none]
    intro field hfield
    rw [hfields field hfield]
    exact Bool.false_ne_true
  rw [Snapshot.plan, hplan]
  dsimp only
  rw [hnone]

/-- A query that finds something has a plan for the search. -/
theorem Finds.exists_plan {query : Query} (h : query.Finds P) :
    ∃ plan, Snapshot.plan query = .ok plan ∧ ∀ r, plan.accepts r = true ↔ P r := by
  obtain ⟨plan, hplan, hfields, haccepts⟩ := h
  exact ⟨plan, plan_of_resolve hplan hfields, haccepts⟩

/-- A factor changes scores and not what is found. -/
theorem Finds.boosted {query : Query} (h : query.Finds P) (factor : Binary32) :
    (query.boosted factor).Finds P := by
  obtain ⟨plan, hplan, hfields, haccepts⟩ := h
  rw [Query.boosted]
  split
  · exact ⟨plan, hplan, hfields, haccepts⟩
  · refine ⟨.boost plan factor, ?_, hfields, haccepts⟩
    rw [resolve, hplan]
    rfl

theorem finds_matchAll : matchAll.Finds fun _ => True := by
  refine ⟨.matchAll, rfl, ?_, fun r => iff_of_true rfl trivial⟩
  intro field hfield
  cases hfield

/-- A range over a field of such numbers finds the records with a number in it. -/
theorem finds_range {field : Field} {numbers applied : NumberRange}
    (h : numbers.forKind field.kind = some applied) :
    (range field.label numbers).Finds fun r => ∃ t ∈ r.terms field, applied.contains t = true := by
  refine ⟨.range field applied, ?_, ?_, fun r => ?_⟩
  · rw [resolve, bind_eq_ok_iff]
    refine ⟨field, by rw [Field.named, Field.ofLabel?_label], ?_⟩
    rw [h]
    rfl
  · intro field' hfield'
    cases hfield'
  · rw [Plan.accepts, List.any_eq_true]

section Fields

variable {field : Field} (h : field.holdsTexts = true)
include h

theorem termOf_text (value : String) : field.termOf value = .ok (.text value) := by
  rw [Field.holdsTexts] at h
  rw [Field.termOf]
  cases hkind : field.kind with
  | analyzed pipeline => rfl
  | whole => rfl
  | _ => simp [hkind] at h

theorem isStored_eq_false : field.isStored = false := by
  rw [Field.isStored, decide_eq_false_iff_not]
  intro hstored
  rw [Field.holdsTexts, hstored] at h
  cases h

theorem resolve_term (value : String) :
    (term field.label value).resolve = .ok (.term field (.text value) ()) := by
  rw [resolve, Field.named, Field.ofLabel?_label]
  change (do return Plan.term field (← field.termOf value) ()) = _
  rw [termOf_text h]
  rfl

theorem resolve_allTerms (values : List String) :
    (allTerms field.label values).resolve =
      .ok (.boolean (values.map fun value => (.must, .term field (.text value) ()))) := by
  have hterms : values.mapM field.termOf = .ok (values.map Term.text) := by
    induction values with
    | nil => rfl
    | cons value rest ih =>
        rw [List.mapM_cons, termOf_text h, ih]
        rfl
  rw [resolve, Field.named, Field.ofLabel?_label]
  change (do
    let terms ← values.mapM field.termOf
    return Plan.boolean (terms.map fun t => (Occur.must, Plan.term field t ()))) = _
  rw [hterms]
  change Except.ok _ = _
  rw [List.map_map]
  rfl

/-- A term in a field of texts finds the records that have it there. -/
theorem finds_term (value : String) :
    (term field.label value).Finds fun r => .text value ∈ r.terms field := by
  refine ⟨_, resolve_term h value, ?_, fun r => ?_⟩
  · intro field' hfield'
    rw [Plan.termFields, List.mem_singleton] at hfield'
    rw [hfield', isStored_eq_false h]
  · rw [Plan.accepts, decide_eq_true_eq]

/-- All of some terms, if there are any. -/
theorem finds_allTerms (values : List String) :
    (allTerms field.label values).Finds fun r => values ≠ [] ∧ ∀ s ∈ values, .text s ∈ r.terms field := by
  refine ⟨_, resolve_allTerms h values, ?_, fun r => ?_⟩
  · intro field' hfield'
    rw [Plan.termFields, Plan.termFieldsOfClauses_eq_flatMap, List.flatMap_map, List.mem_flatMap] at hfield'
    obtain ⟨value, -, hvalue⟩ := hfield'
    rw [Plan.termFields, List.mem_singleton] at hvalue
    rw [hvalue, isStored_eq_false h]
  · -- All clauses must match, which without any clause no record does.
    have hclauses : Plan.clausesAccept
        (values.map fun value => (Occur.must, Plan.term field (.text value) ())) r =
        (values.map fun value => decide (Term.text value ∈ r.terms field)).map fun b => (.must, b) := by
      rw [Plan.clausesAccept_eq_map, List.map_map, List.map_map]
      exact List.map_congr_left fun value _ => by rw [Function.comp_apply, Plan.accepts]; rfl
    rw [Plan.accepts, hclauses, Occur.accept_must]
    simp

end Fields

/-! ### Alternatives -/

theorem findAny_nil : FindAny [] fun _ => False := by
  refine ⟨[], by rw [resolveAll]; rfl, ?_, fun r => ?_⟩
  · intro field hfield
    cases hfield
  · rw [Plan.anyAccepts]
    exact iff_of_false Bool.false_ne_true id

theorem findAny_cons {query : Query} {rest : List Query} (h : query.Finds P) (hrest : FindAny rest Q) :
    FindAny (query :: rest) fun r => P r ∨ Q r := by
  obtain ⟨plan, hplan, hfields, haccepts⟩ := h
  obtain ⟨plans, hplans, hfieldss, hacceptss⟩ := hrest
  refine ⟨plan :: plans, ?_, ?_, fun r => ?_⟩
  · rw [resolveAll, hplan, hplans]
    rfl
  · intro field hfield
    rw [Plan.termFieldsOfAll, List.mem_append] at hfield
    exact hfield.elim (hfields field) (hfieldss field)
  · rw [Plan.anyAccepts, Bool.or_eq_true, haccepts, hacceptss]

theorem FindAny.congr {queries : List Query} (h : FindAny queries P) (hPQ : ∀ r, P r ↔ Q r) :
    FindAny queries Q := by
  obtain ⟨plans, hplans, hfields, haccepts⟩ := h
  exact ⟨plans, hplans, hfields, fun r => (haccepts r).trans (hPQ r)⟩

theorem resolveAll_cons_inv {query : Query} {rest : List Query} {plans : List (Plan Unit)}
    (h : resolveAll (query :: rest) = .ok plans) :
    ∃ plan others, query.resolve = .ok plan ∧ resolveAll rest = .ok others ∧ plans = plan :: others := by
  rw [resolveAll] at h
  cases hquery : query.resolve with
  | error e =>
      rw [hquery] at h
      cases h
  | ok plan =>
      cases hrest : resolveAll rest with
      | error e =>
          rw [hquery, hrest] at h
          cases h
      | ok others =>
          rw [hquery, hrest] at h
          cases h
          exact ⟨plan, others, rfl, rfl, rfl⟩

theorem resolveAll_append {queries others : List Query} {plans plans' : List (Plan Unit)}
    (h : resolveAll queries = .ok plans) (hothers : resolveAll others = .ok plans') :
    resolveAll (queries ++ others) = .ok (plans ++ plans') := by
  induction queries generalizing plans with
  | nil =>
      rw [resolveAll] at h
      cases h
      exact hothers
  | cons query rest ih =>
      obtain ⟨plan, restPlans, hquery, hrest, rfl⟩ := resolveAll_cons_inv h
      rw [List.cons_append, resolveAll, hquery, ih hrest]
      rfl

theorem findAny_append {queries others : List Query} (h : FindAny queries P) (hothers : FindAny others Q) :
    FindAny (queries ++ others) fun r => P r ∨ Q r := by
  obtain ⟨plans, hplans, hfields, haccepts⟩ := h
  obtain ⟨plans', hplans', hfields', haccepts'⟩ := hothers
  refine ⟨plans ++ plans', resolveAll_append hplans hplans', ?_, fun r => ?_⟩
  · intro field hfield
    rw [Plan.termFieldsOfAll_eq_flatMap, List.flatMap_append, ← Plan.termFieldsOfAll_eq_flatMap,
      ← Plan.termFieldsOfAll_eq_flatMap, List.mem_append] at hfield
    exact hfield.elim (hfields field) (hfields' field)
  · rw [Plan.anyAccepts_eq_any, List.any_append, ← Plan.anyAccepts_eq_any, ← Plan.anyAccepts_eq_any,
      Bool.or_eq_true, haccepts, haccepts']

/-- A query made for each of some values finds what is found for one of them. -/
theorem findAny_map {α : Type} {query : α → Query} {R : α → Record → Prop}
    (h : ∀ a, (query a).Finds (R a)) (values : List α) :
    FindAny (values.map query) fun r => ∃ a ∈ values, R a r := by
  induction values with
  | nil => exact findAny_nil.congr fun r => by simp
  | cons a rest ih => exact (findAny_cons (h a) ih).congr fun r => by simp

/-- The best of some alternatives finds what one of them finds. -/
theorem finds_disjunctionMax {queries : List Query} (h : FindAny queries P) (tieBreaker : Binary32) :
    (disjunctionMax queries tieBreaker).Finds P := by
  obtain ⟨plans, hplans, hfields, haccepts⟩ := h
  refine ⟨.disjunctionMax plans tieBreaker, ?_, hfields, haccepts⟩
  rw [resolve, hplans]
  rfl

/-! ### Clauses -/

/-- The query can be run. -/
def Runnable (query : Query) : Prop := ∃ P, query.Finds P

/-- A record matches the query. -/
def Matches (query : Query) (r : Record) : Prop :=
  ∃ plan : Plan Unit, query.resolve = .ok plan ∧ plan.accepts r = true

theorem Finds.matches_iff {query : Query} (h : query.Finds P) (r : Record) : query.Matches r ↔ P r := by
  obtain ⟨plan, hplan, -, haccepts⟩ := h
  rw [← haccepts]
  constructor
  · rintro ⟨plan', hplan', hr⟩
    rw [hplan] at hplan'
    cases hplan'
    exact hr
  · exact fun hr => ⟨plan, hplan, hr⟩

theorem Runnable.finds {query : Query} (h : query.Runnable) : query.Finds query.Matches := by
  obtain ⟨P, hP⟩ := h
  exact hP.congr fun r => (hP.matches_iff r).symm

/-- A factor does not make a query fail. -/
theorem Runnable.boosted {query : Query} (h : query.Runnable) (factor : Binary32) :
    (query.boosted factor).Runnable := by
  obtain ⟨P, hP⟩ := h
  exact ⟨P, hP.boosted factor⟩

open Classical in
/-- Clauses that can be run have plans, which match as their queries do. -/
theorem exists_clausePlans {clauses : List (Occur × Query)} (h : ∀ c ∈ clauses, c.2.Runnable) :
    ∃ plans : List (Occur × Plan Unit), resolveClauses clauses = .ok plans ∧
      (∀ field ∈ Plan.termFieldsOfClauses plans, field.isStored = false) ∧
      ∀ r, Plan.clausesAccept plans r = clauses.map fun c => (c.1, decide (c.2.Matches r)) := by
  induction clauses with
  | nil =>
      refine ⟨[], rfl, ?_, fun r => rfl⟩
      intro field hfield
      cases hfield
  | cons clause rest ih =>
      obtain ⟨occur, query⟩ := clause
      rw [List.forall_mem_cons] at h
      obtain ⟨plan, hplan, hfields, haccepts⟩ := h.1.finds
      obtain ⟨plans, hplans, hfieldss, hacceptss⟩ := ih h.2
      refine ⟨(occur, plan) :: plans, ?_, ?_, fun r => ?_⟩
      · rw [resolveClauses, hplan, hplans]
        rfl
      · intro field hfield
        rw [Plan.termFieldsOfClauses, List.mem_append] at hfield
        exact hfield.elim (hfields field) (hfieldss field)
      · have hmatch : plan.accepts r = decide (query.Matches r) :=
          Bool.eq_iff_iff.2 ((haccepts r).trans decide_eq_true_iff.symm)
        rw [Plan.clausesAccept, hacceptss, hmatch, List.map_cons]

open Classical in
/-- A boolean query of clauses that can be run finds what its clauses accept together. -/
theorem finds_boolean {clauses : List (Occur × Query)} (h : ∀ c ∈ clauses, c.2.Runnable) :
    (boolean clauses).Finds fun r =>
      Occur.accept (clauses.map fun c => (c.1, decide (c.2.Matches r))) = true := by
  obtain ⟨plans, hplans, hfields, haccepts⟩ := exists_clausePlans h
  refine ⟨.boolean plans, ?_, hfields, fun r => ?_⟩
  · rw [resolve, hplans]
    rfl
  · rw [Plan.accepts, haccepts]

/-- All of some queries find, if there are any, what each of them finds. -/
theorem finds_allOf {queries : List Query} (h : ∀ query ∈ queries, query.Runnable) :
    (allOf queries).Finds fun r => queries ≠ [] ∧ ∀ query ∈ queries, query.Matches r := by
  classical
  have hclauses : ∀ c ∈ queries.map fun query => (Occur.must, query), c.2.Runnable := by
    intro c hc
    obtain ⟨query, hquery, rfl⟩ := List.mem_map.1 hc
    exact h query hquery
  refine (finds_boolean hclauses).congr fun r => ?_
  -- What all clauses must match decides alone, and with no clause at all nothing is found.
  have hfound : ((queries.map fun query => (Occur.must, query)).map fun c => (c.1, decide (c.2.Matches r))) =
      (queries.map fun query => decide (query.Matches r)).map fun b => (.must, b) := by
    rw [List.map_map, List.map_map]
    rfl
  rw [hfound, Occur.accept_must]
  simp

end Query

end EventFinder
