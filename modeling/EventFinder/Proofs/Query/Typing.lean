import EventFinder.Proofs.Number.Numerals
import EventFinder.Proofs.Outcome
import EventFinder.Query.Plan

/-!
# Typing

A query names fields and values in its leaves (`Query.leaves`), whatever is around them: clauses of any part, factors,
disjunctions. A leaf is well typed if its field exists and its values or numbers fit the kind of that field
(`Leaf.WellTyped`).

A query has a plan exactly if all its leaves are well typed, and is otherwise refused for the first one that is not
(`resolve_checks_types`).
-/

set_option autoImplicit false

namespace EventFinder

/-- The texts that name a value of a kind of field. -/
def FieldKind.Holds : FieldKind → String → Prop
  | .analyzed _, _ | .whole, _ | .stored, _ => True
  | .unsigned, value => Numeral.IsUnsigned value
  | .integer, value => Numeral.IsSigned value
  | .real, value => Numeral.IsReal value

/-- The kinds of fields that a range applies to. -/
def NumberRange.AppliesTo : NumberRange → FieldKind → Prop
  | integers _ _, kind => kind = .integer ∨ kind = .real
  | reals _ _, kind => kind = .real

namespace Query

/-! ## Leaves -/

/-- What a query looks for in one field. -/
inductive Leaf where
  | terms (label : String) (values : List String)
  | range (label : String) (numbers : NumberRange)

/-- The name of the field. -/
def Leaf.label : Leaf → String
  | terms label _ | range label _ => label

mutual

/-- The leaves of a query, from left to right. -/
def leaves : Query → List Leaf
  | boolean clauses => leavesOfClauses clauses
  | matchAll => []
  | term label value => [.terms label [value]]
  | allTerms label values => [.terms label values]
  | range label numbers => [.range label numbers]
  | disjunctionMax disjuncts _ => leavesOfAll disjuncts
  | boost query _ => query.leaves

/-- The leaves of queries. -/
def leavesOfAll : List Query → List Leaf
  | [] => []
  | query :: rest => query.leaves ++ leavesOfAll rest

/-- The leaves of clauses. -/
def leavesOfClauses : List (Occur × Query) → List Leaf
  | [] => []
  | (_, query) :: rest => query.leaves ++ leavesOfClauses rest

end

namespace Leaf

/-- What is looked for fits a kind of field. -/
def Fits (kind : FieldKind) : Leaf → Prop
  | terms _ values => ∀ value ∈ values, kind.Holds value
  | range _ numbers => numbers.AppliesTo kind

/-- The field exists, and what is looked for fits it. -/
def WellTyped (leaf : Leaf) : Prop := ∃ field, Field.ofLabel? leaf.label = some field ∧ leaf.Fits field.kind

/-- Why a leaf that is not well typed is refused: the field is unknown, or the first value is named that does not fit
it, or the field does not hold such numbers. -/
inductive Refused : Leaf → QueryError → Prop where
  | unknown {leaf : Leaf} (unknown : Field.ofLabel? leaf.label = none) : Refused leaf (.unknownField leaf.label)
  | value {label value : String} {field : Field} {before after : List String}
      (named : Field.ofLabel? label = some field) (earlier : ∀ other ∈ before, field.kind.Holds other)
      (other : ¬ field.kind.Holds value) :
      Refused (.terms label (before ++ value :: after)) (.invalid "term" (.unreadableValue value field.kind))
  | range {label : String} {numbers : NumberRange} {field : Field} (named : Field.ofLabel? label = some field)
      (other : ¬ numbers.AppliesTo field.kind) :
      Refused (.range label numbers) (.invalid "range" (.otherNumbers label))

end Leaf

/-! ## Fields and values -/

/-- There is a term exactly if the field holds such values. -/
theorem decides_termOf (field : Field) (value : String) :
    Decides (field.termOf value) (field.kind.Holds value) fun e =>
      ¬ field.kind.Holds value ∧ e = .invalid "term" (.unreadableValue value field.kind) := by
  rw [Field.termOf]
  cases field.kind with
  | analyzed _ =>
      refine Decides.of_ok (Term.text value) trivial ?_
      exact fun e he => he.1 trivial
  | whole =>
      refine Decides.of_ok (Term.text value) trivial ?_
      exact fun e he => he.1 trivial
  | stored =>
      refine Decides.of_ok (Term.text value) trivial ?_
      exact fun e he => he.1 trivial
  | unsigned =>
      exact Decides.of_isSome (fun n hn => ⟨.unsigned n, by rw [hn]; rfl⟩) (fun hn => by rw [hn]; rfl)
        Numeral.isSome_unsigned?
  | integer =>
      exact Decides.of_isSome (fun n hn => ⟨.integer n, by rw [hn]; rfl⟩) (fun hn => by rw [hn]; rfl)
        Numeral.isSome_signed?
  | real =>
      exact Decides.of_isSome (fun x hx => ⟨.real x, by rw [hx]; rfl⟩) (fun hx => by rw [hx]; rfl)
        Numeral.isSome_binary?

theorem isSome_forKind {numbers : NumberRange} {kind : FieldKind} :
    (numbers.forKind kind).isSome ↔ numbers.AppliesTo kind := by
  cases numbers <;> cases kind <;> simp [NumberRange.forKind, NumberRange.AppliesTo]

/-! ## Single leaves -/

section Leaves

variable {label : String} {field : Field}

theorem Leaf.wellTyped_iff {leaf : Leaf} (named : Field.ofLabel? leaf.label = some field) :
    leaf.WellTyped ↔ leaf.Fits field.kind := by
  rw [WellTyped, named]
  simp only [Option.some.injEq, exists_eq_left']

theorem Leaf.refused_terms_iff {values : List String} {e : QueryError} (named : Field.ofLabel? label = some field) :
    (terms label values).Refused e ↔
      FirstRefused field.kind.Holds
        (fun value e => ¬ field.kind.Holds value ∧ e = .invalid "term" (.unreadableValue value field.kind))
        values e := by
  constructor
  · intro h
    cases h with
    | unknown unknown => cases named.symm.trans unknown
    | value named' earlier other =>
        cases named.symm.trans named'
        exact ⟨_, _, _, rfl, earlier, other, rfl⟩
  · rintro ⟨before, value, after, rfl, earlier, other, rfl⟩
    exact Refused.value named earlier other

theorem Leaf.refused_range_iff {numbers : NumberRange} {e : QueryError} (named : Field.ofLabel? label = some field) :
    (range label numbers).Refused e ↔
      ¬ numbers.AppliesTo field.kind ∧ e = .invalid "range" (.otherNumbers label) := by
  constructor
  · intro h
    cases h with
    | unknown unknown => cases named.symm.trans unknown
    | range named' other =>
        cases named.symm.trans named'
        exact ⟨other, rfl⟩
  · rintro ⟨other, rfl⟩
    exact Refused.range named other

/-- What begins with finding the field of a leaf decides by the type of the leaf, if it does so for each field that
there is. -/
theorem decides_leaf {α : Type} {next : Field → Except QueryError α} {leaf : Leaf} (hlabel : leaf.label = label)
    (h : ∀ field, Field.ofLabel? label = some field → Decides (next field) (leaf.Fits field.kind) leaf.Refused) :
    Decides (Field.named label >>= next) leaf.WellTyped leaf.Refused := by
  subst hlabel
  rw [Field.named]
  cases hfield : Field.ofLabel? leaf.label with
  | some field => exact (h field hfield).congr (Leaf.wellTyped_iff hfield).symm fun _ => Iff.rfl
  | none =>
      apply Decides.of_error
      · rintro ⟨field, hsome, -⟩
        cases hfield.symm.trans hsome
      · intro e
        constructor
        · intro h
          cases h with
          | unknown => rfl
          | value named => cases hfield.symm.trans named
          | range named => cases hfield.symm.trans named
        · rintro rfl
          exact Leaf.Refused.unknown hfield

end Leaves

/-- No leaf is both well typed and refused. -/
theorem Leaf.Refused.not_wellTyped {leaf : Leaf} {e : QueryError} (h : leaf.Refused e) : ¬ leaf.WellTyped := by
  cases h with
  | unknown unknown =>
      rintro ⟨field, named, -⟩
      cases unknown.symm.trans named
  | value named earlier other =>
      rintro ⟨field, named', fits⟩
      cases named.symm.trans named'
      exact other (fits _ (List.mem_append_right _ List.mem_cons_self))
  | range named other =>
      rintro ⟨field, named', fits⟩
      cases named.symm.trans named'
      exact other fits

/-! ## Whole queries -/

section Resolving

variable {α : Type}

/-- A query of one leaf decides by it. -/
theorem decides_one {outcome : Except QueryError α} {leaf : Leaf} (h : Decides outcome leaf.WellTyped leaf.Refused) :
    Decides outcome (∀ leaf' ∈ [leaf], leaf'.WellTyped) (FirstRefused Leaf.WellTyped Leaf.Refused [leaf]) :=
  h.congr List.forall_mem_singleton.symm fun _ => firstRefused_singleton.symm

/-- One query after another decides by the leaves of both. -/
theorem decides_append {β : Type} {outcome : Except QueryError α} {next : α → Except QueryError β}
    {first rest : List Leaf}
    (hfirst : Decides outcome (∀ leaf ∈ first, leaf.WellTyped) (FirstRefused Leaf.WellTyped Leaf.Refused first))
    (hrest : ∀ a, Decides (next a) (∀ leaf ∈ rest, leaf.WellTyped) (FirstRefused Leaf.WellTyped Leaf.Refused rest)) :
    Decides (outcome >>= next) (∀ leaf ∈ first ++ rest, leaf.WellTyped)
      (FirstRefused Leaf.WellTyped Leaf.Refused (first ++ rest)) :=
  (hfirst.bind fun a _ => hrest a).congr List.forall_mem_append.symm fun _ => firstRefused_append_iff.symm

/-- Nothing is refused where there are no leaves. -/
theorem decides_nil (a : α) :
    Decides (.ok a) (∀ leaf ∈ [], Leaf.WellTyped leaf) (FirstRefused Leaf.WellTyped Leaf.Refused []) :=
  Decides.of_ok a (List.forall_mem_nil _) fun _ => firstRefused_nil

end Resolving

mutual

/-- Resolving decides by the leaves, from left to right. -/
theorem decides_resolve (query : Query) :
    Decides query.resolve (∀ leaf ∈ query.leaves, leaf.WellTyped)
      (FirstRefused Leaf.WellTyped Leaf.Refused query.leaves) := by
  cases query with
  | boolean clauses =>
      rw [resolve, leaves]
      exact (decides_resolveClauses clauses).map
  | matchAll =>
      rw [resolve, leaves]
      exact decides_nil _
  | term label value =>
      rw [resolve, leaves]
      refine decides_one (decides_leaf rfl fun field named => ?_)
      apply (decides_termOf field value).map.congr
      · exact List.forall_mem_singleton.symm
      · intro e
        rw [Leaf.refused_terms_iff named, firstRefused_singleton]
  | allTerms label values =>
      rw [resolve, leaves]
      refine decides_one (decides_leaf rfl fun field named => ?_)
      -- The field is found before the values are read, so that it must exist even if there are none.
      apply (Decides.mapM fun value _ => decides_termOf field value).map.congr Iff.rfl
      exact fun e => (Leaf.refused_terms_iff named).symm
  | range label numbers =>
      rw [resolve, leaves]
      refine decides_one (decides_leaf rfl fun field named => ?_)
      have hkind := @isSome_forKind numbers field.kind
      cases hnumbers : numbers.forKind field.kind with
      | some found =>
          rw [hnumbers] at hkind
          refine Decides.of_ok _ (hkind.1 rfl) fun e => ?_
          rw [Leaf.refused_range_iff named]
          exact fun h => h.1 (hkind.1 rfl)
      | none =>
          rw [hnumbers] at hkind
          have hnot : ¬ numbers.AppliesTo field.kind := fun happlies => nomatch hkind.2 happlies
          refine Decides.of_error _ hnot fun e => ?_
          rw [Leaf.refused_range_iff named, and_iff_right hnot]
  | disjunctionMax disjuncts tieBreaker =>
      -- Without disjuncts there are no leaves, and there is a plan.
      rw [resolve, leaves]
      exact (decides_resolveAll disjuncts).map
  | boost query factor =>
      rw [resolve, leaves]
      exact (decides_resolve query).map

theorem decides_resolveAll (queries : List Query) :
    Decides (resolveAll queries) (∀ leaf ∈ leavesOfAll queries, leaf.WellTyped)
      (FirstRefused Leaf.WellTyped Leaf.Refused (leavesOfAll queries)) := by
  cases queries with
  | nil =>
      rw [resolveAll, leavesOfAll]
      exact decides_nil _
  | cons query rest =>
      rw [resolveAll, leavesOfAll]
      exact decides_append (decides_resolve query) fun _ => (decides_resolveAll rest).map

theorem decides_resolveClauses (clauses : List (Occur × Query)) :
    Decides (resolveClauses clauses) (∀ leaf ∈ leavesOfClauses clauses, leaf.WellTyped)
      (FirstRefused Leaf.WellTyped Leaf.Refused (leavesOfClauses clauses)) := by
  cases clauses with
  | nil =>
      rw [resolveClauses, leavesOfClauses]
      exact decides_nil _
  | cons clause rest =>
      obtain ⟨occur, query⟩ := clause
      rw [resolveClauses, leavesOfClauses]
      exact decides_append (decides_resolve query) fun _ => (decides_resolveClauses rest).map

end

/-- A query has a plan exactly if all its leaves are well typed. Otherwise it is refused for the first leaf from left
to right that is not, wherever this one is. -/
theorem resolve_checks_types (query : Query) :
    ((∃ plan, query.resolve = .ok plan) ↔ ∀ leaf ∈ query.leaves, leaf.WellTyped) ∧
      ∀ e, query.resolve = .error e ↔
        ∃ before leaf after, query.leaves = before ++ leaf :: after ∧ (∀ other ∈ before, other.WellTyped) ∧
          ¬ leaf.WellTyped ∧ leaf.Refused e := by
  refine ⟨(decides_resolve query).ok_iff, fun e => (decides_resolve query).error_iff e |>.trans ⟨?_, ?_⟩⟩
  · rintro ⟨before, leaf, after, hsplit, hbefore, hleaf⟩
    exact ⟨before, leaf, after, hsplit, hbefore, hleaf.not_wellTyped, hleaf⟩
  · rintro ⟨before, leaf, after, hsplit, hbefore, -, hleaf⟩
    exact ⟨before, leaf, after, hsplit, hbefore, hleaf⟩

end Query

end EventFinder
