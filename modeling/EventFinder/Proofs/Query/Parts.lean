import EventFinder.Proofs.Query.Grammar

/-!
# Queries in queries

The queries of the clauses of a boolean query are its parts, and so are their parts, at any depth (`PartOf`). A query
is well formed only if all of its parts are (`PartOf.wellFormed`). A part that is reached before anything is refused
passes its first fault on (`ReadUpTo.firstFault`).
-/

set_option autoImplicit false

namespace EventFinder

namespace Query

/-! ## Parts -/

/-- The value is the part itself, or a boolean query that contains it in the query of a clause. -/
inductive PartOf (part : Json) : Json → Prop where
  | self : PartOf part part
  | clause {value : Json} {node : Node} {items : List Json} {members : List (String × Json)} {inner : Json}
      (isOf : node.IsOf value .boolean) (clauses : node.get? "clauses" = some (.array items))
      (mem : .object members ∈ items) (query : Json.lookup "query" members = some inner)
      (partOf : PartOf part inner) : PartOf part value

/-- The part is reached when the value is read: in each boolean query on the way to it the clauses to the left are
well formed, and the clause with the part says how it takes part. -/
inductive ReadUpTo (part : Json) : Json → Prop where
  | self : ReadUpTo part part
  | clause {value : Json} {node : Node} {before after : List Json} {members : List (String × Json)} {inner : Json}
      (isOf : node.IsOf value .boolean)
      (clauses : node.get? "clauses" = some (.array (before ++ .object members :: after)))
      (earlier : ∀ other ∈ before, WellFormedClause other) (takesPart : TakesPart members)
      (query : Json.lookup "query" members = some inner) (readUpTo : ReadUpTo part inner) : ReadUpTo part value

section Parts

variable {part value : Json}

theorem PartOf.wellFormed (h : PartOf part value) (hvalue : WellFormed value) : WellFormed part := by
  induction h with
  | self => exact hvalue
  | clause isOf clauses mem query _ ih =>
      apply ih
      obtain ⟨items', clauses', each, -⟩ := (wellFormed_iff isOf).1 hvalue
      rw [clauses] at clauses'
      cases clauses'
      obtain ⟨-, inner', query', hinner⟩ := wellFormedClause_iff.1 (each _ mem)
      rw [query] at query'
      cases query'
      exact hinner

/-- A value with a part that is no query is not read. -/
theorem PartOf.exists_error (h : PartOf part value) (hpart : ¬ WellFormed part) (context : Context) :
    ∃ e, ofJson context value = .error e :=
  (decides_ofJson context value).exists_error fun hvalue => hpart (h.wellFormed hvalue)

theorem ReadUpTo.partOf (h : ReadUpTo part value) : PartOf part value := by
  induction h with
  | self => exact PartOf.self
  | clause isOf clauses _ _ query _ ih =>
      exact PartOf.clause isOf clauses (List.mem_append_right _ List.mem_cons_self) query ih

/-- The first fault of a part that is reached is that of the value. -/
theorem ReadUpTo.firstFault (h : ReadUpTo part value) {e : QueryError} (hpart : FirstFault part e) :
    FirstFault value e := by
  induction h with
  | self => exact hpart
  | clause isOf clauses earlier takesPart query _ ih =>
      obtain ⟨word, occur, known⟩ := takesPart
      exact FirstFault.clause isOf clauses earlier (FaultInClause.query occur known query ih)

end Parts

end Query

end EventFinder
