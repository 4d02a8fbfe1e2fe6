import Mathlib.Data.List.Forall2

/-!
# Two runs

Two runs of a reader are compared by `Agree`: both give values, which stand in a relation, or both give
errors. Runs that agree can be continued (`Agree.bind`), and reading two lists item by item agrees if reading
their items does (`Agree.mapM`).
-/

set_option autoImplicit false

namespace EventFinder

variable {ε α β γ δ : Type}

/-- Two outcomes are values that stand in a relation, or both are errors. -/
inductive Agree (r : α → β → Prop) : Except ε α → Except ε β → Prop where
  | values {a : α} {b : β} (related : r a b) : Agree r (.ok a) (.ok b)
  | errors (e e' : ε) : Agree r (.error e) (.error e')

namespace Agree

variable {r : α → β → Prop} {s : γ → δ → Prop}

theorem refl (outcome : Except ε α) : Agree Eq outcome outcome := by
  cases outcome with
  | ok a => exact values rfl
  | error e => exact errors e e

section Outcomes

variable {outcome : Except ε α} {outcome' : Except ε β}

theorem exists_ok_iff (h : Agree r outcome outcome') : (∃ a, outcome = .ok a) ↔ ∃ b, outcome' = .ok b := by
  cases h with
  | values _ => exact iff_of_true ⟨_, rfl⟩ ⟨_, rfl⟩
  | errors e e' => exact iff_of_false (fun ⟨_, h⟩ => nomatch h) fun ⟨_, h⟩ => nomatch h

theorem related (h : Agree r outcome outcome') {a : α} {b : β} (ha : outcome = .ok a) (hb : outcome' = .ok b) :
    r a b := by
  cases h with
  | values hr =>
      cases ha
      cases hb
      exact hr
  | errors e e' => cases ha

theorem mono {r' : α → β → Prop} (h : Agree r outcome outcome') (hr : ∀ a b, r a b → r' a b) :
    Agree r' outcome outcome' := by
  cases h with
  | values h => exact values (hr _ _ h)
  | errors e e' => exact errors e e'

/-- A run that gives the same as one of two that agree takes its place. -/
theorem of_same {outcome₀ : Except ε α} (h : Agree Eq outcome₀ outcome) (h' : Agree r outcome outcome') :
    Agree r outcome₀ outcome' := by
  cases h with
  | values heq =>
      cases heq
      exact h'
  | errors e e' =>
      cases h' with
      | errors _ e'' => exact errors e e''

/-- Runs that agree can be continued, if what they go on to agrees on related values. -/
theorem bind {next : α → Except ε γ} {next' : β → Except ε δ} (h : Agree r outcome outcome')
    (hnext : ∀ a b, r a b → Agree s (next a) (next' b)) :
    Agree s (outcome >>= next) (outcome' >>= next') := by
  cases h with
  | values hr => exact hnext _ _ hr
  | errors e e' => exact errors e e'

theorem map {f : α → γ} {f' : β → δ} (h : Agree r outcome outcome') (hf : ∀ a b, r a b → s (f a) (f' b)) :
    Agree s (outcome >>= fun a => pure (f a)) (outcome' >>= fun b => pure (f' b)) :=
  h.bind fun a b hr => values (hf a b hr)

end Outcomes

section Same

variable {outcome outcome' : Except ε α}

/-- Runs that give the same value are continued from that one. -/
theorem bind_same {next : α → Except ε γ} {next' : α → Except ε δ} (h : Agree Eq outcome outcome')
    (hnext : ∀ a, Agree s (next a) (next' a)) : Agree s (outcome >>= next) (outcome' >>= next') := by
  apply h.bind
  rintro a b rfl
  exact hnext a

theorem map_same (h : Agree Eq outcome outcome') (f : α → γ) :
    Agree Eq (outcome >>= fun a => pure (f a)) (outcome' >>= fun a => pure (f a)) :=
  h.bind_same fun a => refl (.ok (f a))

end Same

/-- Reading items agrees if reading each of them does. -/
theorem mapM {reader : α → Except ε γ} {reader' : β → Except ε δ} {items : List α} {items' : List β}
    (h : List.Forall₂ (fun item item' => Agree s (reader item) (reader' item')) items items') :
    Agree (List.Forall₂ s) (items.mapM reader) (items'.mapM reader') := by
  induction h with
  | nil => exact values List.Forall₂.nil
  | cons hfirst _ ih =>
      rw [List.mapM_cons, List.mapM_cons]
      apply hfirst.bind
      intro c d hcd
      apply ih.map
      exact fun cs ds hrest => List.Forall₂.cons hcd hrest

/-- Reading the same items agrees if reading each of them does. -/
theorem mapM_same {reader reader' : α → Except ε γ} (items : List α)
    (h : ∀ item ∈ items, Agree Eq (reader item) (reader' item)) :
    Agree Eq (items.mapM reader) (items.mapM reader') := by
  apply (mapM (List.forall₂_same.2 h)).mono
  intro values values' heach
  rwa [List.forall₂_eq_eq_eq] at heach

end Agree

end EventFinder
