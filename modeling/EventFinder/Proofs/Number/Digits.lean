import EventFinder.Number.Layout
import EventFinder.Number.Numeral
import Mathlib.Data.Nat.Basic

/-!
# Whole numbers in decimal

The digits of a natural number are read back as that number (`valueOf_decimalDigits`), and so is a number of 64
bits where a plain text is taken for one (`unsigned?_decimalDigits`). Digits are followed from the first one to
the last by `foldl_decimalDigits`, and only zero begins with a zero (`eq_zero_of_head`).
-/

set_option autoImplicit false

namespace EventFinder

/-! ## Digits -/

theorem Numeral.digit?_digitChar {d : Nat} (h : d < 10) : Numeral.digit? d.digitChar = some d := by
  have hall : ∀ d < 10, Numeral.digit? d.digitChar = some d := by decide
  exact hall d h

theorem decimalDigits_of_lt {n : Nat} (h : n < 10) : decimalDigits n = [n.digitChar] :=
  Nat.toDigits_of_lt_base h

theorem decimalDigits_of_le {n : Nat} (h : 10 ≤ n) :
    decimalDigits n = decimalDigits (n / 10) ++ [(n % 10).digitChar] :=
  Nat.toDigits_of_base_le (by decide) h

theorem decimalDigits_ne_nil (n : Nat) : decimalDigits n ≠ [] := Nat.toDigits_ne_nil

/-- Every digit of a number is a digit. -/
theorem isDigit_of_mem_decimalDigits {n : Nat} {c : Char} (h : c ∈ decimalDigits n) :
    Numeral.isDigit c = true := by
  induction n using Nat.strong_induction_on with
  | h n ih =>
      rcases Nat.lt_or_ge n 10 with hn | hn
      · rw [decimalDigits_of_lt hn, List.mem_singleton] at h
        rw [h, Numeral.isDigit, Numeral.digit?_digitChar hn]
        rfl
      · rw [decimalDigits_of_le hn, List.mem_append, List.mem_singleton] at h
        rcases h with h | h
        · exact ih (n / 10) (by omega) h
        · rw [h, Numeral.isDigit, Numeral.digit?_digitChar (Nat.mod_lt n (by decide))]
          rfl

/-- What is done digit by digit and takes every number to that number is done to the whole. -/
theorem foldl_decimalDigits {σ : Type} {f : σ → Char → σ} (state : Nat → σ) (bound : Nat)
    (h : ∀ n d, d < 10 → n * 10 + d < bound → f (state n) d.digitChar = state (n * 10 + d)) {n : Nat}
    (hn : n < bound) : (decimalDigits n).foldl f (state 0) = state n := by
  induction n using Nat.strong_induction_on with
  | h n ih =>
      rcases Nat.lt_or_ge n 10 with hlt | hge
      · rw [decimalDigits_of_lt hlt, List.foldl_cons, List.foldl_nil, h 0 n hlt (by omega)]
        congr 1
        omega
      · rw [decimalDigits_of_le hge, List.foldl_append, ih (n / 10) (by omega) (by omega), List.foldl_cons,
          List.foldl_nil, h (n / 10) (n % 10) (Nat.mod_lt n (by decide)) (by omega)]
        congr 1
        omega

/-- The digits of a number write it. -/
theorem valueOf_decimalDigits (n : Nat) : Numeral.valueOf (decimalDigits n) = n := by
  apply foldl_decimalDigits id (n + 1) _ (Nat.lt_succ_self n)
  intro n d hd _
  rw [Numeral.digit?_digitChar hd]
  rfl

/-- Only zero begins with a zero. -/
theorem eq_zero_of_head {n : Nat} {rest : List Char} (h : decimalDigits n = '0' :: rest) : n = 0 ∧ rest = [] := by
  induction n using Nat.strong_induction_on generalizing rest with
  | h n ih =>
      rcases Nat.lt_or_ge n 10 with hn | hn
      · rw [decimalDigits_of_lt hn, List.cons.injEq] at h
        have hall : ∀ d < 10, d.digitChar = '0' → d = 0 := by decide
        exact ⟨hall n hn h.1, h.2.symm⟩
      · -- The digits but for the last one are those of a smaller number, which is not zero.
        rw [decimalDigits_of_le hn] at h
        cases hinit : decimalDigits (n / 10) with
        | nil => exact absurd hinit (decimalDigits_ne_nil _)
        | cons c init =>
            rw [hinit, List.cons_append, List.cons.injEq] at h
            have hzero := ih (n / 10) (by omega) (h.1 ▸ hinit)
            omega

/-! ## Numbers of 64 bits -/

theorem digits?_decimalDigits (n : Nat) : Numeral.digits? (decimalDigits n) = some n := by
  have hall : (decimalDigits n).all Numeral.isDigit = true :=
    List.all_eq_true.2 fun _ => isDigit_of_mem_decimalDigits
  have hempty : (decimalDigits n).isEmpty = false := by
    rw [List.isEmpty_eq_false_iff]
    exact decimalDigits_ne_nil n
  rw [Numeral.digits?, hall, hempty, valueOf_decimalDigits]
  rfl

/-- A number of 64 bits is read where a text is taken for one. -/
theorem unsigned?_decimalDigits (n : UInt64) :
    Numeral.unsigned? (String.ofList (decimalDigits n.toNat)) = some n := by
  have hnatural : Numeral.natural? UInt64.size (decimalDigits n.toNat) = some n.toNat := by
    rw [Numeral.natural?]
    · rw [digits?_decimalDigits, Option.filter_some, if_pos (decide_eq_true n.toNat_lt)]
    · -- A number begins with no sign.
      intro rest h
      have hplus : Numeral.isDigit '+' = true := isDigit_of_mem_decimalDigits (h ▸ List.mem_cons_self)
      exact absurd hplus (by decide)
  rw [Numeral.unsigned?, String.toList_ofList, hnatural, Option.map_some, UInt64.ofNat_toNat]

end EventFinder
