import EventFinder.Proofs.Json.RoundTrip
import EventFinder.Proofs.Number.Finite
import EventFinder.Proofs.Outcome

/-!
# Numbers that are read back

A number that is read back from its text alone is read back wherever it stands in a text (`readsBack_of_restored`):
what a reader has made of a number does not change by what may follow it.
-/

set_option autoImplicit false

namespace EventFinder

namespace Json

/-- The text of a binary number is read as the number. -/
def Restored (x : Binary64) : Prop := ofText (number (.real x)).text = .ok (number (.real x))

/-- The binary number that a text is. -/
def realOfText? (text : String) : Option Binary64 :=
  match ofText text with
  | .ok (.number (.real x)) => some x
  | _ => none

theorem restored_iff {x : Binary64} : Restored x ↔ realOfText? (number (.real x)).text = some x := by
  rw [Restored, realOfText?]
  constructor
  · intro h
    rw [h]
  · intro h
    split at h
    · rename_i hread
      cases h
      exact hread
    · cases h

instance (x : Binary64) : Decidable (Restored x) := decidable_of_iff _ restored_iff.symm

/-! ## Reading on -/

section Reading

variable {rest : List Char} (h : Follows rest)
include h

theorem takeWhile_append_of_follows (cs : List Char) :
    (cs ++ rest).takeWhile Numeral.isDigit = cs.takeWhile Numeral.isDigit := by
  induction cs with
  | nil => exact h.takeWhile_isDigit
  | cons c cs ih => rw [List.cons_append, List.takeWhile_cons, List.takeWhile_cons, ih]

theorem dropWhile_append_of_follows (cs : List Char) :
    (cs ++ rest).dropWhile Numeral.isDigit = cs.dropWhile Numeral.isDigit ++ rest := by
  induction cs with
  | nil => exact h.dropWhile_isDigit
  | cons c cs ih =>
      rw [List.cons_append, List.dropWhile_cons, List.dropWhile_cons, ih]
      split
      · rfl
      · rfl

namespace NumberText

theorem exponentSign_append (cs : List Char) :
    exponentSign (cs ++ rest) = ((exponentSign cs).1, (exponentSign cs).2 ++ rest) := by
  fun_cases exponentSign cs with
  | case1 => rfl
  | case2 => rfl
  | case3 cs hplus hminus =>
      cases cs with
      | nil => cases h <;> rfl
      | cons c cs =>
          rw [List.cons_append, exponentSign]
          · exact fun tail heq => hplus cs (by cases heq; rfl)
          · exact fun tail heq => hminus cs (by cases heq; rfl)

theorem minusSign_append (cs : List Char) : minusSign (cs ++ rest) = ((minusSign cs).1, (minusSign cs).2 ++ rest) := by
  fun_cases minusSign cs with
  | case1 => rfl
  | case2 cs hminus =>
      cases cs with
      | nil => cases h <;> rfl
      | cons c cs =>
          rw [List.cons_append, minusSign]
          exact fun tail heq => hminus cs (by cases heq; rfl)

variable {cs tail : List Char} {text text' : NumberText}

theorem readExponent_append {exponent : Bool × List Char} (hread : readExponent cs = (.ok exponent, tail)) :
    readExponent (cs ++ rest) = (.ok exponent, tail ++ rest) := by
  rw [readExponent] at hread ⊢
  rw [exponentSign_append h, takeWhile_append_of_follows h, dropWhile_append_of_follows h]
  dsimp only at hread ⊢
  split at hread
  · cases hread
  · rename_i hdigits
    cases hread
    rw [if_neg hdigits]

theorem readTail_append (hread : readTail text cs = (.ok text', tail)) :
    readTail text (cs ++ rest) = (.ok text', tail ++ rest) := by
  cases cs with
  | nil =>
      cases hread
      cases h <;> rfl
  | cons c cs =>
      rw [List.cons_append, readTail]
      rw [readTail] at hread
      by_cases hmark : (c = 'e' || c = 'E') = true
      · rw [if_pos hmark] at hread ⊢
        cases hexponent : readExponent cs with
        | mk exponent tail' =>
            rw [hexponent] at hread
            cases exponent with
            | error f => cases hread
            | ok exponent =>
                cases hread
                rw [readExponent_append h hexponent]
                rfl
      · rw [if_neg hmark] at hread ⊢
        cases hread
        rfl

theorem readFraction_append {negative : Bool} {whole : List Char}
    (hread : readFraction negative whole cs = (.ok text, tail)) :
    readFraction negative whole (cs ++ rest) = (.ok text, tail ++ rest) := by
  -- Without a point in the text there is none in front of what follows, which begins with no point either.
  by_cases hpoint : ∃ after, cs = '.' :: after
  · obtain ⟨after, rfl⟩ := hpoint
    rw [List.cons_append, readFraction, takeWhile_append_of_follows h, dropWhile_append_of_follows h]
    rw [readFraction] at hread
    split at hread
    · cases hread
    · rename_i hdigits
      rw [if_neg hdigits]
      exact readTail_append h hread
  · have hnone : ∀ after, cs ≠ '.' :: after := fun after heq => hpoint ⟨after, heq⟩
    have hnone' : ∀ after, cs ++ rest ≠ '.' :: after := by
      intro after heq
      cases cs with
      | nil => cases h <;> cases heq
      | cons c cs =>
          cases heq
          exact hnone cs rfl
    rw [readFraction] at hread ⊢
    · exact readTail_append h hread
    · exact hnone'
    · exact hnone

theorem readUnsigned_append {negative : Bool} (hread : readUnsigned negative cs = (.ok text, tail)) :
    readUnsigned negative (cs ++ rest) = (.ok text, tail ++ rest) := by
  rw [readUnsigned] at hread ⊢
  rw [takeWhile_append_of_follows h, dropWhile_append_of_follows h]
  split at hread
  · cases hread
  · cases hread
  · exact readFraction_append h hread

/-- What is read as a number is read as the same number in front of what may follow a value. -/
theorem read_append (hread : read cs = (.ok text, tail)) : read (cs ++ rest) = (.ok text, tail ++ rest) := by
  rw [read] at hread ⊢
  rw [minusSign_append h]
  exact readUnsigned_append h hread

end NumberText

omit h in
theorem ofText_append_of_blank {cs : List Char} (hcs : Token.ofText cs = []) :
    Token.ofText (cs ++ rest) = Token.ofText rest := by
  induction cs with
  | nil => rfl
  | cons c cs ih =>
      rw [Token.ofText] at hcs
      rw [List.cons_append, Token.ofText]
      split at hcs
      · rename_i hblank
        rw [if_pos hblank]
        exact ih hcs
      · split at hcs
        · cases hcs
        · cases hcs

end Reading

/-! ## A number alone -/

/-- Nothing ends what something follows. -/
theorem foldl_step_trailing (tokens : List Token) (source : Source) :
    tokens.foldl Source.Reader.step (.trailing source) = .trailing source := by
  induction tokens with
  | nil => rfl
  | cons token rest ih => rw [List.foldl_cons, Source.Reader.step, ih]

/-- A text that begins like a number is read as one only if it is one, with nothing but blanks behind it. -/
theorem exists_read_of_ofText {c : Char} {cs : List Char} {n : JsonNumber} (hc : c = '-' ∨ Numeral.isDigit c = true)
    (h : ofText (String.ofList (c :: cs)) = .ok (number n)) :
    ∃ text tail, NumberText.read (c :: cs) = (.ok text, tail) ∧ text.value = .ok n ∧ Token.ofText tail = [] := by
  obtain ⟨hread, hblank⟩ := @Token.read_of_number c cs hc
  have htokens : ∀ {outcome : Token × Option (List Char)}, Token.readNumber (c :: cs) = outcome →
      Token.ofText (c :: cs) = outcome.1 :: (outcome.2.map Token.ofText).getD [] := by
    rintro ⟨token, rest⟩ hnumber
    rw [Token.ofText, if_neg (by rw [hblank]; exact Bool.false_ne_true), hread, hnumber]
    cases rest <;> rfl
  rw [ofText, String.toList_ofList, Source.ofText, Source.ofTokens, htokens rfl, Token.readNumber] at h
  cases hnumber : NumberText.read (c :: cs) with
  | mk outcome tail =>
      rw [hnumber] at h
      cases outcome with
      | error f => cases h
      | ok text =>
          -- Behind the number there is no other token, for what follows a whole value is refused.
          change (do
            let value ← (Source.Reader.run (.complete (.number text.value none)) tail).finish.1.whole
            if (Source.Reader.run (.complete (.number text.value none)) tail).finish.2 then .error Fault.malformed
            else return value) = _ at h
          rw [Source.Reader.run] at h
          obtain ⟨value, hvalue, h⟩ := bind_eq_ok_iff.1 h
          cases htail : Token.ofText tail with
          | nil =>
              rw [htail] at hvalue h
              cases h
              obtain ⟨m, hm, hvalue⟩ := map_eq_ok_iff.1 hvalue
              cases hvalue
              exact ⟨text, tail, rfl, hm, htail⟩
          | cons token tokens =>
              rw [htail, List.foldl_cons, Source.Reader.step, foldl_step_trailing] at h
              cases h

/-- A number that is read from its text alone is read wherever it stands. -/
theorem readsBack_of_ofText {c : Char} {cs : List Char} {n : JsonNumber} (hchars : numberChars n = c :: cs)
    (hc : c = '-' ∨ Numeral.isDigit c = true) (h : ofText (number n).text = .ok (number n)) : ReadsBack n := by
  rw [text, chars, hchars] at h
  obtain ⟨text, tail, hread, hvalue, htail⟩ := exists_read_of_ofText hc h
  intro rest hrest
  obtain ⟨hnumber, hblank⟩ := @Token.read_of_number c (cs ++ rest) hc
  have hread' : Token.read c (cs ++ rest) = (.number (.ok n) none, some (tail ++ rest)) := by
    rw [hnumber, Token.readNumber, ← List.cons_append, NumberText.read_append hrest hread]
    dsimp only
    rw [hvalue]
  rw [hchars, List.cons_append, Token.ofText_of_read hblank hread', ofText_append_of_blank htail]

/-! ## The texts of binary numbers -/

/-- The text begins with a digit. -/
def BeginsWithDigit (cs : List Char) : Prop := ∃ c rest, cs = c :: rest ∧ Numeral.isDigit c = true

theorem BeginsWithDigit.append {cs : List Char} (h : BeginsWithDigit cs) (others : List Char) :
    BeginsWithDigit (cs ++ others) := by
  obtain ⟨c, rest, rfl, hdigit⟩ := h
  exact ⟨c, rest ++ others, rfl, hdigit⟩

theorem BeginsWithDigit.take {cs : List Char} (h : BeginsWithDigit cs) {n : Nat} (hn : 0 < n) :
    BeginsWithDigit (cs.take n) := by
  obtain ⟨c, rest, rfl, hdigit⟩ := h
  obtain ⟨n, rfl⟩ := Nat.exists_eq_succ_of_ne_zero hn.ne'
  exact ⟨c, rest.take n, rfl, hdigit⟩

theorem beginsWithDigit_decimalDigits (n : Nat) : BeginsWithDigit (decimalDigits n) := by
  cases hdigits : decimalDigits n with
  | nil => exact absurd hdigits (decimalDigits_ne_nil n)
  | cons c cs => exact ⟨c, cs, rfl, isDigit_of_mem_decimalDigits (hdigits ▸ List.mem_cons_self)⟩

theorem beginsWithDigit_positional (d : Decimal) : BeginsWithDigit d.positional.1 := by
  rw [Decimal.positional]
  dsimp only
  split
  · exact (beginsWithDigit_decimalDigits _).append _
  · split
    · exact (beginsWithDigit_decimalDigits _).take (by omega)
    · exact ⟨'0', _, rfl, rfl⟩

theorem beginsWithDigit_withExponent (d : Decimal) : BeginsWithDigit d.withExponent := by
  rw [Decimal.withExponent]
  exact (((beginsWithDigit_decimalDigits _).take Nat.one_pos).append _).append _

/-- A finite number is written as digits, behind a minus sign if it is negative. -/
theorem exists_numberChars_real {x : Binary64} (hx : x.isFinite = true) :
    ∃ c cs, numberChars (.real x) = c :: cs ∧ (c = '-' ∨ Numeral.isDigit c = true) := by
  have hsigned : ∀ digits : Unit → List Char, BeginsWithDigit (digits ()) →
      ∃ c cs, (x.signed digits).toList = c :: cs ∧ (c = '-' ∨ Numeral.isDigit c = true) := by
    intro digits ⟨c, rest, hdigits, hdigit⟩
    rw [Binary.signed, Binary.isNaN_of_isFinite hx, Binary.isInfinite_of_isFinite hx, if_neg Bool.false_ne_true,
      if_neg Bool.false_ne_true, String.toList_ofList, hdigits]
    cases x.negative with
    | true => exact ⟨'-', c :: rest, rfl, Or.inl rfl⟩
    | false => exact ⟨c, rest, rfl, Or.inr hdigit⟩
  rw [numberChars, Binary.jsonText, hx, Bool.not_true, if_neg Bool.false_ne_true]
  apply hsigned
  -- Zero has a text of its own; other numbers are laid out with a point or with an exponent.
  generalize x.shortest .toEven = d
  dsimp only
  split
  · exact ⟨'0', _, rfl, rfl⟩
  · split
    · exact (beginsWithDigit_positional _).append _
    · exact beginsWithDigit_withExponent _

/-- A finite number that is read from its text alone is read wherever it stands. -/
theorem readsBack_of_restored {x : Binary64} (hx : x.isFinite = true) (h : Restored x) : ReadsBack (.real x) := by
  obtain ⟨c, cs, hchars, hc⟩ := exists_numberChars_real hx
  exact readsBack_of_ofText hchars hc h

end Json

end EventFinder
