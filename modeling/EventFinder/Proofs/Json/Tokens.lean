import EventFinder.Json.Printer
import EventFinder.Json.Token
import EventFinder.Proofs.Number.Digits

/-!
# Reading back what is written

How the tokens of a written text begin: a whole number is read as itself in front of what may follow a value
(`readsBack_integer`), and a quoted text is read as itself in front of anything (`ofText_quote`).
-/

set_option autoImplicit false

namespace EventFinder

namespace Json

/-! ## Numbers -/

/-- What may follow a value: nothing, or what goes on with a container or closes it. -/
inductive Follows : List Char → Prop where
  | nothing : Follows []
  | comma (rest : List Char) : Follows (',' :: rest)
  | rightBracket (rest : List Char) : Follows (']' :: rest)
  | rightBrace (rest : List Char) : Follows ('\x7d' :: rest)

namespace Follows

variable {rest : List Char}

theorem takeWhile_isDigit (h : Follows rest) : rest.takeWhile Numeral.isDigit = [] := by
  cases h <;> rfl

theorem dropWhile_isDigit (h : Follows rest) : rest.dropWhile Numeral.isDigit = rest := by
  cases h <;> rfl

end Follows

/-- A number is read as itself from what it is written as. -/
def ReadsBack (n : JsonNumber) : Prop :=
  ∀ rest, Follows rest → Token.ofText (numberChars n ++ rest) = .number (.ok n) none :: Token.ofText rest

namespace NumberText

/-- Nothing that may follow a value belongs to a number. -/
theorem readFraction_of_follows {rest : List Char} (h : Follows rest) (negative : Bool) (whole : List Char) :
    readFraction negative whole rest = (.ok ⟨negative, whole, none, none⟩, rest) := by
  cases h <;> rfl

theorem readUnsigned_decimalDigits {rest : List Char} (h : Follows rest) (negative : Bool) (n : Nat) :
    readUnsigned negative (decimalDigits n ++ rest) = (.ok ⟨negative, decimalDigits n, none, none⟩, rest) := by
  have hdigits : ∀ c ∈ decimalDigits n, Numeral.isDigit c = true := fun _ => isDigit_of_mem_decimalDigits
  rw [readUnsigned, List.takeWhile_append_of_pos hdigits, List.dropWhile_append_of_pos hdigits,
    h.takeWhile_isDigit, h.dropWhile_isDigit, List.append_nil]
  split
  · rename_i hnil
    exact absurd hnil (decimalDigits_ne_nil n)
  · rename_i hzero
    cases (eq_zero_of_head hzero).2
  · exact readFraction_of_follows h negative _

theorem read_decimalDigits {rest : List Char} (h : Follows rest) (n : Nat) :
    read (decimalDigits n ++ rest) = (.ok ⟨false, decimalDigits n, none, none⟩, rest) := by
  have hminus : minusSign (decimalDigits n ++ rest) = (false, decimalDigits n ++ rest) := by
    rw [minusSign]
    intro body hbody
    cases hdigits : decimalDigits n with
    | nil => exact absurd hdigits (decimalDigits_ne_nil n)
    | cons c cs =>
        rw [hdigits, List.cons_append, List.cons.injEq] at hbody
        have hdigit : Numeral.isDigit c = true := isDigit_of_mem_decimalDigits (hdigits ▸ List.mem_cons_self)
        rw [hbody.1] at hdigit
        exact absurd hdigit (by decide)
  rw [read, hminus]
  exact readUnsigned_decimalDigits h false n

/-- The digits of a number of 64 bits add up to it. -/
theorem foldl_addWhole {n : Nat} (h : n < twoPow 64) :
    (decimalDigits n).foldl addWhole (0, 0, false) = (n, 0, false) := by
  apply foldl_decimalDigits (fun n => (n, 0, false)) (twoPow 64) _ h
  intro m d hd hm
  rw [addWhole, Numeral.digit?_digitChar hd]
  simp [Nat.not_le.2 hm]

theorem value_decimalDigits {n : Nat} (h : n < twoPow 64) :
    value ⟨false, decimalDigits n, none, none⟩ = .ok (.integer n) := by
  rw [value, foldl_addWhole h]
  rfl

theorem value_negative_decimalDigits {n : Nat} (hpos : 0 < n) (h : n ≤ twoPow 63) :
    value ⟨true, decimalDigits n, none, none⟩ = .ok (.integer (-n)) := by
  have hlt : n < twoPow 64 := Nat.lt_of_le_of_lt h (by decide)
  rw [value, foldl_addWhole hlt]
  simp [Nat.pos_iff_ne_zero.1 hpos, Nat.not_lt.2 h]

end NumberText

namespace Token

theorem ofText_of_read {c : Char} {cs rest : List Char} {token : Token} (hblank : isBlank c = false)
    (h : read c cs = (token, some rest)) : ofText (c :: cs) = token :: ofText rest := by
  rw [ofText, if_neg (by rw [hblank]; exact Bool.false_ne_true)]
  split
  · rename_i hread
    rw [h] at hread
    cases hread
  · rename_i hread
    rw [h] at hread
    cases hread
    rfl

theorem ne_of_number {c d : Char} (h : c = '-' ∨ Numeral.isDigit c = true)
    (hd : (d == '-' || Numeral.isDigit d) = false) : c ≠ d := by
  rintro rfl
  rw [Bool.or_eq_false_iff, beq_eq_false_iff_ne] at hd
  rcases h with h | h
  · exact hd.1 h
  · rw [hd.2] at h
    cases h

theorem read_of_number {c : Char} {cs : List Char} (h : c = '-' ∨ Numeral.isDigit c = true) :
    read c cs = readNumber (c :: cs) ∧ isBlank c = false := by
  constructor
  · unfold read
    split
    case h_11 =>
      rw [if_pos]
      simpa using h
    all_goals exact absurd rfl (ne_of_number h (by decide))
  · have hblank : c ≠ ' ' ∧ c ≠ '\t' ∧ c ≠ '\n' ∧ c ≠ '\r' :=
      ⟨ne_of_number h (by decide), ne_of_number h (by decide), ne_of_number h (by decide),
        ne_of_number h (by decide)⟩
    simp [isBlank, hblank]

end Token

/-- What reads as a number up to what may follow a value is the number. -/
theorem readsBack_of_read {n : JsonNumber} {c : Char} {cs : List Char} {text : NumberText}
    (hchars : numberChars n = c :: cs) (hc : c = '-' ∨ Numeral.isDigit c = true)
    (hread : ∀ rest, Follows rest → NumberText.read (c :: cs ++ rest) = (.ok text, rest))
    (hvalue : text.value = .ok n) : ReadsBack n := by
  intro rest hrest
  obtain ⟨hnumber, hblank⟩ := @Token.read_of_number c (cs ++ rest) hc
  rw [hchars, List.cons_append]
  apply Token.ofText_of_read hblank
  rw [hnumber, Token.readNumber, ← List.cons_append, hread rest hrest]
  dsimp only
  rw [hvalue]

/-- A whole number of 64 bits, with or without a sign, is read as itself. -/
theorem readsBack_integer {n : Int} (h : fitsUnsigned 64 n = true ∨ fitsSigned 64 n = true) :
    ReadsBack (.integer n) := by
  rw [fitsUnsigned, fitsSigned, decide_eq_true_eq, decide_eq_true_eq, Nat.add_sub_cancel 63 1] at h
  have hbounds : twoPow 63 < twoPow 64 := by decide
  rcases Int.lt_or_le n 0 with hn | hn
  · -- The digits are those of the magnitude, behind a minus sign.
    have hmagnitude : ∃ m : Nat, n = -m ∧ 0 < m ∧ m ≤ twoPow 63 := ⟨n.natAbs, by omega, by omega, by omega⟩
    obtain ⟨m, rfl, hpos, hm⟩ := hmagnitude
    have hchars : numberChars (.integer (-m)) = '-' :: decimalDigits m := by
      rw [numberChars, decimalInt, if_pos hn, Int.natAbs_neg, Int.natAbs_natCast]
    apply readsBack_of_read hchars (Or.inl rfl) _ (NumberText.value_negative_decimalDigits hpos hm)
    intro rest hrest
    exact NumberText.readUnsigned_decimalDigits hrest true m
  · obtain ⟨m, rfl⟩ := Int.eq_ofNat_of_zero_le hn
    have hm : m < twoPow 64 := by omega
    have hchars : numberChars (.integer m) = decimalDigits m := by
      rw [numberChars, decimalInt, if_neg (by omega), Int.natAbs_natCast]
    cases hdigits : decimalDigits m with
    | nil => exact absurd hdigits (decimalDigits_ne_nil m)
    | cons c cs =>
        have hc : Numeral.isDigit c = true := isDigit_of_mem_decimalDigits (hdigits ▸ List.mem_cons_self)
        apply readsBack_of_read (hchars.trans hdigits) (Or.inr hc) _ (NumberText.value_decimalDigits hm)
        intro rest hrest
        rw [← hdigits]
        exact NumberText.read_decimalDigits hrest m

/-! ## Strings -/

namespace StringPiece

theorem hex?_hexDigit {n : Nat} (h : n < 32) :
    hex? '0' '0' (hexDigit (n / 16)) (hexDigit (n % 16)) = some n := by
  have hall : ∀ n < 32, hex? '0' '0' (hexDigit (n / 16)) (hexDigit (n % 16)) = some n := by decide +kernel
  exact hall n h

theorem readAll_char {c : Char} (tail : List Char) (hquote : c ≠ '"') (hbackslash : c ≠ '\\')
    (hcontrol : ¬ c.toNat < 32) :
    readAll (c :: tail) = (char c :: (readAll tail).1, (readAll tail).2.1, (readAll tail).2.2) := by
  rw [readAll, if_neg hcontrol]
  · exact hquote
  -- No escape begins here.
  · exact fun _ _ _ _ _ h _ => hbackslash h
  · exact fun _ h _ => hbackslash h
  · exact fun _ _ h _ => hbackslash h
  · exact fun h _ => hbackslash h

/-- The characters that are written as a letter behind a backslash, with their letters. -/
def letters : List (Char × Char) :=
  [('"', '"'), ('\\', '\\'), ('\n', 'n'), ('\r', 'r'), ('\t', 't'), ('\x08', 'b'), ('\x0c', 'f')]

theorem escape_of_mem_letters :
    ∀ p ∈ letters, p.2 ≠ 'u' ∧ escape? p.2 = some p.1 ∧ escapeChar p.1 = ['\\', p.2] := by decide

/-- A character is written as a letter behind a backslash, as a code unit, or as it is. -/
theorem escapeChar_cases (c : Char) :
    (∃ x, x ≠ 'u' ∧ escape? x = some c ∧ escapeChar c = ['\\', x]) ∨
      (c.toNat < 32 ∧
        escapeChar c = ['\\', 'u', '0', '0', hexDigit (c.toNat / 16), hexDigit (c.toNat % 16)]) ∨
      (c ≠ '"' ∧ c ≠ '\\' ∧ ¬ c.toNat < 32 ∧ escapeChar c = [c]) := by
  by_cases hletter : ∃ x, (c, x) ∈ letters
  · obtain ⟨x, hx⟩ := hletter
    exact Or.inl ⟨x, escape_of_mem_letters (c, x) hx⟩
  have hnone : ∀ p ∈ letters, c ≠ p.1 := by
    rintro p hp rfl
    exact hletter ⟨p.2, hp⟩
  simp only [letters, List.forall_mem_cons] at hnone
  obtain ⟨hquote, hbackslash, hnewline, hreturn, htab, hback, hfeed, -⟩ := hnone
  rw [escapeChar, if_neg hquote, if_neg hbackslash, if_neg hnewline, if_neg hreturn, if_neg htab, if_neg hback,
    if_neg hfeed]
  by_cases hcontrol : c.toNat < 32
  · exact Or.inr (Or.inl ⟨hcontrol, if_pos hcontrol⟩)
  · exact Or.inr (Or.inr ⟨hquote, hbackslash, hcontrol, if_neg hcontrol⟩)

theorem readAll_letter {x c : Char} (tail : List Char) (hx : x ≠ 'u') (h : escape? x = some c) :
    readAll ('\\' :: x :: tail) = (char c :: (readAll tail).1, (readAll tail).2.1, (readAll tail).2.2) := by
  rw [readAll, h]
  · exact fun _ _ _ _ _ hu _ => hx hu
  · exact hx

theorem readAll_unit {n : Nat} (tail : List Char) (h : n < 32) :
    readAll ('\\' :: 'u' :: '0' :: '0' :: hexDigit (n / 16) :: hexDigit (n % 16) :: tail) =
      (unit n :: (readAll tail).1, (readAll tail).2.1, (readAll tail).2.2) := by
  rw [readAll, hex?_hexDigit h]

/-- A code unit of a control character stands for it. -/
theorem text_unit {c : Char} (h : c.toNat < 32) (ending : Option Fault) (rest : List StringPiece) :
    text ending (unit c.toNat :: rest) = (text ending rest).map (c :: ·) := by
  have hlow : isLow c.toNat = false := by
    rw [isLow, decide_eq_false_iff_not]
    omega
  have hhigh : isHigh c.toNat = false := by
    rw [isHigh, decide_eq_false_iff_not]
    omega
  rw [text.eq_def]
  simp [hlow, hhigh]

/-- An escaped character is read as one piece, which stands for it. -/
theorem readAll_escapeChar (c : Char) (tail : List Char) :
    ∃ piece, readAll (escapeChar c ++ tail) =
        (piece :: (readAll tail).1, (readAll tail).2.1, (readAll tail).2.2) ∧
      ∀ ending rest, text ending (piece :: rest) = (text ending rest).map (c :: ·) := by
  rcases escapeChar_cases c with ⟨x, hx, hescape, hc⟩ | ⟨hcontrol, hc⟩ | ⟨hquote, hbackslash, hcontrol, hc⟩
  · exact ⟨char c, by rw [hc]; exact readAll_letter tail hx hescape, fun _ _ => rfl⟩
  · exact ⟨unit c.toNat, by rw [hc]; exact readAll_unit tail hcontrol, text_unit hcontrol⟩
  · exact ⟨char c, by rw [hc]; exact readAll_char tail hquote hbackslash hcontrol, fun _ _ => rfl⟩

/-- Escaped characters are read up to the closing quote, and stand for themselves. -/
theorem readAll_flatMap_escapeChar (cs tail : List Char) :
    ∃ pieces, readAll (cs.flatMap escapeChar ++ '"' :: tail) = (pieces, none, tail) ∧
      text none pieces = .ok cs := by
  induction cs with
  | nil => exact ⟨[], rfl, rfl⟩
  | cons c cs ih =>
      obtain ⟨pieces, hpieces, htext⟩ := ih
      obtain ⟨piece, hpiece, hchar⟩ := readAll_escapeChar c (cs.flatMap escapeChar ++ '"' :: tail)
      refine ⟨piece :: pieces, ?_, ?_⟩
      · rw [List.flatMap_cons, List.append_assoc, hpiece, hpieces]
      · rw [hchar, htext]
        rfl

end StringPiece

/-- A quoted text is read as itself. -/
theorem ofText_quote (s : String) (rest : List Char) :
    Token.ofText (quote s ++ rest) = .string (.ok s) none :: Token.ofText rest := by
  obtain ⟨pieces, hpieces, htext⟩ := StringPiece.readAll_flatMap_escapeChar s.toList rest
  have hquote : quote s ++ rest = '"' :: (s.toList.flatMap escapeChar ++ '"' :: rest) := by
    simp [quote]
  rw [hquote]
  apply Token.ofText_of_read (by decide)
  change Token.readString _ = _
  rw [Token.readString, hpieces]
  dsimp only
  rw [htext]
  simp [Except.map]

end Json

end EventFinder
