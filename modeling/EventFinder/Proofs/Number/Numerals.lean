import EventFinder.Number.Numeral
import Mathlib.Data.List.TakeWhile

/-!
# The grammar of numerals

Which texts are numbers is said without reading them: `IsUnsigned` and `IsSigned` are the grammars of whole numbers of
64 bits, and `IsReal` is the grammar of binary numbers. A text is read as a number exactly if it is in the grammar
(`isSome_unsigned?`, `isSome_signed?` and `isSome_binary?`).
-/

set_option autoImplicit false

namespace EventFinder

namespace Numeral

/-! ## The grammar -/

/-- One digit or more. -/
def IsDigits (cs : List Char) : Prop := cs ≠ [] ∧ ∀ c ∈ cs, isDigit c = true

/-- Digits of a number below `bound`, with an optional plus sign. -/
def IsNatural (bound : Nat) (cs : List Char) : Prop :=
  ∃ digits, (cs = digits ∨ cs = '+' :: digits) ∧ IsDigits digits ∧ valueOf digits < bound

/-- A natural number of 64 bits. -/
def IsUnsigned (s : String) : Prop := IsNatural (twoPow 64) s.toList

/-- An integer of 64 bits. -/
def IsSigned (s : String) : Prop :=
  IsNatural (twoPow 63) s.toList ∨
    ∃ digits, s.toList = '-' :: digits ∧ IsDigits digits ∧ valueOf digits ≤ twoPow 63

/-- What follows one of the signs, or no sign. -/
def IsSignedBy (body : List Char → Prop) (cs : List Char) : Prop :=
  body cs ∨ ∃ sign rest, (sign = '+' ∨ sign = '-') ∧ cs = sign :: rest ∧ body rest

/-- An exponent behind its letter, or nothing. -/
inductive IsExponent : List Char → Prop where
  | nothing : IsExponent []
  | exponent {letter : Char} {cs : List Char} (isLetter : letter = 'e' ∨ letter = 'E')
      (digits : IsSignedBy IsDigits cs) : IsExponent (letter :: cs)

/-- Digits with an optional point, with a digit on one side of it at least, and an optional exponent. -/
inductive IsDecimal : List Char → Prop where
  | whole {digits exponent : List Char} (isDigits : IsDigits digits) (isExponent : IsExponent exponent) :
      IsDecimal (digits ++ exponent)
  | point {digits fraction exponent : List Char} (isDigits : IsDigits (digits ++ fraction))
      (isExponent : IsExponent exponent) : IsDecimal (digits ++ '.' :: (fraction ++ exponent))

/-- The names of infinity and of what is no number, in lower case. -/
def realNames : List (List Char) := ["inf".toList, "infinity".toList, "nan".toList]

/-- A decimal, or a name in any letter case. -/
def IsRealBody (cs : List Char) : Prop := lowerAscii cs ∈ realNames ∨ IsDecimal cs

/-- A binary number, with an optional sign. -/
def IsReal (s : String) : Prop := IsSignedBy IsRealBody s.toList

/-! ## Digits -/

theorem digits?_eq_some_iff {cs : List Char} {n : Nat} : digits? cs = some n ↔ IsDigits cs ∧ valueOf cs = n := by
  rw [digits?, IsDigits, Option.ite_none_right_eq_some, Option.some.injEq, Bool.and_eq_true, Bool.not_eq_true',
    List.isEmpty_eq_false_iff, List.all_eq_true]

theorem isSome_digits? {cs : List Char} : (digits? cs).isSome ↔ IsDigits cs := by
  simp only [Option.isSome_iff_exists, digits?_eq_some_iff, exists_and_left, exists_eq', and_true]

theorem isSome_filter_digits? {cs : List Char} {p : Nat → Bool} :
    ((digits? cs).filter p).isSome ↔ IsDigits cs ∧ p (valueOf cs) = true := by
  simp only [Option.isSome_iff_exists, Option.filter_eq_some_iff, digits?_eq_some_iff]
  constructor
  · rintro ⟨n, ⟨hdigits, rfl⟩, hn⟩
    exact ⟨hdigits, hn⟩
  · rintro ⟨hdigits, hn⟩
    exact ⟨_, ⟨hdigits, rfl⟩, hn⟩

/-! ## Signs -/

section Signs

variable {body : List Char → Prop} {cs : List Char}

/-- If nothing in the grammar begins with a sign, what begins with one is the sign and what follows it. -/
theorem isSignedBy_cons_iff {sign : Char} (hsign : sign = '+' ∨ sign = '-') (hbody : ¬ body (sign :: cs)) :
    IsSignedBy body (sign :: cs) ↔ body cs := by
  constructor
  · rintro (h | ⟨sign', rest, -, heq, h⟩)
    · exact absurd h hbody
    · cases heq
      exact h
  · exact fun h => Or.inr ⟨sign, cs, hsign, rfl, h⟩

theorem isSignedBy_iff_of_ne (hminus : ∀ rest, cs ≠ '-' :: rest) (hplus : ∀ rest, cs ≠ '+' :: rest) :
    IsSignedBy body cs ↔ body cs := by
  refine or_iff_left ?_
  rintro ⟨sign, rest, rfl | rfl, hsign, -⟩
  · exact hplus rest hsign
  · exact hminus rest hsign

end Signs

theorem not_isDigits_sign {sign : Char} (hsign : sign = '+' ∨ sign = '-') (rest : List Char) :
    ¬ IsDigits (sign :: rest) := by
  intro h
  have hdigit := h.2 sign List.mem_cons_self
  rcases hsign with rfl | rfl <;> cases hdigit

/-! ## Whole numbers -/

/-- A natural number taken for an integer is there as it was. -/
theorem isSome_map_cast (n : Option Nat) : (n >>= fun m => pure (m : Int)).isSome = n.isSome := by
  cases n <;> rfl

theorem isSome_natural? {bound : Nat} {cs : List Char} : (natural? bound cs).isSome ↔ IsNatural bound cs := by
  rw [natural?.eq_def, isSome_filter_digits?, decide_eq_true_iff]
  -- A sign is no digit, so that a text with one has only the form with a sign, and one without it only the other.
  split
  · rename_i rest
    constructor
    · rintro ⟨hdigits, hvalue⟩
      exact ⟨rest, Or.inr rfl, hdigits, hvalue⟩
    · rintro ⟨digits, rfl | hplus, hdigits, hvalue⟩
      · exact absurd hdigits (not_isDigits_sign (Or.inl rfl) rest)
      · cases hplus
        exact ⟨hdigits, hvalue⟩
  · rename_i hplus
    constructor
    · rintro ⟨hdigits, hvalue⟩
      exact ⟨cs, Or.inl rfl, hdigits, hvalue⟩
    · rintro ⟨digits, rfl | rfl, hdigits, hvalue⟩
      · exact ⟨hdigits, hvalue⟩
      · exact absurd rfl (hplus digits)

/-- A text is read as a natural number of 64 bits exactly if it is one. -/
theorem isSome_unsigned? {s : String} : (unsigned? s).isSome ↔ IsUnsigned s := by
  rw [unsigned?, Option.isSome_map, isSome_natural?]
  rfl

/-- A text is read as an integer of 64 bits exactly if it is one. -/
theorem isSome_signed? {s : String} : (signed? s).isSome ↔ IsSigned s := by
  rw [signed?, IsSigned]
  split
  · rename_i rest hs
    rw [Option.isSome_map, isSome_map_cast, isSome_filter_digits?, decide_eq_true_iff, hs]
    constructor
    · rintro ⟨hdigits, hvalue⟩
      exact Or.inr ⟨rest, rfl, hdigits, hvalue⟩
    · rintro (⟨digits, rfl | hplus, hdigits, -⟩ | ⟨digits, hminus, hdigits, hvalue⟩)
      · exact absurd hdigits (not_isDigits_sign (Or.inr rfl) rest)
      · cases hplus
      · cases hminus
        exact ⟨hdigits, hvalue⟩
  · rename_i hminus
    rw [Option.isSome_map, isSome_map_cast, isSome_natural?, or_iff_left]
    rintro ⟨digits, hs, -⟩
    exact hminus digits hs

/-! ## Decimals -/

theorem isSome_exponent? {cs : List Char} : (exponent? cs).isSome ↔ IsSignedBy IsDigits cs := by
  rw [exponent?.eq_def]
  split
  · rename_i rest
    rw [Option.isSome_map, isSome_map_cast, isSome_digits?,
      isSignedBy_cons_iff (Or.inr rfl) (not_isDigits_sign (Or.inr rfl) rest)]
  · rename_i rest
    rw [Option.isSome_map, isSome_digits?, isSignedBy_cons_iff (Or.inl rfl) (not_isDigits_sign (Or.inl rfl) rest)]
  · rename_i hminus hplus
    rw [Option.isSome_map, isSome_digits?, isSignedBy_iff_of_ne hminus hplus]

theorem isExponent_cons_iff {c : Char} {cs : List Char} :
    IsExponent (c :: cs) ↔ (c = 'e' ∨ c = 'E') ∧ IsSignedBy IsDigits cs :=
  ⟨fun | .exponent isLetter digits => ⟨isLetter, digits⟩, fun ⟨isLetter, digits⟩ => .exponent isLetter digits⟩

theorem IsExponent.isDigit_head {cs : List Char} (h : IsExponent cs) : ∀ c ∈ cs.head?, isDigit c = false := by
  cases h with
  | nothing => exact fun _ => nofun
  | exponent isLetter =>
      rintro c ⟨⟩
      rcases isLetter with rfl | rfl <;> rfl

/-- Digits are told from what follows them by the first character that is none. -/
theorem span_digits {digits rest : List Char} (hdigits : ∀ c ∈ digits, isDigit c = true)
    (hrest : ∀ c ∈ rest.head?, isDigit c = false) :
    (digits ++ rest).takeWhile isDigit = digits ∧ (digits ++ rest).dropWhile isDigit = rest := by
  rw [List.takeWhile_append_of_pos hdigits, List.dropWhile_append_of_pos hdigits]
  cases rest with
  | nil => exact ⟨List.append_nil _, rfl⟩
  | cons c rest =>
      rw [List.takeWhile_cons, List.dropWhile_cons, hrest c rfl]
      exact ⟨List.append_nil _, rfl⟩

theorem isDigit_of_mem_takeWhile {cs : List Char} : ∀ c ∈ cs.takeWhile isDigit, isDigit c = true :=
  fun _ hc => List.mem_takeWhile_imp hc

/-- The parts of a decimal are found from left to right. -/
theorem isDecimal_iff {cs : List Char} :
    IsDecimal cs ↔
      (∃ tail, cs.dropWhile isDigit = '.' :: tail ∧ IsDigits (cs.takeWhile isDigit ++ tail.takeWhile isDigit) ∧
        IsExponent (tail.dropWhile isDigit)) ∨
      IsDigits (cs.takeWhile isDigit) ∧ IsExponent (cs.dropWhile isDigit) := by
  constructor
  · -- Neither a point nor the letter of an exponent is a digit: each part ends where the next one begins.
    intro h
    cases h with
    | whole isDigits isExponent =>
        obtain ⟨htake, hdrop⟩ := span_digits isDigits.2 isExponent.isDigit_head
        rw [htake, hdrop]
        exact Or.inr ⟨isDigits, isExponent⟩
    | @point digits fraction exponent isDigits isExponent =>
        obtain ⟨hdigits, hfraction⟩ := List.forall_mem_append.1 isDigits.2
        have hpoint : ∀ c ∈ ('.' :: (fraction ++ exponent)).head?, isDigit c = false := by
          rintro c ⟨⟩
          rfl
        obtain ⟨htake, hdrop⟩ := span_digits hdigits hpoint
        obtain ⟨htake', hdrop'⟩ := span_digits hfraction isExponent.isDigit_head
        refine Or.inl ⟨fraction ++ exponent, hdrop, ?_, ?_⟩
        · rw [htake, htake']
          exact isDigits
        · rw [hdrop']
          exact isExponent
  · -- The parts that are found are the text again when they are put together.
    rintro (⟨tail, hdrop, isDigits, isExponent⟩ | ⟨isDigits, isExponent⟩)
    · have h := IsDecimal.point isDigits isExponent
      rwa [List.takeWhile_append_dropWhile, ← hdrop, List.takeWhile_append_dropWhile] at h
    · have h := IsDecimal.whole isDigits isExponent
      rwa [List.takeWhile_append_dropWhile] at h

/-- There is a number where there are digits and an exponent that can be read. -/
theorem isSome_parts {f : Format} (negative : Bool) {whole fraction : List Char} (rest : List Char)
    (hwhole : ∀ c ∈ whole, isDigit c = true) (hfraction : ∀ c ∈ fraction, isDigit c = true) :
    (if whole.isEmpty && fraction.isEmpty then none
      else
        let scaled (e : Int) : Binary f :=
          nearestDecimal negative (valueOf (whole ++ fraction)) (e - fraction.length)
        match rest with
        | [] => some (scaled 0)
        | c :: tail => if c = 'e' || c = 'E' then (exponent? tail).map scaled else none).isSome ↔
      IsDigits (whole ++ fraction) ∧ IsExponent rest := by
  have hempty : (whole.isEmpty && fraction.isEmpty) = true ↔ whole ++ fraction = [] := by
    rw [Bool.and_eq_true, List.isEmpty_iff, List.isEmpty_iff, List.append_eq_nil_iff]
  have hdigits : IsDigits (whole ++ fraction) ↔ whole ++ fraction ≠ [] :=
    and_iff_left (List.forall_mem_append.2 ⟨hwhole, hfraction⟩)
  split
  · rename_i hnil
    exact iff_of_false nofun fun h => hdigits.1 h.1 (hempty.1 hnil)
  · rename_i hne
    rw [hdigits, and_iff_right (mt hempty.2 hne)]
    cases rest with
    | nil => exact iff_of_true rfl .nothing
    | cons c tail =>
        rw [isExponent_cons_iff, ← isSome_exponent?]
        by_cases hc : c = 'e' ∨ c = 'E'
        · simp [hc]
        · simp [hc]

/-- A text is read as a decimal exactly if it is one. -/
theorem isSome_unsignedDecimal? {f : Format} {negative : Bool} {cs : List Char} :
    (unsignedDecimal? negative cs : Option (Binary f)).isSome ↔ IsDecimal cs := by
  rw [unsignedDecimal?, isDecimal_iff]
  dsimp only
  split
  · rename_i tail hpoint
    refine (isSome_parts negative _ isDigit_of_mem_takeWhile isDigit_of_mem_takeWhile).trans ⟨fun h => ?_, ?_⟩
    · exact Or.inl ⟨tail, hpoint, h⟩
    · rintro (⟨tail', hpoint', h⟩ | ⟨-, h⟩)
      · cases hpoint.symm.trans hpoint'
        exact h
      · -- A point begins no exponent.
        rw [hpoint, isExponent_cons_iff] at h
        rcases h.1 with hc | hc <;> cases hc
  · rename_i hpoint
    refine (isSome_parts negative _ isDigit_of_mem_takeWhile (List.forall_mem_nil _)).trans ?_
    rw [List.append_nil, or_iff_right]
    rintro ⟨tail, hdrop, -⟩
    exact hpoint tail hdrop

/-! ## Binary numbers -/

/-- A sign belongs to no name and to no decimal. -/
theorem not_isRealBody_sign {sign : Char} (h : sign = '+' ∨ sign = '-') (rest : List Char) :
    ¬ IsRealBody (sign :: rest) := by
  have hdigit : isDigit sign = false := by rcases h with rfl | rfl <;> rfl
  rintro (hname | hdecimal)
  · have hhead : ∀ name ∈ realNames, name.head? = some 'i' ∨ name.head? = some 'n' := by decide
    have hsign := hhead _ hname
    rcases h with rfl | rfl <;> rcases hsign with hsign | hsign <;> cases hsign
  · rw [isDecimal_iff, List.takeWhile_cons, List.dropWhile_cons, hdigit] at hdecimal
    rcases hdecimal with ⟨tail, hpoint, -⟩ | ⟨hdigits, -⟩
    · cases hpoint
      rcases h with h | h <;> cases h
    · exact hdigits.1 rfl

theorem isSome_binaryBody {f : Format} (negative : Bool) (cs : List Char) :
    (if lowerAscii cs = "inf".toList || lowerAscii cs = "infinity".toList then some (Binary.infinity negative)
      else if lowerAscii cs = "nan".toList then some (Binary.quiet negative)
      else (unsignedDecimal? negative cs : Option (Binary f))).isSome ↔ IsRealBody cs := by
  have hname : lowerAscii cs ∈ realNames ↔
      (lowerAscii cs = "inf".toList ∨ lowerAscii cs = "infinity".toList) ∨ lowerAscii cs = "nan".toList := by
    simp only [realNames, List.mem_cons, List.not_mem_nil, or_false, or_assoc]
  rw [IsRealBody, hname]
  split
  · rename_i hinfinity
    rw [Bool.or_eq_true, decide_eq_true_iff, decide_eq_true_iff] at hinfinity
    exact iff_of_true Option.isSome_some (Or.inl (Or.inl hinfinity))
  · rename_i hinfinity
    rw [Bool.or_eq_true, decide_eq_true_iff, decide_eq_true_iff] at hinfinity
    split
    · rename_i hnan
      exact iff_of_true Option.isSome_some (Or.inl (Or.inr hnan))
    · rename_i hnan
      rw [isSome_unsignedDecimal?, or_iff_right (not_or.2 ⟨hinfinity, hnan⟩)]

/-- A text is read as a binary number exactly if it is one. -/
theorem isSome_binary? {f : Format} {s : String} : (binary? s : Option (Binary f)).isSome ↔ IsReal s := by
  rw [binary?, IsReal]
  generalize s.toList = cs
  dsimp only
  split
  · rename_i rest
    rw [isSignedBy_cons_iff (Or.inr rfl) (not_isRealBody_sign (Or.inr rfl) rest)]
    exact isSome_binaryBody true rest
  · rename_i rest
    rw [isSignedBy_cons_iff (Or.inl rfl) (not_isRealBody_sign (Or.inl rfl) rest)]
    exact isSome_binaryBody false rest
  · rename_i hminus hplus
    rw [isSignedBy_iff_of_ne hminus hplus]
    exact isSome_binaryBody false cs

end Numeral

end EventFinder
