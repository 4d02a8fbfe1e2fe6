import EventFinder.Json.Value
import EventFinder.Number.Numeral
import EventFinder.Text.Utf8

/-!
# Tokens of JSON text

A text is cut into tokens up to the first place where no token can be read. A number or string token
says two things: its value, if a reader wants it, and whether a reader that skips it can go on. The
two differ where the text is well formed but stands for nothing: a number too large, or an escape
that is half a surrogate pair.
-/

set_option autoImplicit false

namespace EventFinder

namespace Json

/-- Why a text or value is refused. -/
inductive Fault where
  /-- The text ends too early. -/
  | incomplete
  /-- The text is no JSON. -/
  | malformed
  /-- The JSON has another shape than wanted. -/
  | mismatched
deriving DecidableEq, Repr

/-- A piece of JSON text. -/
inductive Token where
  | leftBrace
  | rightBrace
  | leftBracket
  | rightBracket
  | colon
  | comma
  | null
  | bool (b : Bool)
  | number (value : Except Fault JsonNumber) (shape : Option Fault)
  | string (value : Except Fault String) (shape : Option Fault)
  | fault (f : Fault)
deriving Repr

/-! ## Numbers -/

/-- The parts of a number as written. -/
structure NumberText where
  negative : Bool
  whole : List Char
  fraction : Option (List Char)
  /-- The sign and digits after the exponent mark. -/
  exponent : Option (Bool × List Char)
deriving Repr

namespace NumberText

/-- Digits are wanted: the fault if there are none before `rest`. -/
def missingDigits (rest : List Char) : Fault :=
  if rest.isEmpty then .incomplete else .malformed

/-- Splits off the sign of an exponent: is it a minus sign, and what follows. -/
def exponentSign : List Char → Bool × List Char
  | '+' :: rest => (false, rest)
  | '-' :: rest => (true, rest)
  | cs => (false, cs)

/-- Splits off a minus sign: is there one, and what follows. -/
def minusSign : List Char → Bool × List Char
  | '-' :: rest => (true, rest)
  | cs => (false, cs)

/-- Reads the digits after an exponent mark. -/
def readExponent (cs : List Char) : Except Fault (Bool × List Char) × List Char :=
  let body := (exponentSign cs).2
  let digits := body.takeWhile Numeral.isDigit
  let rest := body.dropWhile Numeral.isDigit
  (if digits.isEmpty then .error (missingDigits rest) else .ok ((exponentSign cs).1, digits), rest)

/-- Reads what may follow the digits before an exponent mark. -/
def readTail (text : NumberText) (cs : List Char) : Except Fault NumberText × List Char :=
  match cs with
  | c :: rest =>
      if c = 'e' || c = 'E' then
        let (exponent, rest) := readExponent rest
        (exponent.map fun e => { text with exponent := some e }, rest)
      else (.ok text, cs)
  | [] => (.ok text, [])

/-- Reads what may follow the digits before the point. -/
def readFraction (negative : Bool) (whole cs : List Char) : Except Fault NumberText × List Char :=
  match cs with
  | '.' :: tail =>
      let fraction := tail.takeWhile Numeral.isDigit
      let rest := tail.dropWhile Numeral.isDigit
      if fraction.isEmpty then (.error (missingDigits rest), rest)
      else readTail ⟨negative, whole, some fraction, none⟩ rest
  | _ => readTail ⟨negative, whole, none, none⟩ cs

/-- Reads a number without its sign: a zero is not followed by a digit, a point and an exponent mark
are followed by digits. -/
def readUnsigned (negative : Bool) (cs : List Char) : Except Fault NumberText × List Char :=
  let whole := cs.takeWhile Numeral.isDigit
  let rest := cs.dropWhile Numeral.isDigit
  match whole with
  | [] => (.error (missingDigits rest), rest)
  | '0' :: _ :: _ => (.error .malformed, rest)
  | _ => readFraction negative whole rest

/-- Reads a number. -/
def read (cs : List Char) : Except Fault NumberText × List Char :=
  readUnsigned (minusSign cs).1 (minusSign cs).2

/-! Reading never lengthens the rest. -/

theorem length_exponentSign (cs : List Char) : (exponentSign cs).2.length ≤ cs.length := by
  unfold exponentSign
  split <;> simp

theorem length_dropDigits (cs : List Char) :
    (cs.dropWhile Numeral.isDigit).length ≤ cs.length :=
  (List.dropWhile_sublist _).length_le

theorem length_readExponent (cs : List Char) : (readExponent cs).2.length ≤ cs.length :=
  Nat.le_trans (length_dropDigits _) (length_exponentSign cs)

theorem length_readTail (text : NumberText) (cs : List Char) :
    (readTail text cs).2.length ≤ cs.length := by
  fun_cases readTail text cs with
  | case1 c rest mark exponent rest' heq =>
      have := length_readExponent rest
      simp only [heq] at this
      exact Nat.le_trans this (Nat.le_succ _)
  | case2 => exact Nat.le_refl _
  | case3 => exact Nat.le_refl _

theorem length_readFraction (negative : Bool) (whole cs : List Char) :
    (readFraction negative whole cs).2.length ≤ cs.length := by
  fun_cases readFraction negative whole cs with
  | case1 tail => exact Nat.le_trans (length_dropDigits tail) (Nat.le_succ _)
  | case2 tail =>
      exact Nat.le_trans (Nat.le_trans (length_readTail _ _) (length_dropDigits tail))
        (Nat.le_succ _)
  | case3 => exact length_readTail _ _

theorem length_readUnsigned (negative : Bool) (cs : List Char) :
    (readUnsigned negative cs).2.length ≤ (cs.dropWhile Numeral.isDigit).length := by
  unfold readUnsigned
  simp only
  split
  · exact Nat.le_refl _
  · exact Nat.le_refl _
  · exact length_readFraction _ _ _

/-- A number takes at least one character. -/
theorem length_read {c : Char} {cs : List Char} (hc : c = '-' ∨ Numeral.isDigit c = true) :
    (read (c :: cs)).2.length ≤ cs.length := by
  refine Nat.le_trans (length_readUnsigned _ _) ?_
  unfold minusSign
  split
  · next heq =>
      simp only [List.cons.injEq] at heq
      obtain ⟨-, rfl⟩ := heq
      exact length_dropDigits _
  · next hminus =>
      cases hc with
      | inl h => exact absurd (by rw [h]) (hminus cs)
      | inr h =>
          rw [List.dropWhile_cons, if_pos h]
          exact length_dropDigits cs

/-! The value is formed from the longest run of leading digits that fits 64 bits. -/

/-- Adds a digit before the point to the significand. Once one does not fit, it and all after it only
count as powers of ten. -/
def addWhole (state : Nat × Nat × Bool) (c : Char) : Nat × Nat × Bool :=
  let (significand, dropped, full) := state
  let next := significand * 10 + (Numeral.digit? c).getD 0
  if full || decide (twoPow 64 ≤ next) then (significand, dropped + 1, true)
  else (next, dropped, false)

/-- Adds a digit after the point to the significand. Once one does not fit, it and all after it are
dropped. -/
def addFraction (state : Nat × Nat × Bool) (c : Char) : Nat × Nat × Bool :=
  let (significand, places, full) := state
  let next := significand * 10 + (Numeral.digit? c).getD 0
  if full || decide (twoPow 64 ≤ next) then (significand, places, true)
  else (next, places + 1, false)

/-- Divides by a power of ten, in steps of at most `10 ^ 308`. -/
def scaleDown (x : Binary64) (places : Nat) : Binary64 :=
  if places ≤ 308 then x / Binary.ofInt (tenPow places)
  else if x.isZero then x
  else scaleDown (x / Binary.ofInt (tenPow 308)) (places - 308)
termination_by places

/-- The number nearest to the significand, then scaled by a power of ten. What grows to infinity is
no number. -/
def scaled (significand : Nat) (exponent : Int) : Except Fault Binary64 :=
  let x : Binary64 := Binary.ofInt significand
  if exponent < 0 then .ok (scaleDown x (-exponent).toNat)
  else if exponent ≤ 308 then
    let y := x * Binary.ofInt (tenPow exponent.toNat)
    if y.isInfinite then .error .malformed else .ok y
  else if significand = 0 then .ok x
  else .error .malformed

/-- The largest exponent that counts; a larger one decides the value by its sign. -/
def exponentLimit : Nat := twoPow 31 - 1

/-- The value of a number as written. A whole number that fits stays one; minus zero does not. -/
def value (text : NumberText) : Except Fault JsonNumber :=
  let (significand, dropped, full) := text.whole.foldl addWhole (0, 0, false)
  let real (x : Binary64) : JsonNumber := .real (if text.negative then -x else x)
  let withExponent (significand : Nat) (exponent : Int) : Except Fault JsonNumber :=
    match text.exponent with
    | none => (scaled significand exponent).map real
    | some (negative, digits) =>
        let e := Numeral.valueOf digits
        if exponentLimit < e then
          if significand ≠ 0 && !negative then .error .malformed else .ok (real Binary.zero)
        else
          (scaled significand (if negative then exponent - e else exponent + e)).map real
  match text.fraction with
  | some digits =>
      let (significand, places, _) := digits.foldl addFraction (significand, 0, false)
      withExponent significand (dropped - places)
  | none =>
      if full || text.exponent.isSome then withExponent significand dropped
      else if !text.negative then .ok (.integer significand)
      else if significand = 0 || decide (twoPow 63 < significand) then
        .ok (real (Binary.ofInt significand))
      else .ok (.integer (-significand))

end NumberText

/-! ## Strings -/

/-- A piece of a string: a character, or a 16-bit code unit written as an escape. -/
inductive StringPiece where
  | char (c : Char)
  | unit (n : Nat)
deriving DecidableEq, Repr

namespace StringPiece

/-- The value of a hexadecimal digit. -/
def hexDigit? (c : Char) : Option Nat :=
  if '0' ≤ c ∧ c ≤ '9' then some (c.toNat - 48)
  else if 'a' ≤ c ∧ c ≤ 'f' then some (c.toNat - 87)
  else if 'A' ≤ c ∧ c ≤ 'F' then some (c.toNat - 55)
  else none

/-- The code unit that four hexadecimal digits write. -/
def hex? (a b c d : Char) : Option Nat := do
  let a ← hexDigit? a
  let b ← hexDigit? b
  let c ← hexDigit? c
  let d ← hexDigit? d
  return ((a * 16 + b) * 16 + c) * 16 + d

/-- The character that a one-letter escape writes. -/
def escape? : Char → Option Char
  | '"' => some '"'
  | '\\' => some '\\'
  | '/' => some '/'
  | 'b' => some '\x08'
  | 'f' => some '\x0c'
  | 'n' => some '\n'
  | 'r' => some '\r'
  | 't' => some '\t'
  | _ => none

/-- The fault of an escape that four hexadecimal digits should follow, where fewer than four
characters are left. -/
def shortHex (cs : List Char) : Fault :=
  if byteLength cs < 4 then .incomplete else .malformed

/-- Reads the pieces of a string up to its closing quote: the pieces, the fault that stops the
reader if there is one, and the rest of the text. -/
def readAll : List Char → List StringPiece × Option Fault × List Char
  | [] => ([], some .incomplete, [])
  | '"' :: rest => ([], none, rest)
  | '\\' :: 'u' :: a :: b :: c :: d :: rest =>
      match hex? a b c d with
      | some n =>
          let (pieces, fault, rest) := readAll rest
          (unit n :: pieces, fault, rest)
      | none => ([], some .malformed, rest)
  | '\\' :: 'u' :: rest => ([], some (shortHex rest), [])
  | '\\' :: c :: rest =>
      match escape? c with
      | some e =>
          let (pieces, fault, rest) := readAll rest
          (char e :: pieces, fault, rest)
      | none => ([], some .malformed, rest)
  | ['\\'] => ([], some .incomplete, [])
  | c :: rest =>
      if c.toNat < 32 then ([], some .malformed, rest)
      else
        let (pieces, fault, rest) := readAll rest
        (char c :: pieces, fault, rest)

/-- Is `n` the first half of a surrogate pair? -/
def isHigh (n : Nat) : Bool := decide (0xD800 ≤ n ∧ n < 0xDC00)

/-- Is `n` the second half of a surrogate pair? -/
def isLow (n : Nat) : Bool := decide (0xDC00 ≤ n ∧ n < 0xE000)

/-- The text that pieces stand for, before the fault that ended them. Halves of surrogate pairs must
meet. -/
def text (ending : Option Fault) : List StringPiece → Except Fault (List Char)
  | [] =>
      match ending with
      | none => .ok []
      | some f => .error f
  | char c :: rest => (text ending rest).map (c :: ·)
  | unit n :: rest =>
      if isLow n then .error .malformed
      else if isHigh n then
        match rest with
        | [] => .error (ending.getD .malformed)
        | unit m :: rest =>
            if isLow m then
              (text ending rest).map
                (Char.ofNat (0x10000 + (n - 0xD800) * 0x400 + (m - 0xDC00)) :: ·)
            else .error .malformed
        | char _ :: _ => .error .malformed
      else (text ending rest).map (Char.ofNat n :: ·)

/-- Reading a string never lengthens the rest. -/
theorem length_readAll (cs : List Char) : (readAll cs).2.2.length ≤ cs.length := by
  fun_induction readAll cs <;> simp_all <;> omega

end StringPiece

/-! ## Tokens -/

namespace Token

/-- Blanks between tokens. -/
def isBlank (c : Char) : Bool := c = ' ' || c = '\t' || c = '\n' || c = '\r'

/-- Reads the rest of a word, letter by letter. -/
def readWord (token : Token) : List Char → List Char → Token × Option (List Char)
  | [], cs => (token, some cs)
  | _ :: _, [] => (.fault .incomplete, none)
  | w :: word, c :: cs => if c = w then readWord token word cs else (.fault .malformed, none)

/-- Reads a string after its opening quote. -/
def readString (cs : List Char) : Token × Option (List Char) :=
  let (pieces, ending, rest) := StringPiece.readAll cs
  (.string ((StringPiece.text ending pieces).map String.ofList) ending,
    if ending.isSome then none else some rest)

/-- Reads a number. -/
def readNumber (cs : List Char) : Token × Option (List Char) :=
  match NumberText.read cs with
  | (.ok text, rest) => (.number text.value none, some rest)
  | (.error f, _) => (.number (.error f) (some .malformed), none)

/-- Reads the token that begins with `c`. There is a rest unless no further token can be read. -/
def read (c : Char) (cs : List Char) : Token × Option (List Char) :=
  match c with
  | '{' => (.leftBrace, some cs)
  | '}' => (.rightBrace, some cs)
  | '[' => (.leftBracket, some cs)
  | ']' => (.rightBracket, some cs)
  | ':' => (.colon, some cs)
  | ',' => (.comma, some cs)
  | '"' => readString cs
  | 'n' => readWord .null ['u', 'l', 'l'] cs
  | 't' => readWord (.bool true) ['r', 'u', 'e'] cs
  | 'f' => readWord (.bool false) ['a', 'l', 's', 'e'] cs
  | _ => if c = '-' || Numeral.isDigit c then readNumber (c :: cs) else (.fault .malformed, none)

/-! ### A token is shorter than the text it is read from -/

theorem length_readWord {token : Token} {word cs rest : List Char}
    (h : (readWord token word cs).2 = some rest) : rest.length ≤ cs.length := by
  fun_induction readWord token word cs with
  | case1 => simp_all
  | case2 => simp at h
  | case3 w word cs ih => simp at *; have := ih h; omega
  | case4 => simp at h

theorem length_readNumber {c : Char} {cs rest : List Char}
    (hc : c = '-' ∨ Numeral.isDigit c = true)
    (h : (readNumber (c :: cs)).2 = some rest) : rest.length ≤ cs.length := by
  have hlen : (NumberText.read (c :: cs)).2.length ≤ cs.length := NumberText.length_read hc
  unfold readNumber at h
  split at h
  · next heq =>
      rw [heq] at hlen
      simp only [Option.some.injEq] at h
      subst h
      exact hlen
  · simp at h

theorem length_readString {cs rest : List Char} (h : (readString cs).2 = some rest) :
    rest.length ≤ cs.length := by
  have hlen := StringPiece.length_readAll cs
  unfold readString at h
  simp only at h
  split at h
  · simp at h
  · simp only [Option.some.injEq] at h
    subst h
    exact hlen

theorem length_read {c : Char} {cs rest : List Char} (h : (read c cs).2 = some rest) :
    rest.length ≤ cs.length := by
  unfold read at h
  split at h
  case h_7 => exact length_readString h
  case h_8 => exact length_readWord h
  case h_9 => exact length_readWord h
  case h_10 => exact length_readWord h
  case h_11 =>
    split at h
    · next hc =>
        refine length_readNumber ?_ h
        simpa using hc
    · simp at h
  all_goals
    simp only [Option.some.injEq] at h
    subst h
    exact Nat.le_refl _

/-- The tokens of a text, up to the first place where none can be read. -/
def ofText : List Char → List Token
  | [] => []
  | c :: cs =>
      if isBlank c then ofText cs
      else
        match _h : read c cs with
        | (token, none) => [token]
        | (token, some rest) => token :: ofText rest
termination_by cs => cs.length
decreasing_by
  · simp
  · have hrest : (read c cs).2 = some rest := by rw [_h]
    have := length_read hrest
    simp only [List.length_cons]
    omega

end Token

end Json

end EventFinder
