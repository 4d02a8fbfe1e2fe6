import EventFinder.Number.Arithmetic

/-!
# JSON values

A value as programs exchange it. Numbers keep apart what is written as a whole number and what is
written with a point or an exponent. An object is the list of its members in the order written; of
two members of one name the last counts, which is what `Json.get?` says.
-/

set_option autoImplicit false

namespace EventFinder

/-- A JSON number: a whole number that fits 64 bits with or without a sign, or a binary number. -/
inductive JsonNumber where
  | integer (n : Int)
  | real (x : Binary64)
deriving DecidableEq, Repr

/-- A JSON value. -/
inductive Json where
  | null
  | bool (b : Bool)
  | number (n : JsonNumber)
  | string (s : String)
  | array (items : List Json)
  | object (members : List (String × Json))
deriving Repr

namespace JsonNumber

/-- The 64-bit binary number nearest to the value. -/
def toBinary64 : JsonNumber → Binary64
  | integer n => Binary.ofInt n
  | real x => x

/-- The 32-bit binary number nearest to the value. -/
def toBinary32 : JsonNumber → Binary32
  | integer n => Binary.ofInt n
  | real x => x.convert

end JsonNumber

namespace Json

instance : Inhabited Json := ⟨null⟩

/-! ## Members -/

/-- The value of the last member called `key`. -/
def lookup (key : String) : List (String × Json) → Option Json
  | [] => none
  | (name, value) :: rest =>
      match lookup key rest with
      | some later => some later
      | none => if name = key then some value else none

/-- The member of an object called `key`. -/
def get? (key : String) : Json → Option Json
  | object members => lookup key members
  | _ => none

/-- A member's value is smaller than the list it is in. -/
theorem sizeOf_lookup {key : String} {members : List (String × Json)} {value : Json}
    (h : lookup key members = some value) : sizeOf value < sizeOf members := by
  induction members with
  | nil => simp [lookup] at h
  | cons member rest ih =>
      obtain ⟨name, v⟩ := member
      rw [lookup] at h
      cases hr : lookup key rest with
      | some later =>
          rw [hr] at h
          simp only [Option.some.injEq] at h
          subst h
          have := ih hr
          simp only [List.cons.sizeOf_spec, Prod.mk.sizeOf_spec]
          omega
      | none =>
          rw [hr] at h
          simp only at h
          split at h
          · simp only [Option.some.injEq] at h
            subst h
            simp only [List.cons.sizeOf_spec, Prod.mk.sizeOf_spec]
            omega
          · simp at h

/-! ## Views -/

/-- Is the value `null`? -/
def isNull : Json → Bool
  | null => true
  | _ => false

/-- The text of a string. -/
def string? : Json → Option String
  | string s => some s
  | _ => none

/-- The truth value of a boolean. -/
def bool? : Json → Option Bool
  | bool b => some b
  | _ => none

/-- The items of an array. -/
def array? : Json → Option (List Json)
  | array items => some items
  | _ => none

/-- The members of an object. -/
def object? : Json → Option (List (String × Json))
  | object members => some members
  | _ => none

/-- Any number, as a 64-bit binary number. -/
def real? : Json → Option Binary64
  | number n => some n.toBinary64
  | _ => none

/-- A whole number that fits a signed 64-bit integer; one written with a point or an exponent is
none. -/
def int64? : Json → Option Int64
  | number (.integer n) =>
      if fitsSigned 64 n then some (Int64.ofInt n) else none
  | _ => none

end Json

end EventFinder
