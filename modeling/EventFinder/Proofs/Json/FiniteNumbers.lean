import EventFinder.Json.Shape
import EventFinder.Proofs.Number.Finite
import EventFinder.Proofs.Outcome

/-!
# The numbers of a text are finite

A number that is too large is refused where it is read, so that all numbers that are read from a text are finite
(`NumberText.isFinite_value`), and so are those in its tree (`hasFiniteNumbers_ofText`). What a record is read from
keeps whatever its parts keep (`record_preserves`).
-/

set_option autoImplicit false

namespace EventFinder

namespace Json

/-! ## Single numbers -/

namespace NumberText

/-- What each digit keeps below a bound is below it behind all digits. -/
theorem foldl_lt {σ : Type} {f : Nat × σ → Char → Nat × σ} {bound : Nat}
    (hf : ∀ state c, state.1 < bound → (f state c).1 < bound) (digits : List Char) {state : Nat × σ}
    (h : state.1 < bound) : (digits.foldl f state).1 < bound := by
  induction digits generalizing state with
  | nil => exact h
  | cons c rest ih => exact ih (hf state c h)

theorem addWhole_lt (state : Nat × Nat × Bool) (c : Char) (h : state.1 < twoPow 64) :
    (addWhole state c).1 < twoPow 64 := by
  obtain ⟨significand, dropped, full⟩ := state
  rw [addWhole]
  split
  · exact h
  · rename_i hfits
    rw [Bool.or_eq_true, decide_eq_true_iff, not_or] at hfits
    exact Nat.not_le.1 hfits.2

theorem addFraction_lt (state : Nat × Nat × Bool) (c : Char) (h : state.1 < twoPow 64) :
    (addFraction state c).1 < twoPow 64 := by
  obtain ⟨significand, places, full⟩ := state
  rw [addFraction]
  split
  · exact h
  · rename_i hfits
    rw [Bool.or_eq_true, decide_eq_true_iff, not_or] at hfits
    exact Nat.not_le.1 hfits.2

theorem isFinite_tenPow {n : Nat} (hn : n ≤ 308) : (Binary.ofInt (tenPow n) : Binary64).isFinite = true := by
  have hmono : Monotone tenPow := fun _ _ h => Nat.pow_le_pow_right (by decide) h
  exact Binary.isFinite_ofInt (hmono hn)

theorem isFinite_ofInt_of_lt {n : Int} (hn : n.natAbs < twoPow 64) : (Binary.ofInt n : Binary64).isFinite = true :=
  Binary.isFinite_ofInt (hn.le.trans (by decide +kernel))

theorem isFinite_scaleDown {x : Binary64} (hx : x.isFinite = true) (places : Nat) :
    (scaleDown x places).isFinite = true := by
  fun_induction scaleDown x places with
  | case1 x places hplaces => exact Binary.isFinite_div hx (isFinite_tenPow hplaces) (Binary.unitsPerOne_le_tenPow _)
  | case2 => exact hx
  | case3 x places _ _ ih =>
      exact ih (Binary.isFinite_div hx (isFinite_tenPow le_rfl) (Binary.unitsPerOne_le_tenPow _))

theorem isFinite_of_scaled {significand : Nat} {exponent : Int} {x : Binary64} (hfits : significand < twoPow 64)
    (h : scaled significand exponent = .ok x) : x.isFinite = true := by
  have hsignificand : (Binary.ofInt significand : Binary64).isFinite = true := isFinite_ofInt_of_lt hfits
  rw [scaled] at h
  dsimp only at h
  split at h
  · cases h
    exact isFinite_scaleDown hsignificand _
  · split at h
    · split at h
      · cases h
      · rename_i hexponent hbounded
        cases h
        exact Binary.isFinite_mul hsignificand (isFinite_tenPow (by omega)) (Bool.eq_false_of_not_eq_true hbounded)
    · split at h
      · cases h
        exact hsignificand
      · cases h

section Value

variable {text : NumberText} {n : JsonNumber}

/-- A finite number keeps being one with the sign of the text. -/
theorem isFinite_signed (text : NumberText) {x : Binary64} (hx : x.isFinite = true) :
    (JsonNumber.real (if text.negative then -x else x)).toBinary64.isFinite = true := by
  change Binary.isFinite (if text.negative then -x else x) = true
  split
  · exact hx
  · exact hx

theorem isFinite_of_map_scaled {significand : Nat} {exponent : Int} (hfits : significand < twoPow 64)
    (h : (scaled significand exponent).map (fun x => JsonNumber.real (if text.negative then -x else x)) = .ok n) :
    n.toBinary64.isFinite = true := by
  obtain ⟨x, hx, rfl⟩ := map_eq_ok_iff.1 h
  exact isFinite_signed text (isFinite_of_scaled hfits hx)

/-- What is made of the digits of a number and of an exponent is finite. -/
theorem isFinite_of_exponent {significand e : Nat} {exponent : Int} {negative : Bool} (hfits : significand < twoPow 64)
    (h : (if exponentLimit < e then
        if significand ≠ 0 && !negative then .error .malformed
        else .ok (.real (if text.negative then -Binary.zero else Binary.zero))
      else
        (scaled significand exponent).map fun x => JsonNumber.real (if text.negative then -x else x)) = .ok n) :
    n.toBinary64.isFinite = true := by
  split at h
  · split at h
    · cases h
    · cases h
      exact isFinite_signed text (by decide +kernel)
  · exact isFinite_of_map_scaled hfits h

/-- A number that is read is finite. -/
theorem isFinite_value (h : text.value = .ok n) : n.toBinary64.isFinite = true := by
  -- Digits are left out where the significand would not fit, so that it stays below the bound.
  have hwhole : (text.whole.foldl addWhole (0, 0, false)).1 < twoPow 64 := foldl_lt addWhole_lt _ (by decide)
  rw [value] at h
  generalize text.whole.foldl addWhole (0, 0, false) = state at h hwhole
  obtain ⟨significand, dropped, full⟩ := state
  dsimp only at h
  split at h
  · rename_i digits _
    have hfraction : (digits.foldl addFraction (significand, 0, false)).1 < twoPow 64 :=
      foldl_lt addFraction_lt _ hwhole
    generalize digits.foldl addFraction (significand, 0, false) = state at h hfraction
    obtain ⟨significand, places, full⟩ := state
    split at h
    · exact isFinite_of_map_scaled hfraction h
    · exact isFinite_of_exponent hfraction h
  · split at h
    · split at h
      · exact isFinite_of_map_scaled hwhole h
      · exact isFinite_of_exponent hwhole h
    · have hinteger : (Binary.ofInt significand : Binary64).isFinite = true := isFinite_ofInt_of_lt hwhole
      split at h
      · cases h
        exact hinteger
      · split at h
        · cases h
          exact isFinite_signed text hinteger
        · cases h
          exact isFinite_ofInt_of_lt (by rwa [Int.natAbs_neg])

end Value

end NumberText

/-! ## Tokens -/

namespace Token

/-- The token is no number that is not finite. -/
def IsFinite (token : Token) : Prop :=
  ∀ n shape, token = .number (.ok n) shape → n.toBinary64.isFinite = true

theorem isFinite_fault (f : Fault) : (Token.fault f).IsFinite := by
  intro n shape h
  cases h

theorem isFinite_readWord {token : Token} (h : token.IsFinite) (word cs : List Char) :
    (readWord token word cs).1.IsFinite := by
  fun_induction readWord token word cs with
  | case1 => exact h
  | case2 => exact isFinite_fault _
  | case3 _ _ _ ih => exact ih
  | case4 => exact isFinite_fault _

theorem isFinite_readNumber (cs : List Char) : (readNumber cs).1.IsFinite := by
  rw [readNumber]
  split
  · intro n shape htoken
    rw [Token.number.injEq] at htoken
    exact NumberText.isFinite_value htoken.1
  · intro n shape htoken
    cases htoken

theorem isFinite_read (c : Char) (cs : List Char) : (read c cs).1.IsFinite := by
  have hplain : ∀ {token : Token}, (∀ value shape, token ≠ .number value shape) → token.IsFinite :=
    fun hne n shape h => absurd h (hne _ _)
  rw [read.eq_def]
  split
  case h_8 => exact isFinite_readWord (hplain fun _ _ => Token.noConfusion) _ cs
  case h_9 => exact isFinite_readWord (hplain fun _ _ => Token.noConfusion) _ cs
  case h_10 => exact isFinite_readWord (hplain fun _ _ => Token.noConfusion) _ cs
  case h_11 =>
    split
    · exact isFinite_readNumber _
    · exact isFinite_fault _
  all_goals exact hplain fun _ _ => Token.noConfusion

/-- All numbers among the tokens of a text are finite. -/
theorem isFinite_of_mem_ofText {cs : List Char} {token : Token} (h : token ∈ ofText cs) : token.IsFinite := by
  fun_induction ofText cs with
  | case1 => cases h
  | case2 c cs hblank ih => exact ih h
  | case3 c cs hblank last hread =>
      rw [List.mem_singleton.1 h]
      have hlast := isFinite_read c cs
      rwa [hread] at hlast
  | case4 c cs hblank first rest hread ih =>
      rcases List.mem_cons.1 h with rfl | h
      · have hfirst := isFinite_read c cs
        rwa [hread] at hfirst
      · exact ih h

end Token

/-! ## Trees -/

namespace Source

/-- All numbers in the tree are finite. -/
inductive HasFiniteNumbers : Source → Prop where
  | fault (f : Fault) : HasFiniteNumbers (.fault f)
  | null : HasFiniteNumbers .null
  | bool (b : Bool) : HasFiniteNumbers (.bool b)
  | number {value : Except Fault JsonNumber} {shape : Option Fault}
      (finite : ∀ n, value = .ok n → n.toBinary64.isFinite = true) : HasFiniteNumbers (.number value shape)
  | string (value : Except Fault String) (shape : Option Fault) : HasFiniteNumbers (.string value shape)
  | array {deep : Bool} {items : List Source} {closing : Option Fault}
      (each : ∀ item ∈ items, HasFiniteNumbers item) : HasFiniteNumbers (.array deep items closing)
  | object {deep : Bool} {members : List (Source × Source)} {closing : Option Fault}
      (each : ∀ member ∈ members, HasFiniteNumbers member.2) : HasFiniteNumbers (.object deep members closing)

/-- All numbers in what has been read of a container are finite. -/
def Frame.HasFiniteNumbers : Frame → Prop
  | .array items => ∀ item ∈ items, item.HasFiniteNumbers
  | .object members _ => ∀ member ∈ members, Source.HasFiniteNumbers member.2

/-- All numbers that have been read are finite. -/
def Reader.HasFiniteNumbers : Reader → Prop
  | .reading stack _ => ∀ frame ∈ stack, frame.HasFiniteNumbers
  | .complete source | .trailing source | .broken source => source.HasFiniteNumbers

section Frames

variable {value : Source} {frame : Frame} {stack : List Frame}

theorem Frame.HasFiniteNumbers.add (hframe : frame.HasFiniteNumbers) (hvalue : value.HasFiniteNumbers) :
    (frame.add value).HasFiniteNumbers := by
  cases frame with
  | array items => exact List.forall_mem_cons.2 ⟨hvalue, hframe⟩
  | object members key =>
      cases key with
      | none => exact hframe
      | some key => exact List.forall_mem_cons.2 ⟨hvalue, hframe⟩

theorem Frame.HasFiniteNumbers.toSource (hframe : frame.HasFiniteNumbers) (outer : Nat) (closing : Option Fault) :
    (frame.toSource outer closing).HasFiniteNumbers := by
  cases frame with
  | array items => exact .array fun item hitem => hframe item (List.mem_reverse.1 hitem)
  | object members key => exact .object fun member hmember => hframe member (List.mem_reverse.1 hmember)

theorem HasFiniteNumbers.collapse (f : Fault) (hstack : ∀ frame ∈ stack, frame.HasFiniteNumbers)
    (hvalue : value.HasFiniteNumbers) : (collapse f stack value).HasFiniteNumbers := by
  induction stack generalizing value with
  | nil => exact hvalue
  | cons frame outer ih =>
      rw [List.forall_mem_cons] at hstack
      exact ih hstack.2 ((hstack.1.add hvalue).toSource _ _)

end Frames

namespace Reader

section Steps

variable {value : Source} {stack : List Frame} (hstack : ∀ frame ∈ stack, frame.HasFiniteNumbers)
include hstack

theorem hasFiniteNumbers_deliver (hvalue : value.HasFiniteNumbers) : (deliver value stack).HasFiniteNumbers := by
  cases stack with
  | nil => exact hvalue
  | cons frame outer =>
      rw [List.forall_mem_cons] at hstack
      exact List.forall_mem_cons.2 ⟨hstack.1.add hvalue, hstack.2⟩

theorem hasFiniteNumbers_stop (f : Fault) (hvalue : value.HasFiniteNumbers) :
    (stop f value stack).HasFiniteNumbers :=
  hvalue.collapse f hstack

theorem hasFiniteNumbers_stopInside (f : Fault) : (stopInside f stack).HasFiniteNumbers := by
  cases stack with
  | nil => exact .fault f
  | cons frame outer =>
      rw [List.forall_mem_cons] at hstack
      exact (hstack.1.toSource _ _).collapse f hstack.2

theorem hasFiniteNumbers_close : (close stack).HasFiniteNumbers := by
  cases stack with
  | nil => exact .fault _
  | cons frame outer =>
      rw [List.forall_mem_cons] at hstack
      exact hasFiniteNumbers_deliver hstack.2 (hstack.1.toSource _ _)

theorem hasFiniteNumbers_leaf (hvalue : value.HasFiniteNumbers) (shape : Option Fault) :
    (leaf value shape stack).HasFiniteNumbers := by
  cases shape with
  | none => exact hasFiniteNumbers_deliver hstack hvalue
  | some f => exact hasFiniteNumbers_stop hstack f hvalue

theorem hasFiniteNumbers_readValue {token : Token} (htoken : token.IsFinite) :
    (readValue stack token).HasFiniteNumbers := by
  cases token with
  | leftBrace => exact List.forall_mem_cons.2 ⟨List.forall_mem_nil _, hstack⟩
  | leftBracket => exact List.forall_mem_cons.2 ⟨List.forall_mem_nil _, hstack⟩
  | null => exact hasFiniteNumbers_deliver hstack .null
  | bool b => exact hasFiniteNumbers_deliver hstack (.bool b)
  | number value shape =>
      exact hasFiniteNumbers_leaf hstack (.number fun n hn => htoken n shape (by rw [hn])) shape
  | string value shape => exact hasFiniteNumbers_leaf hstack (.string value shape) shape
  | fault f => exact hasFiniteNumbers_stop hstack f (.fault f)
  | _ => exact hasFiniteNumbers_stop hstack _ (.fault _)

theorem hasFiniteNumbers_readKey (token : Token) : (readKey stack token).HasFiniteNumbers := by
  rw [readKey.eq_def]
  split
  · rename_i members key outer
    obtain ⟨hframe, houter⟩ := List.forall_mem_cons.1 hstack
    have hwithKey : ∀ frame ∈ .object members (some (strayKey token)) :: outer, Frame.HasFiniteNumbers frame :=
      List.forall_mem_cons.2 ⟨hframe, houter⟩
    dsimp only
    split
    · exact hwithKey
    · exact hasFiniteNumbers_stop hwithKey _ (.fault _)
    · exact hasFiniteNumbers_stop hwithKey _ (.fault _)
  · exact hasFiniteNumbers_stopInside hstack _

theorem hasFiniteNumbers_readSeparator (token : Token) : (readSeparator stack token).HasFiniteNumbers := by
  fun_cases readSeparator stack token with
  | case1 => exact hstack
  | case2 => exact hasFiniteNumbers_close hstack
  | case3 => exact hstack
  | case4 => exact hasFiniteNumbers_close hstack
  | case5 => exact hasFiniteNumbers_stopInside hstack _

end Steps

/-- A token that is no infinite number brings none into the tree. -/
theorem HasFiniteNumbers.step {reader : Reader} (h : reader.HasFiniteNumbers) {token : Token}
    (htoken : token.IsFinite) : (reader.step token).HasFiniteNumbers := by
  fun_cases Reader.step reader token with
  | case1 => exact hasFiniteNumbers_readValue h htoken
  | case2 => exact hasFiniteNumbers_close h
  | case3 => exact hasFiniteNumbers_readValue h htoken
  | case4 => exact hasFiniteNumbers_close h
  | case5 => exact hasFiniteNumbers_readKey h token
  | case6 => exact hasFiniteNumbers_readKey h token
  | case7 => exact h
  | case8 => exact hasFiniteNumbers_stop h _ (.fault _)
  | case9 => exact hasFiniteNumbers_readSeparator h token
  | case10 => exact h
  | case11 => exact h
  | case12 => exact h

theorem HasFiniteNumbers.finish {reader : Reader} (h : reader.HasFiniteNumbers) :
    reader.finish.1.HasFiniteNumbers := by
  fun_cases Reader.finish reader with
  | case1 => exact HasFiniteNumbers.collapse _ h (.fault _)
  | case2 => exact HasFiniteNumbers.collapse _ h (.fault _)
  | case3 => exact .fault _
  | case4 frame outer =>
      have hstack := List.forall_mem_cons.1 h
      exact HasFiniteNumbers.collapse _ hstack.2 (hstack.1.toSource _ _)
  | case5 => exact h
  | case6 => exact h
  | case7 => exact h

end Reader

/-- All numbers in the tree of a text are finite. -/
theorem hasFiniteNumbers_ofText (text : List Char) : (ofText text).1.HasFiniteNumbers := by
  -- What holds of the reader before the first token is kept by each, and by the end of the text.
  have hfoldl : ∀ (tokens : List Token) (reader : Reader), (∀ token ∈ tokens, token.IsFinite) →
      reader.HasFiniteNumbers → (tokens.foldl Reader.step reader).HasFiniteNumbers := by
    intro tokens
    induction tokens with
    | nil => exact fun reader _ h => h
    | cons token rest ih =>
        intro reader htokens h
        rw [List.forall_mem_cons] at htokens
        exact ih (reader.step token) htokens.2 (h.step htokens.1)
  have hstart : (Reader.reading [] .value).HasFiniteNumbers := List.forall_mem_nil _
  exact (hfoldl _ _ (fun _ => Token.isFinite_of_mem_ofText) hstart).finish

/-! ## What is read from a tree -/

/-- Only a number is wanted as one. -/
theorem exists_of_whole_number {source : Source} {n : JsonNumber} (h : source.whole = .ok (.number n)) :
    ∃ shape, source = .number (.ok n) shape := by
  cases source with
  | number value shape =>
      cases value with
      | error f => cases h
      | ok m =>
          cases h
          exact ⟨shape, rfl⟩
  | string value shape => cases value <;> cases h
  | array deep items closing =>
      rw [whole] at h
      split at h
      · cases h
      · obtain ⟨values, -, h⟩ := bind_eq_ok_iff.1 h
        cases closing <;> cases h
  | object deep members closing =>
      rw [whole] at h
      split at h
      · cases h
      · obtain ⟨values, -, h⟩ := bind_eq_ok_iff.1 h
        cases closing <;> cases h
  | _ => cases h

/-- A number that is read from a tree is finite. -/
theorem HasFiniteNumbers.isFinite_of_whole {source : Source} (h : source.HasFiniteNumbers) {value : Json}
    {x : Binary64} (hwhole : source.whole = .ok value) (hx : value.real? = some x) : x.isFinite = true := by
  cases value with
  | number n =>
      cases hx
      obtain ⟨shape, rfl⟩ := exists_of_whole_number hwhole
      cases h with
      | number finite => exact finite n rfl
  | _ => cases hx

/-- An item that all of is wanted is among those of a list that all of is wanted. -/
theorem exists_of_mem_wholeItems {items : List Source} {values : List Json} (h : wholeItems items = .ok values)
    {value : Json} (hvalue : value ∈ values) : ∃ item ∈ items, item.whole = .ok value := by
  induction items generalizing values with
  | nil =>
      cases h
      cases hvalue
  | cons item rest ih =>
      rw [wholeItems] at h
      obtain ⟨first, hfirst, h⟩ := bind_eq_ok_iff.1 h
      obtain ⟨others, hothers, h⟩ := bind_eq_ok_iff.1 h
      cases h
      rcases List.mem_cons.1 hvalue with rfl | hvalue
      · exact ⟨item, List.mem_cons_self, hfirst⟩
      · obtain ⟨item', hitem', hwhole⟩ := ih hothers hvalue
        exact ⟨item', List.mem_cons_of_mem _ hitem', hwhole⟩

theorem of_optional {α : Type} {item : Source → Except Fault α} {source : Source} {a : α}
    (h : Source.optional item source = .ok (some a)) : item source = .ok a := by
  rw [Source.optional.eq_def] at h
  split at h
  · cases h
  · obtain ⟨b, hitem, hb⟩ := map_eq_ok_iff.1 h
    cases hb
    exact hitem

/-- Setting a part of a record to what is read from a tree of finite numbers keeps a property of the record. -/
def Keeps {α : Type} (P : α → Prop) (assign : α → Source → Except Fault α) : Prop :=
  ∀ record value record', P record → value.HasFiniteNumbers → assign record value = .ok record' → P record'

section Records

variable {α β : Type} {shape : Shape α} {P : α → Prop}

theorem keeps_of_set {item : Source → Except Fault β} {set : α → β → α}
    (hset : ∀ record value b, P record → value.HasFiniteNumbers → item value = .ok b → P (set record b)) :
    Keeps P fun record value => return set record (← item value) := by
  intro record value record' hrecord hvalue h
  obtain ⟨b, hitem, h⟩ := bind_eq_ok_iff.1 h
  cases h
  exact hset record value b hrecord hvalue hitem

variable (hassign : ∀ field ∈ shape.fields, Keeps P field.2)
include hassign

theorem readMembers_preserves {members : List (Source × Source)} {seen seen' : List String} {record record' : α}
    (hrecord : P record) (hmembers : ∀ member ∈ members, HasFiniteNumbers member.2)
    (h : readMembers shape members seen record = .ok (record', seen')) : P record' := by
  induction members generalizing seen record with
  | nil =>
      cases h
      exact hrecord
  | cons member rest ih =>
      obtain ⟨key, value⟩ := member
      rw [List.forall_mem_cons] at hmembers
      rw [readMembers] at h
      obtain ⟨name, -, h⟩ := bind_eq_ok_iff.1 h
      split at h
      · split at h
        · cases h
        · exact ih hrecord hmembers.2 h
      · rename_i assign hlookup
        split at h
        · cases h
        · obtain ⟨next, hnext, h⟩ := bind_eq_ok_iff.1 h
          have hfield : (name, assign) ∈ shape.fields := by
            obtain ⟨before, after, hsplit, -⟩ := List.lookup_eq_some_iff.1 hlookup
            rw [hsplit]
            exact List.mem_append_right _ List.mem_cons_self
          exact ih (hassign _ hfield record value next hrecord hmembers.1 hnext) hmembers.2 h

theorem readItems_preserves {fields : List (String × (α → Source → Except Fault α))}
    (hfields : ∀ field ∈ fields, field ∈ shape.fields) {items : List Source} {record record' : α} (hrecord : P record)
    (hitems : ∀ item ∈ items, item.HasFiniteNumbers) (h : readItems fields items record = .ok record') :
    P record' := by
  induction fields generalizing items record with
  | nil =>
      cases h
      exact hrecord
  | cons field fields ih =>
      rw [List.forall_mem_cons] at hfields
      cases items with
      | nil =>
          cases h
          exact hrecord
      | cons item items =>
          rw [List.forall_mem_cons] at hitems
          obtain ⟨next, hnext, h⟩ := bind_eq_ok_iff.1 h
          exact ih hfields.2 (hassign field hfields.1 record item next hrecord hitems.1 hnext) hitems.2 h

/-- What setting each part of a record keeps is true of the record that is read. -/
theorem record_preserves {start record : α} {source : Source} (hstart : P start) (hsource : source.HasFiniteNumbers)
    (h : Source.record shape start source = .ok record) : P record := by
  have hrequired : ∀ {closing : Option Fault} {seen : List String} {value : α}, P value →
      (do
        let () ← closed closing ()
        requireAll shape seen value) = .ok record → P record := by
    intro closing seen value hvalue h
    obtain ⟨-, -, h⟩ := bind_eq_ok_iff.1 h
    rw [requireAll] at h
    split at h
    · cases h
      exact hvalue
    · cases h
  cases hsource with
  | object each =>
      -- By their names or by their places, the fields that are set are those of the shape.
      rw [Source.record] at h
      split at h
      · cases h
      · obtain ⟨⟨value, seen⟩, hvalue, h⟩ := bind_eq_ok_iff.1 h
        exact hrequired (readMembers_preserves hassign hstart each hvalue) h
  | array each =>
      rw [Source.record] at h
      split at h
      · cases h
      · obtain ⟨value, hvalue, h⟩ := bind_eq_ok_iff.1 h
        split at h
        · cases h
        · exact hrequired (readItems_preserves hassign (fun _ => id) hstart each hvalue) h
  | _ => cases h

end Records

end Source

end Json

end EventFinder
