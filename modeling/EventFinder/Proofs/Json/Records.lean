import EventFinder.Json.Shape
import EventFinder.Proofs.Json.RoundTrip
import EventFinder.Proofs.Outcome

/-!
# Records in JSON

What the readers of single values, of lists and of records find in the tree of a value that was written from what they
read.
-/

set_option autoImplicit false

namespace EventFinder

namespace Json

/-! ## Whole numbers -/

theorem fitsUnsigned_toNat (n : UInt64) : fitsUnsigned 64 n.toNat = true := by
  rw [fitsUnsigned, decide_eq_true_eq]
  exact ⟨by omega, by exact_mod_cast n.toNat_lt⟩

theorem unsigned64_toNat (n : UInt64) : Source.unsigned64 (.number (.ok (.integer n.toNat)) none) = .ok n := by
  have hlt := n.toNat_lt
  have hrest : ((n.toNat : Int) % 2 ^ 64).toNat = n.toNat := by omega
  rw [Source.unsigned64, if_pos (fitsUnsigned_toNat n), UInt64.ofInt, hrest, UInt64.ofNat_toNat]

theorem legible_unsigned64 (room : Nat) (n : UInt64) : Legible room (.number (.integer n.toNat)) :=
  .number room (readsBack_integer (Or.inl (fitsUnsigned_toNat n)))

theorem fitsSigned_toInt (n : Int64) : fitsSigned 64 n.toInt = true := by
  rw [fitsSigned, decide_eq_true_eq]
  exact ⟨n.le_toInt, n.toInt_lt⟩

theorem signed64_toInt (n : Int64) : Source.signed64 (.number (.ok (.integer n.toInt)) none) = .ok n := by
  rw [Source.signed64, if_pos (fitsSigned_toInt n), Int64.ofInt_toInt]

theorem legible_signed64 (room : Nat) (n : Int64) : Legible room (.number (.integer n.toInt)) :=
  .number room (readsBack_integer (Or.inr (fitsSigned_toInt n)))

/-! ## Optional values and lists -/

/-- An optional value is read from `null` if it is missing, and otherwise from what is written for it. -/
theorem optional_tree {α : Type} {item : Source → Except Fault α} {value : Option α} {json : Json}
    (hnone : value = none → json = null) (hsome : ∀ a, value = some a → json.tree ≠ .null ∧ item json.tree = .ok a) :
    Source.optional item json.tree = .ok value := by
  cases value with
  | none =>
      rw [hnone rfl]
      rfl
  | some a =>
      obtain ⟨hnull, hitem⟩ := hsome a rfl
      rw [Source.optional, hitem]
      · rfl
      · exact hnull

/-- A list is read from what is written for its items. -/
theorem list_tree {α : Type} {item : Source → Except Fault α} {toJson : α → Json}
    (h : ∀ a, item (toJson a).tree = .ok a) (values : List α) :
    Source.list item (array (values.map toJson)).tree = .ok values := by
  have hitems : (itemTrees (values.map toJson)).mapM item = .ok values := by
    induction values with
    | nil => rfl
    | cons a rest ih =>
        rw [List.map_cons, itemTrees, List.mapM_cons, h a, ih]
        rfl
  rw [tree, Source.list, hitems]
  rfl

/-! ## Records -/

section Records

variable {α β : Type} {shape : Shape α} {label : String} {rest : List (Source × Source)} {seen : List String}
  {record : α} {value : Source}

/-- A known member that is met for the first time sets its part of the record. -/
theorem readMembers_known {assign : α → Source → Except Fault α} (record' : α)
    (hlookup : shape.fields.lookup label = some assign) (hnew : seen.contains label = false)
    (hassign : assign record value = .ok record') :
    Source.readMembers shape ((.string (.ok label) none, value) :: rest) seen record =
      Source.readMembers shape rest (label :: seen) record' := by
  rw [Source.readMembers]
  simp only [Source.name, bind, Except.bind, hlookup, hnew, hassign]
  rfl

/-- A known member sets its part of the record to what is read there, and the others follow. -/
theorem readMembers_part {item : Source → Except Fault β} {set : α → β → α}
    {outcome : Except Fault (α × List String)} (b : β)
    (hlookup : shape.fields.lookup label = some fun record v => return set record (← item v))
    (hnew : seen.contains label = false) (hitem : item value = .ok b)
    (hrest : Source.readMembers shape rest (label :: seen) (set record b) = outcome) :
    Source.readMembers shape ((.string (.ok label) none, value) :: rest) seen record = outcome :=
  (readMembers_known _ hlookup hnew (bind_eq_ok_iff.2 ⟨b, hitem, rfl⟩)).trans hrest

/-- A record is read from its members if they give it and name all fields that must be there. -/
theorem record_tree {start : α} {members : List (String × Json)}
    (hmembers : Source.readMembers shape (memberTrees members) [] start = .ok (record, seen))
    (hrequired : shape.required.all seen.contains = true) :
    Source.record shape start (object members).tree = .ok record := by
  rw [tree, Source.record, hmembers]
  change Source.requireAll shape seen record = .ok record
  rw [Source.requireAll, if_pos hrequired]

end Records

end Json

end EventFinder
