import EventFinder.Json.Source
import EventFinder.Proofs.Json.Tokens

/-!
# The text of a value is read as the value

A value is `Legible` if its numbers are read as themselves and its containers are not too deep. The text of
such a value is read to its tree, whatever stands around it (`reads_of_legible`), and so a whole text is read
as the value it was written from (`ofText_text`).
-/

set_option autoImplicit false

namespace EventFinder

namespace Json

/-! ## Trees -/

mutual

/-- The tree of the text of a value, all members included. -/
def tree : Json → Source
  | null => .null
  | bool b => .bool b
  | number n => .number (.ok n) none
  | string s => .string (.ok s) none
  | array items => .array false (itemTrees items) none
  | object members => .object false (memberTrees members) none

/-- The trees of items. -/
def itemTrees : List Json → List Source
  | [] => []
  | item :: rest => item.tree :: itemTrees rest

/-- The trees of members. -/
def memberTrees : List (String × Json) → List (Source × Source)
  | [] => []
  | (name, value) :: rest => (.string (.ok name) none, value.tree) :: memberTrees rest

end

mutual

/-- All of a tree is the value. -/
theorem whole_tree (value : Json) : value.tree.whole = .ok value := by
  cases value with
  | array items =>
      rw [tree, Source.whole, wholeItems_itemTrees items]
      rfl
  | object members =>
      rw [tree, Source.whole, wholeMembers_memberTrees members]
      rfl
  | _ => rfl

theorem wholeItems_itemTrees (items : List Json) : Source.wholeItems (itemTrees items) = .ok items := by
  cases items with
  | nil => rfl
  | cons item rest =>
      rw [itemTrees, Source.wholeItems, whole_tree item, wholeItems_itemTrees rest]
      rfl

theorem wholeMembers_memberTrees (members : List (String × Json)) :
    Source.wholeMembers (memberTrees members) = .ok members := by
  cases members with
  | nil => rfl
  | cons member rest =>
      obtain ⟨name, value⟩ := member
      rw [memberTrees, Source.wholeMembers, whole_tree value, wholeMembers_memberTrees rest]
      rfl

end

/-! ## Reading a text token by token -/

/-- The numbers in the value are read as themselves, and containers in it are no deeper than `room`. -/
inductive Legible : Nat → Json → Prop where
  | null (room : Nat) : Legible room .null
  | bool (room : Nat) (b : Bool) : Legible room (.bool b)
  | number (room : Nat) {n : JsonNumber} (readsBack : ReadsBack n) : Legible room (.number n)
  | string (room : Nat) (s : String) : Legible room (.string s)
  | array {room : Nat} {items : List Json} (each : ∀ item ∈ items, Legible room item) :
      Legible (room + 1) (.array items)
  | object {room : Nat} {members : List (String × Json)} (each : ∀ member ∈ members, Legible room member.2) :
      Legible (room + 1) (.object members)

namespace Source

/-- The reader after a text. -/
def Reader.run (reader : Reader) (cs : List Char) : Reader := (Token.ofText cs).foldl Reader.step reader

theorem Reader.run_of_token {reader : Reader} {cs rest : List Char} {token : Token}
    (h : Token.ofText cs = token :: Token.ofText rest) : reader.run cs = (reader.step token).run rest := by
  rw [run, run, h, List.foldl_cons]

/-- A value is due. -/
inductive Expectation.IsDue : Expectation → Prop where
  | value : IsDue .value
  | itemOrEnd : IsDue .itemOrEnd

theorem Reader.step_of_isDue {stack : List Frame} {next : Expectation} {token : Token} (due : next.IsDue)
    (htoken : token ≠ .rightBracket) : (reading stack next).step token = readValue stack token := by
  cases due with
  | value => rfl
  | itemOrEnd =>
      rw [step]
      exact htoken

end Source

open Source

/-- Where a value is due, its text is read to its tree. -/
def Reads (room : Nat) (value : Json) : Prop :=
  ∀ (stack : List Frame) (next : Expectation) (rest : List Char), stack.length + room ≤ depthLimit →
    next.IsDue → Follows rest →
      (Reader.reading stack next).run (value.chars ++ rest) = (Reader.deliver value.tree stack).run rest

/-- A value of one token. -/
theorem reads_of_token {room : Nat} {value : Json} {token : Token}
    (hchars : ∀ rest, Follows rest → Token.ofText (value.chars ++ rest) = token :: Token.ofText rest)
    (htoken : token ≠ .rightBracket)
    (hvalue : ∀ stack, Reader.readValue stack token = Reader.deliver value.tree stack) : Reads room value := by
  intro stack next rest _ due hrest
  rw [Reader.run_of_token (hchars rest hrest), Reader.step_of_isDue due htoken, hvalue]

/-! ## Containers -/

section Containers

variable {room : Nat} {stack : List Frame} {rest : List Char}

/-- A container that is not too deep is closed. -/
theorem close_array (hroom : stack.length < depthLimit) (items : List Source) :
    Reader.close (.array items :: stack) = Reader.deliver (.array false items.reverse none) stack := by
  rw [Reader.close, Frame.toSource, decide_eq_false (Nat.not_le.2 hroom)]

theorem close_object (hroom : stack.length < depthLimit) (members : List (Source × Source)) :
    Reader.close (.object members none :: stack) = Reader.deliver (.object false members.reverse none) stack := by
  rw [Reader.close, Frame.toSource, decide_eq_false (Nat.not_le.2 hroom)]

/-- Items are read one after another up to the bracket. -/
theorem run_items {items : List Json} (hne : items ≠ []) (each : ∀ item ∈ items, Reads room item)
    (hroom : stack.length + (room + 1) ≤ depthLimit) {next : Expectation} (due : next.IsDue)
    (before : List Source) :
    (Reader.reading (.array before :: stack) next).run ([','].intercalate (itemChars items) ++ ']' :: rest) =
      (Reader.deliver (.array false (before.reverse ++ itemTrees items) none) stack).run rest := by
  have hinside : ∀ before : List Source, (Frame.array before :: stack).length + room ≤ depthLimit := by
    intro before
    rw [List.length_cons]
    omega
  -- The frame keeps what has been read, the latest first.
  induction items generalizing before next with
  | nil => exact absurd rfl hne
  | cons item others ih =>
      rw [List.forall_mem_cons] at each
      cases others with
      | nil =>
          rw [itemChars, itemChars, List.intercalate_singleton,
            each.1 _ next _ (hinside before) due (.rightBracket rest)]
          rw [Reader.run_of_token (Token.ofText_of_read (by decide) rfl)]
          change (Reader.close (.array (item.tree :: before) :: stack)).run rest = _
          rw [close_array (by omega), List.reverse_cons, itemTrees, itemTrees]
      | cons second others =>
          rw [itemChars, itemChars, List.intercalate_cons_cons, List.append_assoc, List.append_assoc,
            List.singleton_append, each.1 _ next _ (hinside before) due (.comma _)]
          rw [Reader.run_of_token (Token.ofText_of_read (by decide) rfl)]
          refine (ih (List.cons_ne_nil _ _) each.2 .value (item.tree :: before)).trans ?_
          rw [List.reverse_cons, List.append_assoc]
          rfl

/-- A name is read where one is due, and the value behind it. -/
theorem run_member {name : String} {value : Json} (hvalue : Reads room value)
    (hroom : stack.length + (room + 1) ≤ depthLimit) {next : Expectation}
    (hnext : next = .key ∨ next = .keyOrEnd) (before : List (Source × Source)) (hrest : Follows rest) :
    (Reader.reading (.object before none :: stack) next).run (quote name ++ ':' :: (value.chars ++ rest)) =
      (Reader.reading (.object ((.string (.ok name) none, value.tree) :: before) none :: stack)
        .separator).run rest := by
  have hkey : (Reader.reading (.object before none :: stack) next).step (.string (.ok name) none) =
      .reading (.object before (some (.string (.ok name) none)) :: stack) .colon := by
    rcases hnext with rfl | rfl
    · rfl
    · rfl
  rw [Reader.run_of_token (ofText_quote name _), hkey,
    Reader.run_of_token (Token.ofText_of_read (by decide) rfl)]
  apply hvalue _ .value rest _ .value hrest
  rw [List.length_cons]
  omega

/-- Members are read one after another up to the brace. -/
theorem run_members {members : List (String × Json)} (hne : members ≠ [])
    (each : ∀ member ∈ members, Reads room member.2) (hroom : stack.length + (room + 1) ≤ depthLimit)
    {next : Expectation} (hnext : next = .key ∨ next = .keyOrEnd) (before : List (Source × Source)) :
    (Reader.reading (.object before none :: stack) next).run
        ([','].intercalate ((memberChars members).map fun m => quote m.1 ++ ':' :: m.2) ++ '\x7d' :: rest) =
      (Reader.deliver (.object false (before.reverse ++ memberTrees members) none) stack).run rest := by
  -- As with items: the frame keeps the members that have been read, the latest first.
  induction members generalizing before next with
  | nil => exact absurd rfl hne
  | cons member others ih =>
      obtain ⟨name, value⟩ := member
      rw [List.forall_mem_cons] at each
      cases others with
      | nil =>
          rw [memberChars, memberChars, List.map_singleton, List.intercalate_singleton, List.append_assoc,
            List.cons_append, run_member each.1 hroom hnext before (.rightBrace rest)]
          rw [Reader.run_of_token (Token.ofText_of_read (by decide) rfl)]
          change (Reader.close (.object (_ :: before) none :: stack)).run rest = _
          rw [close_object (by omega), List.reverse_cons, memberTrees, memberTrees]
      | cons second others =>
          rw [memberChars, memberChars, List.map_cons, List.map_cons, List.intercalate_cons_cons,
            List.append_assoc, List.append_assoc, List.append_assoc, List.cons_append, List.singleton_append,
            run_member each.1 hroom hnext before (.comma _)]
          rw [Reader.run_of_token (Token.ofText_of_read (by decide) rfl)]
          refine (ih (List.cons_ne_nil _ _) each.2 (Or.inl rfl)
            ((.string (.ok name) none, value.tree) :: before)).trans ?_
          rw [List.reverse_cons, List.append_assoc]
          rfl

/-- An array of items that are read is read. -/
theorem reads_array {items : List Json} (each : ∀ item ∈ items, Reads room item) :
    Reads (room + 1) (.array items) := by
  intro stack next rest hroom due hrest
  have hopen : (Reader.reading stack next).step .leftBracket = .reading (.array [] :: stack) .itemOrEnd :=
    Reader.step_of_isDue due nofun
  rw [chars, bracketed, List.cons_append, List.cons_append, List.append_assoc,
    Reader.run_of_token (Token.ofText_of_read (by decide) rfl), hopen]
  cases items with
  | nil =>
      rw [itemChars, List.intercalate_nil, List.nil_append, List.singleton_append,
        Reader.run_of_token (Token.ofText_of_read (by decide) rfl)]
      change (Reader.close (.array [] :: stack)).run rest = _
      rw [close_array (by omega)]
      rfl
  | cons item others =>
      rw [List.singleton_append, run_items (List.cons_ne_nil _ _) each hroom .itemOrEnd,
        tree]
      rfl

/-- An object of members that are read is read. -/
theorem reads_object {members : List (String × Json)} (each : ∀ member ∈ members, Reads room member.2) :
    Reads (room + 1) (.object members) := by
  intro stack next rest hroom due hrest
  have hopen : (Reader.reading stack next).step .leftBrace = .reading (.object [] none :: stack) .keyOrEnd :=
    Reader.step_of_isDue due nofun
  rw [chars, braced, List.cons_append, List.cons_append, List.append_assoc,
    Reader.run_of_token (Token.ofText_of_read (by decide) rfl), hopen]
  cases members with
  | nil =>
      rw [memberChars, List.map_nil, List.intercalate_nil, List.nil_append, List.singleton_append,
        Reader.run_of_token (Token.ofText_of_read (by decide) rfl)]
      change (Reader.close (.object [] none :: stack)).run rest = _
      rw [close_object (by omega)]
      rfl
  | cons member others =>
      rw [List.singleton_append, run_members (List.cons_ne_nil _ _) each hroom (Or.inr rfl), tree]
      rfl

end Containers

/-! ## Whole texts -/

theorem reads_of_legible {room : Nat} {value : Json} (h : Legible room value) : Reads room value := by
  induction h with
  | null room => exact reads_of_token (fun rest _ => Token.ofText_of_read (by decide) rfl) nofun fun _ => rfl
  | bool room b =>
      cases b with
      | true => exact reads_of_token (fun rest _ => Token.ofText_of_read (by decide) rfl) nofun fun _ => rfl
      | false => exact reads_of_token (fun rest _ => Token.ofText_of_read (by decide) rfl) nofun fun _ => rfl
  | number room readsBack => exact reads_of_token readsBack nofun fun _ => rfl
  | string room s => exact reads_of_token (fun rest _ => ofText_quote s rest) nofun fun _ => rfl
  | array _ ih => exact reads_array ih
  | object _ ih => exact reads_object ih

/-- The text of a value is read to its tree. -/
theorem source_chars {room : Nat} {value : Json} (h : Legible room value) (hroom : room ≤ depthLimit) :
    Source.ofText value.chars = (value.tree, false) := by
  have hrun : (Reader.reading [] .value).run value.chars = .complete value.tree := by
    have hread := reads_of_legible h [] .value [] (by simpa using hroom) .value .nothing
    rw [List.append_nil] at hread
    rw [hread, Reader.run, Token.ofText]
    rfl
  rw [Source.ofText, ofTokens, ← Reader.run, hrun]
  rfl

/-- The text of a value is read as the value. -/
theorem ofText_text {room : Nat} {value : Json} (h : Legible room value) (hroom : room ≤ depthLimit) :
    ofText value.text = .ok value := by
  rw [ofText, text, String.toList_ofList, source_chars h hroom]
  dsimp only
  rw [whole_tree]
  rfl

end Json

end EventFinder
