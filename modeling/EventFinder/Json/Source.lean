import EventFinder.Json.Token

/-!
# JSON text as far as it can be read

A `Source` is the tree of a JSON text with its faults left in place: where the text breaks off or is
no JSON, the tree holds a fault. So a reader that wants particular members, and finds the first
trouble in the order of the text, is a plain recursion over the tree.

- `Source.ofTokens` builds the tree, one token at a time, with the open containers on a stack.
- `Source.skip` is what a reader finds that ignores a value.
- `Source.whole` is what a reader finds that wants all of it; `Json.ofText` reads a whole text.
- `Json.toSource` is the tree of a value, which has no faults.
-/

set_option autoImplicit false

namespace EventFinder

namespace Json

/-- The tree of a JSON text, faults included. Of a container it is kept whether it lies too deep to
be wanted, and the fault that stands where it should go on or close. The keys of an object are
strings unless the text is no JSON. -/
inductive Source where
  | fault (f : Fault)
  | null
  | bool (b : Bool)
  | number (value : Except Fault JsonNumber) (shape : Option Fault)
  | string (value : Except Fault String) (shape : Option Fault)
  | array (deep : Bool) (items : List Source) (closing : Option Fault)
  | object (deep : Bool) (members : List (Source × Source)) (closing : Option Fault)

namespace Source

instance : Inhabited Source := ⟨null⟩

/-! ## Building the tree -/

/-- A container part way through, what has been read already last first. -/
inductive Frame where
  | array (items : List Source)
  | object (members : List (Source × Source)) (key : Option Source)

/-- What may come next in the innermost container, or at the top. -/
inductive Expectation where
  | value
  | itemOrEnd
  | keyOrEnd
  | key
  | colon
  | separator
deriving DecidableEq, Repr

/-- How far a text has been read. -/
inductive Reader where
  /-- More is to come. -/
  | reading (stack : List Frame) (next : Expectation)
  /-- The value is complete. -/
  | complete (source : Source)
  /-- Something follows the complete value. -/
  | trailing (source : Source)
  /-- A fault has stopped the reader. -/
  | broken (source : Source)

/-- Containers inside this many others or more are not read. -/
def depthLimit : Nat := 127

namespace Frame

/-- The container with one more value in it. -/
def add (value : Source) : Frame → Frame
  | array items => array (value :: items)
  | object members (some key) => object ((key, value) :: members) none
  | object members none => object members none

/-- The container closed, or broken off by a fault, inside `outer` others. -/
def toSource (outer : Nat) (closing : Option Fault) : Frame → Source
  | array items => .array (decide (depthLimit ≤ outer)) items.reverse closing
  | object members _ => .object (decide (depthLimit ≤ outer)) members.reverse closing

end Frame

/-- The whole tree if `value`, the last thing read, ends with the fault `f`. -/
def collapse (f : Fault) : List Frame → Source → Source
  | [], value => value
  | frame :: outer, value => collapse f outer ((frame.add value).toSource outer.length (some f))

namespace Reader

/-- The reader after a complete value. -/
def deliver (value : Source) : List Frame → Reader
  | [] => complete value
  | frame :: outer => reading (frame.add value :: outer) .separator

/-- The reader stopped by a fault in place of a value. -/
def stop (f : Fault) (value : Source) (stack : List Frame) : Reader :=
  broken (collapse f stack value)

/-- The reader stopped by a fault where the innermost container should go on or close. -/
def stopInside (f : Fault) : List Frame → Reader
  | [] => broken (.fault f)
  | frame :: outer => broken (collapse f outer (frame.toSource outer.length (some f)))

/-- The reader after the innermost container has closed. -/
def close : List Frame → Reader
  | [] => broken (.fault .malformed)
  | frame :: outer => deliver (frame.toSource outer.length none) outer

/-- The reader after a leaf, which stops it if it has no end. -/
def leaf (value : Source) (shape : Option Fault) (stack : List Frame) : Reader :=
  match shape with
  | some f => stop f value stack
  | none => deliver value stack

/-- The reader after a token in place of a value. -/
def readValue (stack : List Frame) : Token → Reader
  | .leftBrace => reading (.object [] none :: stack) .keyOrEnd
  | .leftBracket => reading (.array [] :: stack) .itemOrEnd
  | .null => deliver .null stack
  | .bool b => deliver (.bool b) stack
  | .number value shape => leaf (.number value shape) shape stack
  | .string value shape => leaf (.string value shape) shape stack
  | .fault f => stop f (.fault f) stack
  | _ => stop .malformed (.fault .malformed) stack

/-- What stands for a token in place of a key. -/
def strayKey : Token → Source
  | .leftBrace => .object false [] none
  | .leftBracket => .array false [] none
  | .null => .null
  | .bool b => .bool b
  | .number value shape => .number value shape
  | .string value shape => .string value shape
  | .fault f => .fault f
  | _ => .fault .malformed

/-- The reader after a token in place of a key. -/
def readKey (stack : List Frame) (token : Token) : Reader :=
  match stack with
  | .object members _ :: outer =>
      let withKey : List Frame := .object members (some (strayKey token)) :: outer
      match token with
      | .string _ none => reading withKey .colon
      | .string _ (some f) => stop f (.fault f) withKey
      | _ => stop .malformed (.fault .malformed) withKey
  | _ => stopInside .malformed stack

/-- The reader after a token that should go on with the innermost container or close it. -/
def readSeparator (stack : List Frame) (token : Token) : Reader :=
  match stack, token with
  | .array _ :: _, .comma => reading stack .value
  | .array _ :: _, .rightBracket => close stack
  | .object _ _ :: _, .comma => reading stack .key
  | .object _ _ :: _, .rightBrace => close stack
  | _, _ => stopInside .malformed stack

/-- The reader after one more token. -/
def step (reader : Reader) (token : Token) : Reader :=
  match reader with
  | reading stack .value => readValue stack token
  | reading stack .itemOrEnd =>
      match token with
      | .rightBracket => close stack
      | _ => readValue stack token
  | reading stack .keyOrEnd =>
      match token with
      | .rightBrace => close stack
      | _ => readKey stack token
  | reading stack .key => readKey stack token
  | reading stack .colon =>
      match token with
      | .colon => reading stack .value
      | _ => stop .malformed (.fault .malformed) stack
  | reading stack .separator => readSeparator stack token
  | complete source => trailing source
  | trailing source => trailing source
  | broken source => broken source

/-- The tree when the text is over, and whether something follows the value. -/
def finish : Reader → Source × Bool
  | reading stack .value => (collapse .incomplete stack (.fault .incomplete), false)
  | reading stack .colon => (collapse .incomplete stack (.fault .incomplete), false)
  | reading [] _ => (.fault .incomplete, false)
  | reading (frame :: outer) _ =>
      (collapse .incomplete outer (frame.toSource outer.length (some .incomplete)), false)
  | complete source => (source, false)
  | trailing source => (source, true)
  | broken source => (source, false)

end Reader

/-- The tree of a sequence of tokens, and whether something follows the value. -/
def ofTokens (tokens : List Token) : Source × Bool :=
  (tokens.foldl Reader.step (.reading [] .value)).finish

/-- The tree of a text, and whether something follows the value. -/
def ofText (text : List Char) : Source × Bool :=
  ofTokens (Token.ofText text)

/-! ## Ignoring a value -/

/-- Is the source in place of a key a string that ends? -/
def skipKey : Source → Option Fault
  | string _ shape => shape
  | _ => some .malformed

mutual

/-- The first fault that a reader meets who ignores the value. -/
def skip : Source → Option Fault
  | fault f => some f
  | null => none
  | bool _ => none
  | number _ shape => shape
  | string _ shape => shape
  | array _ items closing => (skipItems items).or closing
  | object _ members closing => (skipMembers members).or closing

/-- The first fault in ignored items. -/
def skipItems : List Source → Option Fault
  | [] => none
  | item :: rest => item.skip.or (skipItems rest)

/-- The first fault in ignored members. -/
def skipMembers : List (Source × Source) → Option Fault
  | [] => none
  | (key, value) :: rest => key.skipKey.or (value.skip.or (skipMembers rest))

end

/-! ## Wanting a value -/

/-- The error of `closing`, or else `value`. -/
def closed {α : Type} (closing : Option Fault) (value : α) : Except Fault α :=
  match closing with
  | some f => .error f
  | none => .ok value

/-- The name of a member. -/
def name : Source → Except Fault String
  | string value _ => value
  | _ => .error .malformed

mutual

/-- The value, or the first fault that a reader meets who wants all of it. -/
def whole : Source → Except Fault Json
  | fault f => .error f
  | null => .ok .null
  | bool b => .ok (.bool b)
  | number value _ => value.map .number
  | string value _ => value.map .string
  | array deep items closing =>
      if deep then .error .malformed
      else do
        let items ← wholeItems items
        closed closing (.array items)
  | object deep members closing =>
      if deep then .error .malformed
      else do
        let members ← wholeMembers members
        closed closing (.object members)

/-- The values of items. -/
def wholeItems : List Source → Except Fault (List Json)
  | [] => .ok []
  | item :: rest => do
      let item ← item.whole
      let rest ← wholeItems rest
      return item :: rest

/-- The names and values of members. -/
def wholeMembers : List (Source × Source) → Except Fault (List (String × Json))
  | [] => .ok []
  | (key, value) :: rest => do
      let key ← key.name
      let value ← value.whole
      let rest ← wholeMembers rest
      return (key, value) :: rest

end

/-- Why a reader refuses a value that has not the kind it wants: the fault of a leaf that stands for
nothing comes first. -/
def refusal : Source → Fault
  | fault f => f
  | number (.error f) _ => f
  | string (.error f) _ => f
  | _ => .mismatched

end Source

/-! ## Values -/

/-- The value that a text is, all of it. -/
def ofText (text : String) : Except Fault Json := do
  let (source, trailing) := Source.ofText text.toList
  let value ← source.whole
  if trailing then .error .malformed else return value

mutual

/-- The tree of a value. Of two members of one name only the last is in it. -/
def toSource : Json → Source
  | null => .null
  | bool b => .bool b
  | number n => .number (.ok n) none
  | string s => .string (.ok s) none
  | array items => .array false (toSourceItems items) none
  | object members => .object false (toSourceMembers members) none

/-- The trees of items. -/
def toSourceItems : List Json → List Source
  | [] => []
  | item :: rest => item.toSource :: toSourceItems rest

/-- The trees of members. -/
def toSourceMembers : List (String × Json) → List (Source × Source)
  | [] => []
  | (name, value) :: rest =>
      match lookup name rest with
      | some _ => toSourceMembers rest
      | none => (.string (.ok name) none, value.toSource) :: toSourceMembers rest

end

end Json

end EventFinder
