import EventFinder.Proofs.Number.Order
import EventFinder.Proofs.Outcome
import EventFinder.Query.Language

/-!
# Readers and what they check

The readers of a query node make checks on its members, one after another. A `Check` says what it asks for
in terms of the JSON value, and how it refuses. `Node.Obeys` says that a reader gives a value exactly if all
of its checks are met, and otherwise the refusal of the first one that is not.

Reading a whole query is reading a node by its kind (`ofJson_of_node`), and reading clauses is reading each
of them (`clausesOfJson_eq_mapM`).
-/

set_option autoImplicit false

namespace EventFinder

/-! ## Members -/

namespace Json

theorem string?_eq_some_iff {v : Json} {s : String} : v.string? = some s ↔ v = .string s := by
  cases v <;> simp [string?]

theorem bool?_eq_some_iff {v : Json} {b : Bool} : v.bool? = some b ↔ v = .bool b := by
  cases v <;> simp [bool?]

theorem array?_eq_some_iff {v : Json} {items : List Json} : v.array? = some items ↔ v = .array items := by
  cases v <;> simp [array?]

theorem real?_eq_some_iff {v : Json} {x : Binary64} :
    v.real? = some x ↔ ∃ n : JsonNumber, v = .number n ∧ n.toBinary64 = x := by
  cases v <;> simp [real?]

theorem int64?_eq_some_iff {v : Json} {n : Int64} :
    v.int64? = some n ↔ v = .number (.integer n.toInt) := by
  constructor
  · intro h
    unfold int64? at h
    split at h
    · rename_i m
      split at h
      · rename_i hfits
        rw [fitsSigned, decide_eq_true_eq] at hfits
        cases h
        rw [Int64.toInt_ofInt_of_le hfits.1 hfits.2]
      · cases h
    · cases h
  · rintro rfl
    have hfits : fitsSigned 64 n.toInt = true := by
      rw [fitsSigned, decide_eq_true_eq]
      exact ⟨n.le_toInt, n.toInt_lt⟩
    rw [int64?, if_pos hfits, Int64.ofInt_toInt]

end Json

theorem fitsSigned_iff_int32 {n : Int} : fitsSigned 32 n = true ↔ ∃ k : Int32, n = k.toInt := by
  rw [fitsSigned, decide_eq_true_eq]
  constructor
  · intro h
    exact ⟨Int32.ofInt n, (Int32.toInt_ofInt_of_le h.1 h.2).symm⟩
  · rintro ⟨k, rfl⟩
    exact ⟨k.le_toInt, k.toInt_lt⟩

namespace Query

/-- What is asked of a member of a node. A member that is missing or `null` is not there. -/
inductive Check where
  /-- A text has to be there. -/
  | text (key : String)
  /-- A list has to be there. -/
  | list (key : String)
  /-- The items of a list have to be texts. -/
  | texts (key : String)
  /-- What is there has to be a number. -/
  | number (key : String)
  /-- A number has to be there. -/
  | given (key : String)
  /-- A number that is there has to be finite, and zero at least. -/
  | distance (key : String)
  /-- What is there has to be a whole number of 64 bits. -/
  | integer (key : String)
  /-- A whole number that is there has to be as narrow as the range. -/
  | fits (width : Width) (key : String)
  /-- What is there has to be a truth value, if `bound` is there. -/
  | flag (bound key : String)
deriving DecidableEq, Repr

namespace Check

/-- Does a node meet the check? -/
def Met (node : Node) : Check → Prop
  | text key => ∃ s, node.get? key = some (.string s)
  | list key => ∃ items, node.get? key = some (.array items)
  | texts key => ∀ items, node.get? key = some (.array items) → ∀ item ∈ items, ∃ s, item = .string s
  | number key => ∀ v, node.get? key = some v → ∃ n, v = .number n
  | given key => ∃ v, node.get? key = some v
  | distance key => ∀ n, node.get? key = some (.number n) →
      n.toBinary64.isFinite = true ∧ Binary.zero.le n.toBinary64 = true
  | integer key => ∀ v, node.get? key = some v → ∃ n : Int64, v = .number (.integer n.toInt)
  | fits width key => width = .narrow → ∀ n, node.get? key = some (.number (.integer n)) →
      ∃ k : Int32, n = k.toInt
  | flag bound key => node.get? bound ≠ none → ∀ v, node.get? key = some v → ∃ b, v = .bool b

/-- The error of a node that does not meet the check. -/
def refusal (node : Node) : Check → QueryError
  | text key => .invalid node.type (.missing .text key)
  | list key => .invalid node.type (.missing .list key)
  | texts _ => .invalid node.type .valueNotText
  | number key => .invalid node.type (.mistyped key .number)
  | given key => .invalid node.type (.missing .number key)
  | distance key =>
      .invalid "coordinate circle envelope" (.badRadius (((node.get? key).bind Json.real?).getD .zero))
  | integer key => .invalid node.type (.mistyped key .integer)
  | fits _ key => .invalid node.type (.outOfRange key)
  | flag _ key => .invalid node.type (.mistyped key .boolean)

end Check

namespace Node

/-- The first check that the node does not meet is refused with `e`. -/
def FirstUnmet (node : Node) (checks : List Check) (e : QueryError) : Prop :=
  FirstRefused (Check.Met node) (fun check e => ¬ check.Met node ∧ e = check.refusal node) checks e

/-- The outcome of reading the node is decided by some checks, made in order. -/
def Obeys {α : Type} (node : Node) (outcome : Except QueryError α) (checks : List Check) : Prop :=
  Decides outcome (∀ check ∈ checks, check.Met node) (node.FirstUnmet checks)

theorem firstUnmet_singleton_iff {node : Node} {check : Check} {e : QueryError} :
    node.FirstUnmet [check] e ↔ ¬ check.Met node ∧ e = check.refusal node := by
  rw [FirstUnmet, firstRefused_cons_iff, or_iff_left fun h => firstRefused_nil h.2]

namespace Obeys

variable {α β : Type} {node : Node} {outcome : Except QueryError α} {checks checks' : List Check}

theorem nil (node : Node) (a : α) : node.Obeys (.ok a) [] :=
  Decides.of_ok a (fun _ hcheck => (List.not_mem_nil hcheck).elim) fun _ => firstRefused_nil

/-- Behind a check that is met the others decide. -/
theorem met {check : Check} (hmet : check.Met node) (h : node.Obeys outcome checks) :
    node.Obeys outcome (check :: checks) := by
  apply h.congr
  · rw [List.forall_mem_cons, and_iff_right hmet]
  · intro e
    rw [FirstUnmet, FirstUnmet, firstRefused_cons_iff, and_iff_right hmet, or_iff_right fun h => h.1 hmet]

/-- A check that is not met refuses the node, whatever comes behind it. -/
theorem unmet {check : Check} (hunmet : ¬ check.Met node) (houtcome : outcome = .error (check.refusal node)) :
    node.Obeys outcome (check :: checks) := by
  rw [houtcome]
  apply Decides.of_error _ fun hall => hunmet (hall check List.mem_cons_self)
  intro e
  rw [FirstUnmet, firstRefused_cons_iff, and_iff_right hunmet, or_iff_left fun h => hunmet h.1]

theorem single {check : Check} (hmet : check.Met node → ∃ a, outcome = .ok a)
    (hunmet : ¬ check.Met node → outcome = .error (check.refusal node)) : node.Obeys outcome [check] := by
  by_cases h : check.Met node
  · obtain ⟨a, rfl⟩ := hmet h
    exact met h (nil node a)
  · exact unmet h (hunmet h)

/-- A second reader makes its checks behind those of the first one. -/
theorem bind {next : α → Except QueryError β} (h : node.Obeys outcome checks)
    (hnext : ∀ a, outcome = .ok a → node.Obeys (next a) checks') :
    node.Obeys (outcome >>= next) (checks ++ checks') := by
  apply (Decides.bind h hnext).congr
  · rw [List.forall_mem_append]
  · exact fun _ => firstRefused_append_iff.symm

theorem map {f : α → β} (h : node.Obeys outcome checks) :
    node.Obeys (outcome >>= fun a => pure (f a)) checks :=
  Decides.map h

end Obeys

/-! ### The readers of members

A member that has to be there is seen through a view of JSON values, and so is one that may be missing. -/

section Views

variable {α : Type} (node : Node) (key : String) (view : Json → Option α) (what : Expected)

/-- A member that has to be there. -/
def required : Except QueryError α :=
  match (node.get? key).bind view with
  | some a => .ok a
  | none => node.refuse (.missing what key)

/-- A member that may be missing. -/
def optional : Except QueryError (Option α) :=
  match node.get? key with
  | none => .ok none
  | some v =>
      match view v with
      | some a => .ok (some a)
      | none => node.refuse (.mistyped key what)

variable {node key view what}

theorem get?_of_required {a : α} (h : node.required key view what = .ok a) :
    ∃ v, node.get? key = some v ∧ view v = some a := by
  rw [required] at h
  split at h
  · rename_i a' ha'
    cases h
    exact Option.bind_eq_some_iff.1 ha'
  · cases h

theorem get?_of_optional_none (h : node.optional key view what = .ok none) : node.get? key = none := by
  rw [optional] at h
  split at h
  · assumption
  · split at h
    · cases h
    · cases h

theorem get?_of_optional_some {a : α} (h : node.optional key view what = .ok (some a)) :
    ∃ v, node.get? key = some v ∧ view v = some a := by
  rw [optional] at h
  split at h
  · cases h
  · rename_i v hv
    split at h
    · rename_i a' ha'
      cases h
      exact ⟨v, hv, ha'⟩
    · cases h

theorem obeys_required {check : Check}
    (hmet : check.Met node ↔ ∃ v, node.get? key = some v ∧ ∃ a, view v = some a)
    (hrefusal : check.refusal node = .invalid node.type (.missing what key)) :
    node.Obeys (node.required key view what) [check] := by
  apply Obeys.single
  · intro h
    obtain ⟨v, hv, a, ha⟩ := hmet.1 h
    exact ⟨a, by rw [required, hv, Option.bind_some, ha]⟩
  · intro h
    have hnone : (node.get? key).bind view = none := by
      rw [Option.eq_none_iff_forall_ne_some]
      intro a ha
      obtain ⟨v, hv, hview⟩ := Option.bind_eq_some_iff.1 ha
      exact h (hmet.2 ⟨v, hv, a, hview⟩)
    rw [required, hnone, hrefusal]
    rfl

theorem obeys_optional {check : Check}
    (hmet : check.Met node ↔ ∀ v, node.get? key = some v → ∃ a, view v = some a)
    (hrefusal : check.refusal node = .invalid node.type (.mistyped key what)) :
    node.Obeys (node.optional key view what) [check] := by
  cases hv : node.get? key with
  | none =>
      apply Obeys.single
      · intro _
        exact ⟨none, by rw [optional, hv]⟩
      · intro h
        exact absurd (hmet.2 fun v hv' => nomatch hv.symm.trans hv') h
  | some v =>
      apply Obeys.single
      · intro h
        obtain ⟨a, ha⟩ := hmet.1 h v hv
        exact ⟨some a, by rw [optional, hv]; dsimp only; rw [ha]⟩
      · intro h
        have hnone : view v = none := by
          rw [Option.eq_none_iff_forall_ne_some]
          intro a ha
          refine h (hmet.2 fun v' hv' => ⟨a, ?_⟩)
          rw [hv, Option.some.injEq] at hv'
          rw [← hv', ha]
        rw [optional, hv, hrefusal]
        dsimp only
        rw [hnone]
        rfl

end Views

variable {node : Node} {key : String}

theorem text_eq : node.text key = node.required key Json.string? .text := by
  rw [text, required]
  cases (node.get? key).bind Json.string? <;> rfl

theorem list_eq : node.list key = node.required key Json.array? .list := by
  rw [list, required]
  cases (node.get? key).bind Json.array? <;> rfl

theorem number?_eq : node.number? key = node.optional key Json.real? .number := by
  rw [number?, optional]
  cases node.get? key with
  | none => rfl
  | some v => cases h : v.real? <;> simp only [h]

theorem integer?_eq : node.integer? key = node.optional key Json.int64? .integer := by
  rw [integer?, optional]
  cases node.get? key with
  | none => rfl
  | some v => cases h : v.int64? <;> simp only [h]

theorem booleanOr_eq (default : Bool) :
    node.booleanOr key default =
      node.optional key Json.bool? .boolean >>= fun b => pure (b.getD default) := by
  rw [booleanOr, optional]
  cases node.get? key with
  | none => rfl
  | some v => cases h : v.bool? <;> simp only [h] <;> rfl

theorem obeys_text : node.Obeys (node.text key) [.text key] := by
  rw [text_eq]
  apply obeys_required _ rfl
  simp only [Check.Met, Json.string?_eq_some_iff]
  exact ⟨fun ⟨s, hs⟩ => ⟨_, hs, s, rfl⟩, fun ⟨_, hv, s, hs⟩ => ⟨s, hs ▸ hv⟩⟩

theorem obeys_list : node.Obeys (node.list key) [.list key] := by
  rw [list_eq]
  apply obeys_required _ rfl
  simp only [Check.Met, Json.array?_eq_some_iff]
  exact ⟨fun ⟨items, hitems⟩ => ⟨_, hitems, items, rfl⟩, fun ⟨_, hv, items, hitems⟩ => ⟨items, hitems ▸ hv⟩⟩

theorem get?_of_list {items : List Json} (h : node.list key = .ok items) :
    node.get? key = some (.array items) := by
  rw [list_eq] at h
  obtain ⟨v, hv, harray⟩ := get?_of_required h
  rw [hv, Json.array?_eq_some_iff.1 harray]

theorem list_of_get? {items : List Json} (h : node.get? key = some (.array items)) :
    node.list key = .ok items := by
  rw [list, h]
  rfl

theorem obeys_number? : node.Obeys (node.number? key) [.number key] := by
  rw [number?_eq]
  apply obeys_optional _ rfl
  have hnumber : ∀ v : Json, (∃ n, v = .number n) ↔ ∃ x, v.real? = some x := fun v => by
    simp only [Json.real?_eq_some_iff]
    exact ⟨fun ⟨n, hn⟩ => ⟨_, n, hn, rfl⟩, fun ⟨_, n, hn, _⟩ => ⟨n, hn⟩⟩
  simp only [Check.Met, hnumber]

/-- The checks of a number that has to be there. -/
def numberChecks (key : String) : List Check := [.number key, .given key]

theorem obeys_number : node.Obeys (node.number key) (numberChecks key) := by
  apply obeys_number?.bind
  intro x hx
  rw [number?_eq] at hx
  cases x with
  | some x =>
      obtain ⟨v, hv, -⟩ := get?_of_optional_some hx
      exact Obeys.met ⟨v, hv⟩ (Obeys.nil node x)
  | none =>
      refine Obeys.unmet ?_ rfl
      rintro ⟨v, hv⟩
      rw [get?_of_optional_none hx] at hv
      cases hv

theorem get?_of_number {x : Binary64} (h : node.number key = .ok x) :
    ∃ n : JsonNumber, node.get? key = some (.number n) ∧ n.toBinary64 = x := by
  have hoptional : node.optional key Json.real? .number = .ok (some x) := by
    rw [number, number?_eq] at h
    cases hx : node.optional key Json.real? .number with
    | error e =>
        rw [hx] at h
        cases h
    | ok x' =>
        rw [hx] at h
        cases x' with
        | none => cases h
        | some x' =>
            cases h
            rfl
  obtain ⟨v, hv, hreal⟩ := get?_of_optional_some hoptional
  obtain ⟨n, rfl, hn⟩ := Json.real?_eq_some_iff.1 hreal
  exact ⟨n, hv, hn⟩

theorem obeys_integer? : node.Obeys (node.integer? key) [.integer key] := by
  rw [integer?_eq]
  apply obeys_optional _ rfl
  simp [Check.Met, Json.int64?_eq_some_iff]

/-- A flag that belongs to a member that is there. -/
theorem obeys_booleanOr {bound : String} (hbound : node.get? bound ≠ none) (default : Bool) :
    node.Obeys (node.booleanOr key default) [.flag bound key] := by
  rw [booleanOr_eq]
  apply Obeys.map
  apply obeys_optional _ rfl
  simp [Check.Met, Json.bool?_eq_some_iff, hbound]

theorem obeys_factor : node.Obeys node.factor [.number "boost"] := by
  have hbind : node.Obeys node.factor ([.number "boost"] ++ []) := by
    apply obeys_number?.bind
    intro x _
    cases x with
    | none => exact Obeys.nil node Binary.one
    | some x => exact Obeys.nil node x.convert
  exact hbind

theorem obeys_weighted (query : Query) : node.Obeys (node.weighted query) [.number "boost"] :=
  obeys_factor.map

/-! ### Ranges -/

/-- The checks of one end of a range of whole numbers. -/
def integerBoundChecks (width : Width) (key inclusiveKey : String) : List Check :=
  [.integer key, .fits width key, .flag key inclusiveKey]

/-- The checks of one end of a range of binary numbers. -/
def realBoundChecks (key inclusiveKey : String) : List Check := [.number key, .flag key inclusiveKey]

/-- An end that is missing has no flag to be checked. -/
theorem flag_met_of_missing {bound : String} (h : node.get? bound = none) : (Check.flag bound key).Met node :=
  fun hbound => absurd h hbound

theorem obeys_integerBound (width : Width) (inclusiveKey : String) :
    node.Obeys (node.integerBound width key inclusiveKey) (integerBoundChecks width key inclusiveKey) := by
  apply obeys_integer?.bind
  intro n hn
  rw [integer?_eq] at hn
  cases n with
  | none =>
      -- Where there is no bound, neither its width nor its flag is looked at.
      have hnone := get?_of_optional_none hn
      have hfits : (Check.fits width key).Met node := fun _ n hn => by
        rw [hnone] at hn
        cases hn
      exact Obeys.met hfits (Obeys.met (flag_met_of_missing hnone) (Obeys.nil node _))
  | some n =>
      obtain ⟨v, hv, hint⟩ := get?_of_optional_some hn
      rw [Json.int64?_eq_some_iff.1 hint] at hv
      have hbound : node.get? key ≠ none := by
        rw [hv]
        exact Option.some_ne_none _
      dsimp only
      split
      · rename_i hwide
        rw [Bool.and_eq_true, decide_eq_true_eq, Bool.not_eq_true'] at hwide
        refine Obeys.unmet (fun hfits => ?_) rfl
        rw [fitsSigned_iff_int32.2 (hfits hwide.1 _ hv)] at hwide
        cases hwide.2
      · rename_i hfits
        refine Obeys.met (fun hnarrow m hm => ?_) (obeys_booleanOr hbound true).map
        rw [hv] at hm
        cases hm
        rw [decide_eq_true hnarrow, Bool.true_and, Bool.not_eq_true', Bool.not_eq_false] at hfits
        exact fitsSigned_iff_int32.1 hfits

theorem obeys_realBound (width : Width) (inclusiveKey : String) :
    node.Obeys (node.realBound width key inclusiveKey) (realBoundChecks key inclusiveKey) := by
  apply obeys_number?.bind
  intro x hx
  rw [number?_eq] at hx
  cases x with
  | none =>
      exact Obeys.met (flag_met_of_missing (get?_of_optional_none hx)) (Obeys.nil node _)
  | some x =>
      obtain ⟨v, hv, -⟩ := get?_of_optional_some hx
      have hbound : node.get? key ≠ none := by
        rw [hv]
        exact Option.some_ne_none _
      exact (obeys_booleanOr hbound true).map

/-! ### Areas and tags -/

/-- The checks of a box. -/
def boxChecks : List Check :=
  ["southLatitude", "westLongitude", "northLatitude", "eastLongitude"].flatMap numberChecks

/-- The checks of a circle. -/
def circleChecks : List Check :=
  ["centroidLatitude", "centroidLongitude", "radiusKilometers"].flatMap numberChecks ++
    [.distance "radiusKilometers"]

theorem obeys_box : node.Obeys node.box boxChecks :=
  obeys_number.bind fun _ _ => obeys_number.bind fun _ _ => obeys_number.bind fun _ _ => obeys_number.map

/-- A distance is a finite number that is zero at least. -/
theorem distance_iff (x : Binary64) :
    (!x.isFinite || x.lt .zero) = false ↔ x.isFinite = true ∧ Binary.zero.le x = true := by
  cases hfinite : x.isFinite with
  | false => simp
  | true =>
      have hnumber : x.isNaN = false := by
        rw [Binary.isFinite, decide_eq_true_eq] at hfinite
        rw [Binary.isNaN, decide_eq_false_iff_not]
        omega
      rw [Binary.le_iff_not_lt Binary.isPlain_zero.isNumber hnumber]
      simp

theorem obeys_circle (latitudeField longitudeField : String) :
    node.Obeys (node.circle latitudeField longitudeField) circleChecks := by
  refine obeys_number.bind fun latitude _ => obeys_number.bind fun longitude _ =>
    obeys_number.bind fun radius hradius => ?_
  -- The radius is looked at once more, when all three numbers are there.
  obtain ⟨n, hn, rfl⟩ := get?_of_number hradius
  rw [inCircle]
  split
  · rename_i hbad
    refine Obeys.unmet (fun hdistance => ?_) ?_
    · rw [(distance_iff _).2 (hdistance n hn)] at hbad
      cases hbad
    · rw [Check.refusal, hn]
      rfl
  · rename_i hgood
    rw [Bool.not_eq_true, distance_iff] at hgood
    refine Obeys.met (fun m hm => ?_) (Obeys.nil node _)
    rw [hn] at hm
    cases hm
    exact hgood

theorem decides_hasTag (item : Json) :
    Decides (node.hasTag item) (∃ s, item = .string s) fun e =>
      (¬ ∃ s, item = .string s) ∧ e = .invalid node.type .valueNotText := by
  cases item with
  | string s => exact Decides.of_ok _ ⟨s, rfl⟩ fun e he => he.1 ⟨s, rfl⟩
  | _ => exact Decides.of_error _ (fun ⟨_, h⟩ => nomatch h) fun e => and_iff_right fun ⟨_, h⟩ => nomatch h

theorem obeys_tags :
    node.Obeys (node.list "values" >>= fun values => return allOf (← values.mapM node.hasTag))
      [.list "values", .texts "values"] := by
  refine obeys_list.bind fun values hvalues => Obeys.map ?_
  have hget := get?_of_list hvalues
  have hmapM : Decides (values.mapM node.hasTag) _ _ := Decides.mapM fun item _ => node.decides_hasTag item
  cases houtcome : values.mapM node.hasTag with
  | ok queries =>
      refine Obeys.met (fun items hitems => ?_) (Obeys.nil node queries)
      rw [hget] at hitems
      cases hitems
      exact hmapM.ok_iff.1 ⟨queries, houtcome⟩
  | error e =>
      obtain ⟨before, item, after, hsplit, -, hitem, rfl⟩ := (hmapM.error_iff e).1 houtcome
      refine Obeys.unmet (fun htexts => hitem (htexts values hget item ?_)) rfl
      rw [hsplit]
      exact List.mem_append_right _ List.mem_cons_self

end Node

/-! ## Whole queries -/

variable {context : Context} {value : Json} {node : Node}

theorem ofJson_of_error {e : QueryError} (hnode : Node.ofJson value = .error e) :
    ofJson context value = .error e := by
  rw [ofJson]
  split
  · rename_i e' he
    rw [hnode] at he
    cases he
    rfl
  · rename_i node' hnode'
    rw [hnode] at hnode'
    cases hnode'

/-- A node is read by its kind. -/
theorem ofJson_of_node (hnode : Node.ofJson value = .ok node) :
    ofJson context value =
      match node.kind? with
      | none => .error (.unsupportedType node.type)
      | some (.leaf kind) => node.leaf context kind >>= node.weighted
      | some .boolean => (do
          let items ← node.list "clauses"
          let clauses ← clausesOfJson context node items
          node.weighted (.boolean clauses)) := by
  rw [ofJson]
  split
  · rename_i e he
    rw [hnode] at he
    cases he
  · rename_i node' hnode'
    rw [hnode] at hnode'
    cases hnode'
    cases hkind : node.kind? with
    | none => rfl
    | some kind =>
        cases kind with
        | leaf kind => rfl
        | boolean =>
            rw [Node.list]
            dsimp only
            split
            · rename_i items hitems
              rw [hitems]
              rfl
            · rename_i hnone
              have hbind : (node.get? "clauses").bind Json.array? = none := by
                cases hget : node.get? "clauses" with
                | none => rfl
                | some v =>
                    cases v with
                    | array items => exact absurd hget (hnone items)
                    | _ => rfl
              rw [hbind]
              rfl

/-- The clause that a value is. -/
def clauseOfJson (context : Context) (node : Node) (item : Json) : Except QueryError (Occur × Query) :=
  match item with
  | .object members => do
      let occur ← node.clauseOccur members
      match Json.lookup "query" members with
      | none => node.refuse .clauseWithoutQuery
      | some value => return (occur, ← ofJson context value)
  | _ => node.refuse .clauseNotAnObject

theorem clausesOfJson_cons (item : Json) (rest : List Json) :
    clausesOfJson context node (item :: rest) = do
      let clause ← clauseOfJson context node item
      return clause :: (← clausesOfJson context node rest) := by
  cases item with
  | object members =>
      rw [clausesOfJson, clauseOfJson]
      cases node.clauseOccur members with
      | error e => rfl
      | ok occur =>
          dsimp only [bind, Except.bind]
          split
          · rename_i hq
            rw [hq]
            rfl
          · rename_i query hq
            cases hquery : ofJson context query with
            | error e => simp only [hq, hquery]
            | ok q =>
                simp only [hq, hquery]
                rfl
  | _ =>
      rw [clausesOfJson, clauseOfJson]
      · rfl
      · intro _ h
        cases h
      · intro _ h
        cases h

/-- Reading clauses is reading each of them. -/
theorem clausesOfJson_eq_mapM (items : List Json) :
    clausesOfJson context node items = items.mapM (clauseOfJson context node) := by
  induction items with
  | nil =>
      rw [clausesOfJson]
      rfl
  | cons item rest ih =>
      rw [clausesOfJson_cons, ih, List.mapM_cons]

end Query

end EventFinder
