/-!
# Outcomes

What a reader does is said in both directions: when it gives a value, and when it gives which error
(`Decides`). A reader behind another one decides what is left (`Decides.bind`), and reading each of some
items decides by the first one that is refused (`Decides.mapM`).
-/

set_option autoImplicit false

namespace EventFinder

variable {ε α β : Type}

/-! ## Values -/

theorem bind_eq_ok_iff {outcome : Except ε α} {next : α → Except ε β} {b : β} :
    outcome >>= next = .ok b ↔ ∃ a, outcome = .ok a ∧ next a = .ok b := by
  cases outcome with
  | ok a => exact ⟨fun h => ⟨a, rfl, h⟩, fun ⟨_, ha, h⟩ => by cases ha; exact h⟩
  | error e => exact ⟨fun h => (nomatch h), fun ⟨_, ha, _⟩ => (nomatch ha)⟩

theorem map_eq_ok_iff {outcome : Except ε α} {f : α → β} {b : β} :
    outcome.map f = .ok b ↔ ∃ a, outcome = .ok a ∧ f a = b := by
  cases outcome with
  | ok a => exact ⟨fun h => ⟨a, rfl, Except.ok.inj h⟩, fun ⟨_, ha, h⟩ => by cases ha; exact congrArg _ h⟩
  | error e => exact ⟨fun h => (nomatch h), fun ⟨_, ha, _⟩ => (nomatch ha)⟩

/-- What was read from some items was read from one of them each. -/
theorem exists_of_mem_mapM {reader : α → Except ε β} {items : List α} {values : List β}
    (h : items.mapM reader = .ok values) {b : β} (hb : b ∈ values) : ∃ item ∈ items, reader item = .ok b := by
  induction items generalizing values with
  | nil =>
      rw [List.mapM_nil] at h
      cases h
      cases hb
  | cons item rest ih =>
      rw [List.mapM_cons] at h
      obtain ⟨value, hvalue, h⟩ := bind_eq_ok_iff.1 h
      obtain ⟨others, hothers, h⟩ := bind_eq_ok_iff.1 h
      cases h
      rcases List.mem_cons.1 hb with rfl | hb
      · exact ⟨item, List.mem_cons_self, hvalue⟩
      · obtain ⟨item', hitem', hvalue'⟩ := ih hothers hb
        exact ⟨item', List.mem_cons_of_mem _ hitem', hvalue'⟩

/-! ## Deciding -/

/-- There is a value exactly if `accepted` holds, and an error exactly if `refused` holds of it. -/
structure Decides (outcome : Except ε α) (accepted : Prop) (refused : ε → Prop) : Prop where
  ok_iff : (∃ a, outcome = .ok a) ↔ accepted
  error_iff : ∀ e, outcome = .error e ↔ refused e

/-- Of some items the first one that is not accepted is refused with `e`. -/
def FirstRefused (accepted : α → Prop) (refused : α → ε → Prop) (items : List α) (e : ε) : Prop :=
  ∃ before item after, items = before ++ item :: after ∧ (∀ other ∈ before, accepted other) ∧ refused item e

theorem firstRefused_nil {accepted : α → Prop} {refused : α → ε → Prop} {e : ε} :
    ¬ FirstRefused accepted refused [] e := by
  rintro ⟨before, item, after, hsplit, -⟩
  cases before with
  | nil => cases hsplit
  | cons _ _ => cases hsplit

theorem firstRefused_cons_iff {accepted : α → Prop} {refused : α → ε → Prop} {first : α} {rest : List α}
    {e : ε} :
    FirstRefused accepted refused (first :: rest) e ↔
      refused first e ∨ accepted first ∧ FirstRefused accepted refused rest e := by
  constructor
  · rintro ⟨before, item, after, hsplit, hbefore, hitem⟩
    cases before with
    | nil =>
        cases hsplit
        exact Or.inl hitem
    | cons head before =>
        cases hsplit
        rw [List.forall_mem_cons] at hbefore
        exact Or.inr ⟨hbefore.1, before, item, after, rfl, hbefore.2, hitem⟩
  · rintro (hfirst | ⟨hfirst, before, item, after, rfl, hbefore, hitem⟩)
    · exact ⟨[], first, rest, rfl, fun _ hother => (List.not_mem_nil hother).elim, hfirst⟩
    · exact ⟨first :: before, item, after, rfl, List.forall_mem_cons.2 ⟨hfirst, hbefore⟩, hitem⟩

theorem firstRefused_singleton {accepted : α → Prop} {refused : α → ε → Prop} {item : α} {e : ε} :
    FirstRefused accepted refused [item] e ↔ refused item e := by
  rw [firstRefused_cons_iff, or_iff_left fun h => firstRefused_nil h.2]

theorem firstRefused_append_iff {accepted : α → Prop} {refused : α → ε → Prop} {items others : List α}
    {e : ε} :
    FirstRefused accepted refused (items ++ others) e ↔
      FirstRefused accepted refused items e ∨
        (∀ item ∈ items, accepted item) ∧ FirstRefused accepted refused others e := by
  induction items with
  | nil => simp [firstRefused_nil]
  | cons first rest ih =>
      rw [List.cons_append, firstRefused_cons_iff, firstRefused_cons_iff, ih, List.forall_mem_cons,
        and_or_left, or_assoc, and_assoc]

namespace Decides

variable {outcome : Except ε α} {accepted accepted' : Prop} {refused refused' : ε → Prop}

theorem congr (h : Decides outcome accepted refused) (haccepted : accepted ↔ accepted')
    (hrefused : ∀ e, refused e ↔ refused' e) : Decides outcome accepted' refused' where
  ok_iff := h.ok_iff.trans haccepted
  error_iff e := (h.error_iff e).trans (hrefused e)

theorem of_ok (a : α) (haccepted : accepted) (hrefused : ∀ e, ¬ refused e) :
    Decides (.ok a) accepted refused where
  ok_iff := iff_of_true ⟨a, rfl⟩ haccepted
  error_iff e := iff_of_false (fun h => nomatch h) (hrefused e)

theorem of_error (e : ε) (haccepted : ¬ accepted) (hrefused : ∀ e', refused e' ↔ e' = e) :
    Decides (.error e : Except ε α) accepted refused where
  ok_iff := iff_of_false (fun ⟨_, h⟩ => nomatch h) haccepted
  error_iff e' := by rw [hrefused, Except.error.injEq, eq_comm]

/-- What gives a value exactly for what can be read decides by the grammar of what is read. -/
theorem of_isSome {parsed : Option β} {e : ε} (hsome : ∀ b, parsed = some b → ∃ a, outcome = .ok a)
    (hnone : parsed = none → outcome = .error e) (h : parsed.isSome ↔ accepted) :
    Decides outcome accepted fun e' => ¬ accepted ∧ e' = e := by
  cases hparsed : parsed with
  | some b =>
      obtain ⟨a, rfl⟩ := hsome b hparsed
      have haccepted : accepted := h.1 (by rw [hparsed]; rfl)
      exact of_ok a haccepted fun e' he => he.1 haccepted
  | none =>
      rw [hnone hparsed]
      have haccepted : ¬ accepted := fun haccepted => by
        have hread := h.2 haccepted
        rw [hparsed] at hread
        cases hread
      exact of_error e haccepted fun e' => and_iff_right haccepted

theorem not_refused (h : Decides outcome accepted refused) (haccepted : accepted) (e : ε) : ¬ refused e := by
  intro he
  obtain ⟨a, ha⟩ := h.ok_iff.2 haccepted
  rw [(h.error_iff e).2 he] at ha
  cases ha

theorem not_accepted (h : Decides outcome accepted refused) {e : ε} (he : refused e) : ¬ accepted :=
  fun haccepted => h.not_refused haccepted e he

theorem exists_error (h : Decides outcome accepted refused) (hnot : ¬ accepted) : ∃ e, outcome = .error e := by
  cases houtcome : outcome with
  | ok a => exact absurd (h.ok_iff.1 ⟨a, houtcome⟩) hnot
  | error e => exact ⟨e, rfl⟩

/-- A second reader decides what the first one accepts. -/
theorem bind {next : α → Except ε β} (h : Decides outcome accepted refused)
    (hnext : ∀ a, outcome = .ok a → Decides (next a) accepted' refused') :
    Decides (outcome >>= next) (accepted ∧ accepted') fun e => refused e ∨ accepted ∧ refused' e := by
  -- Behind a value the second reader decides, and an error of the first one stands.
  cases houtcome : outcome with
  | ok a =>
      have haccepted : accepted := h.ok_iff.1 ⟨a, houtcome⟩
      apply (hnext a houtcome).congr
      · rw [and_iff_right haccepted]
      · intro e
        rw [and_iff_right haccepted, or_iff_right (h.not_refused haccepted e)]
  | error e =>
      have hrefused : ∀ e', refused e' ↔ e' = e := fun e' => by
        rw [← h.error_iff, houtcome, Except.error.injEq, eq_comm]
      have haccepted : ¬ accepted := h.not_accepted ((hrefused e).2 rfl)
      apply of_error e (fun hboth => haccepted hboth.1)
      intro e'
      rw [hrefused, or_iff_left fun hboth => haccepted hboth.1]

theorem map {f : α → β} (h : Decides outcome accepted refused) :
    Decides (outcome >>= fun a => pure (f a)) accepted refused := by
  have hbind : Decides (outcome >>= fun a => pure (f a)) (accepted ∧ True)
      fun e => refused e ∨ accepted ∧ False :=
    h.bind fun a _ => of_ok (f a) trivial fun _ => id
  exact hbind.congr (and_iff_left trivial) fun e => or_iff_left fun hboth => hboth.2

/-- Of each of some items the first one that is refused decides. -/
theorem mapM {reader : α → Except ε β} {accepted : α → Prop} {refused : α → ε → Prop} {items : List α}
    (h : ∀ item ∈ items, Decides (reader item) (accepted item) (refused item)) :
    Decides (items.mapM reader) (∀ item ∈ items, accepted item) (FirstRefused accepted refused items) := by
  induction items with
  | nil => exact of_ok [] (fun _ hitem => (List.not_mem_nil hitem).elim) fun _ => firstRefused_nil
  | cons first rest ih =>
      rw [List.forall_mem_cons] at h
      rw [List.mapM_cons]
      -- The first item decides, and if it is accepted the others do.
      have hrest : Decides (rest.mapM reader) _ _ := ih h.2
      apply (h.1.bind fun b _ => hrest.map (f := fun bs => b :: bs)).congr
      · rw [List.forall_mem_cons]
      · exact fun _ => firstRefused_cons_iff.symm

end Decides

end EventFinder
